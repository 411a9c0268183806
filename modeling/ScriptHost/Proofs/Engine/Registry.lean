import ScriptHost.Service.Basic

/-!
# Registries of corresponding engines

What a token finds depends on the names of the engines only. `Registry.map` puts other engines under
the names of a registry, and registering and looking up commute with it; so do whole services,
`Service.ofEngines_map`.
-/

namespace ScriptHost

namespace Registry

variable {α β : Type}

/-- The registry with another engine in the place of each one. -/
def map (f : α → β) (r : Registry α) : Registry β :=
  ⟨r.entries.map fun entry => (entry.1, f entry.2), r.index⟩

/-- Registering commutes with replacing engines. -/
theorem register_map (f : α → β) (r : Registry α) (names : EngineNames) (engine : α) :
    (r.map f).register names (f engine) = (r.register names engine).map (map f) := by
  rw [register, register]
  cases h : names.tokens.find? r.contains with
  | some token =>
      rw [show names.tokens.find? (r.map f).contains = some token from h]
      rfl
  | none =>
      rw [show names.tokens.find? (r.map f).contains = none from h]
      simp [map, Except.map]

/-- Looking up commutes with replacing engines. -/
theorem lookup_map (f : α → β) (r : Registry α) (token : String) :
    (r.map f).lookup token = (r.lookup token).map fun entry => (entry.1, f entry.2) := by
  have hfound : (r.map f).index[token]?.bind ((r.map f).entries[·]?) =
      (r.index[token]?.bind (r.entries[·]?)).map fun entry => (entry.1, f entry.2) := by
    show r.index[token]?.bind (fun i => (r.entries.map fun entry => (entry.1, f entry.2))[i]?) = _
    cases r.index[token]? with
    | none => rfl
    | some i => exact List.getElem?_map
  rw [lookup, lookup, hfound]
  cases r.index[token]?.bind (r.entries[·]?) <;> rfl

/-- What a token finds was registered. -/
theorem mem_entries_of_lookup {r : Registry α} {token : String} {entry : EngineNames × α}
    (h : r.lookup token = .ok entry) : entry ∈ r.entries := by
  rw [lookup] at h
  cases hfound : r.index[token]?.bind (r.entries[·]?) with
  | none => simp [hfound] at h
  | some found =>
      rw [hfound] at h
      cases h
      obtain ⟨i, _, hi⟩ := Option.bind_eq_some_iff.mp hfound
      exact List.mem_of_getElem? hi

/-- Register engines in order. -/
def registerAll (r : Registry α) (engines : List (EngineNames × α)) : Except Error (Registry α) :=
  engines.foldlM (fun (r : Registry α) (names, engine) => r.register names engine) r

/-- The first engine is registered first. -/
theorem registerAll_cons (r : Registry α) (entry : EngineNames × α)
    (engines : List (EngineNames × α)) :
    r.registerAll (entry :: engines) =
      (r.register entry.1 entry.2).bind fun next => next.registerAll engines := rfl

/-- Engines in two parts are registered one part after the other. -/
theorem registerAll_append (r : Registry α) (engines more : List (EngineNames × α)) :
    r.registerAll (engines ++ more) =
      (r.registerAll engines).bind fun next => next.registerAll more :=
  List.foldlM_append

/-- Registering engines in order commutes with replacing them. -/
theorem registerAll_map (f : α → β) (r : Registry α) (engines : List (EngineNames × α)) :
    (r.map f).registerAll (engines.map fun entry => (entry.1, f entry.2)) =
      (r.registerAll engines).map (map f) := by
  induction engines generalizing r with
  | nil => rfl
  | cons entry engines ih =>
      rw [List.map_cons, registerAll_cons, registerAll_cons, register_map]
      cases r.register entry.1 entry.2 with
      | error fault => rfl
      | ok next => exact ih next

/-- Engines that are all registered are the entries of the registry, in order. -/
theorem entries_registerAll {r after : Registry α} {engines : List (EngineNames × α)}
    (h : r.registerAll engines = .ok after) : after.entries = r.entries ++ engines := by
  induction engines generalizing r with
  | nil =>
      cases h
      rw [List.append_nil]
  | cons entry engines ih =>
      rw [registerAll_cons] at h
      cases hnext : r.register entry.1 entry.2 with
      | error fault =>
          rw [hnext] at h
          cases h
      | ok next =>
          rw [hnext] at h
          have hentries : next.entries = r.entries ++ [entry] := by
            rw [register] at hnext
            split at hnext
            · cases hnext
            · cases hnext
              rfl
          rw [ih h, hentries, List.append_assoc, List.singleton_append]

end Registry

/-- A service of engines is made of their registry and its world. -/
theorem Service.ofEngines_eq (world : World) (engines : List (EngineNames × Engine)) :
    Service.ofEngines world engines =
      (Registry.empty.registerAll engines).map fun registry => ⟨registry, world⟩ := by
  show ((Registry.empty.registerAll engines).bind fun registry => .ok (Service.mk registry world)) = _
  cases Registry.empty.registerAll engines <;> rfl

/-- A service of engines has them all as its entries, and the world it was given. -/
theorem Service.ofEngines_ok {world : World} {engines : List (EngineNames × Engine)} {s : Service}
    (h : Service.ofEngines world engines = .ok s) :
    s.registry.entries = engines ∧ s.world = world := by
  rw [Service.ofEngines_eq] at h
  cases hregistry : Registry.empty.registerAll engines with
  | error fault =>
      rw [hregistry] at h
      cases h
  | ok registry =>
      rw [hregistry] at h
      cases h
      exact ⟨Registry.entries_registerAll hregistry, rfl⟩

/-- A service of engines that are made from something is made from the registry of that. -/
theorem Service.ofEngines_map {α : Type} (world : World) (f : α → Engine)
    (engines : List (EngineNames × α)) :
    Service.ofEngines world (engines.map fun entry => (entry.1, f entry.2)) =
      (Registry.empty.registerAll engines).map fun registry => ⟨registry.map f, world⟩ := by
  rw [Service.ofEngines_eq, show (Registry.empty : Registry Engine) = Registry.empty.map f from rfl,
    Registry.registerAll_map]
  cases Registry.empty.registerAll engines <;> rfl

end ScriptHost
