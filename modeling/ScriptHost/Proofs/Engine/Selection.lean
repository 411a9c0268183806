import ScriptHost.Proofs.Engine.Namespace
import ScriptHost.Proofs.Engine.Registry
import ScriptHost.Proofs.Repeats
import ScriptHost.Service.Build

/-!
# The engines that settings select

Settings list the types of the engines of a service. All of them are looked up before any is
registered, so a type that there is none of is refused before a type that is listed twice. No two of
the engines there are have a token in common (`EngineNames.eq_of_token`), so nothing else is refused.
`Service.ofSettings_selects` says what becomes of every list.
-/

namespace ScriptHost

namespace EngineNames

/-- The names of the engines there are. -/
def builtIn : List EngineNames :=
  [⟨"java", "Java"⟩, ⟨"groovy", "Groovy"⟩, ⟨"js", "JavaScript"⟩,
    ⟨"js-debug", "JavaScript (debug)"⟩, ⟨"command", "Command"⟩, ⟨"job", "Job"⟩]

/-- The types of the engines there are. -/
def types : List String :=
  builtIn.map (·.type)

/-- An engine can be told by any of its tokens. -/
theorem eq_of_token :
    ∀ names ∈ builtIn, ∀ other ∈ builtIn, ∀ token ∈ names.tokens, token ∈ other.tokens →
      names = other := by
  decide +kernel

end EngineNames

/-! ## Looking up engines -/

namespace Settings

variable {settings : Settings} {vars : Variables} {type : String} {types : List String}

/-- The engine of a type has the names that belong to the type. -/
theorem names_of_engine? {entry : EngineNames × Engine}
    (h : settings.engine? vars type = some entry) :
    entry.1 ∈ EngineNames.builtIn ∧ entry.1.type = type := by
  unfold engine? at h
  split at h
  all_goals cases h
  all_goals exact ⟨by simp [EngineNames.builtIn], rfl⟩

/-- There is an engine for each type, and none for anything else. -/
theorem engine?_eq_none_iff : settings.engine? vars type = none ↔ type ∉ EngineNames.types := by
  constructor
  · intro hnone hmem
    have hsome : ∀ known ∈ EngineNames.types, settings.engine? vars known ≠ none := by
      simp [EngineNames.types, EngineNames.builtIn, engine?]
    exact hsome type hmem hnone
  · intro hmem
    cases h : settings.engine? vars type with
    | none => rfl
    | some entry =>
        obtain ⟨hnames, htype⟩ := names_of_engine? h
        exact absurd (htype ▸ List.mem_map_of_mem hnames) hmem

/-- There is an engine for each of the types there are. -/
theorem exists_engine? (h : type ∈ EngineNames.types) :
    ∃ entry, settings.engine? vars type = some entry :=
  Option.ne_none_iff_exists'.mp fun hnone => engine?_eq_none_iff.mp hnone h

/-- The first type without an engine is what is wrong with a list of types. -/
theorem mapM_engine_of_unknown
    (h : types.find? (fun type => type ∉ EngineNames.types) = some type) :
    types.mapM (settings.engine vars) = .error (.unknownEngine type) := by
  induction types with
  | nil => cases h
  | cons first types ih =>
      rw [List.find?_cons] at h
      rw [List.mapM_cons]
      by_cases hfirst : first ∈ EngineNames.types
      · obtain ⟨entry, hentry⟩ := exists_engine? hfirst
        rw [engine, hentry, ih (by simpa [hfirst] using h)]
        rfl
      · obtain rfl : first = type := by simpa [hfirst] using h
        rw [engine, engine?_eq_none_iff.mpr hfirst]
        rfl

/-- Types that all have engines give those engines, in their order. -/
theorem mapM_engine_of_known (h : ∀ type ∈ types, type ∈ EngineNames.types) :
    ∃ engines, types.mapM (settings.engine vars) = .ok engines ∧
      engines.map (·.1.type) = types ∧
      ∀ entry ∈ engines, settings.engine? vars entry.1.type = some entry := by
  induction types with
  | nil => exact ⟨[], rfl, rfl, by simp⟩
  | cons first types ih =>
      obtain ⟨hfirst, hrest⟩ := List.forall_mem_cons.mp h
      obtain ⟨engines, hengines, htypes, hall⟩ := ih hrest
      obtain ⟨entry, hentry⟩ := exists_engine? hfirst
      have htype := (names_of_engine? hentry).2
      refine ⟨entry :: engines, ?_, by rw [List.map_cons, htypes, htype], ?_⟩
      · rw [List.mapM_cons, engine, hentry, hengines]
        rfl
      · exact List.forall_mem_cons.mpr ⟨by rw [htype, hentry], hall⟩

end Settings

/-! ## Registering engines -/

namespace Registry

variable {α : Type} {r : Registry α} {registered engines : List (EngineNames × α)} {type : String}

/-- Engines that have no token in common, neither with each other nor with those that are registered
already, are all registered. -/
theorem Serves.registerAll (h : r.Serves registered)
    (hdisjoint : (registered ++ engines).Pairwise fun a b => a.1.tokens.Disjoint b.1.tokens) :
    ∃ after, r.registerAll engines = .ok after ∧ after.Serves (registered ++ engines) := by
  induction engines generalizing r registered with
  | nil => exact ⟨r, rfl, by rwa [List.append_nil]⟩
  | cons entry engines ih =>
      have hfree : ∀ token ∈ entry.1.tokens, ¬ Taken registered token := by
        intro token htoken ⟨other, hother, hold⟩
        exact (List.pairwise_append.mp hdisjoint).2.2 other hother entry List.mem_cons_self hold htoken
      obtain ⟨next, hnext, hserves⟩ := h.register_of_free
        (hfree _ (EngineNames.mem_tokens.mpr (.inl rfl)))
        (hfree _ (EngineNames.mem_tokens.mpr (.inr rfl))) entry.2
      rw [List.append_cons] at hdisjoint ⊢
      obtain ⟨after, hafter, hall⟩ := ih hserves hdisjoint
      refine ⟨after, ?_, hall⟩
      rw [registerAll_cons, hnext]
      exact hafter

/-- Engines of different types have no token in common. -/
theorem disjoint_of_types (hnames : ∀ entry ∈ engines, entry.1 ∈ EngineNames.builtIn)
    (htypes : (engines.map (·.1.type)).Nodup) :
    engines.Pairwise fun a b => a.1.tokens.Disjoint b.1.tokens := by
  refine (List.pairwise_map.mp htypes).imp_of_mem ?_
  intro a b ha hb hne token htoken hother
  exact hne (congrArg _ (EngineNames.eq_of_token _ (hnames a ha) _ (hnames b hb) token htoken hother))

/-- Engines of different types are all registered. -/
theorem registerAll_of_nodup (hnames : ∀ entry ∈ engines, entry.1 ∈ EngineNames.builtIn)
    (htypes : (engines.map (·.1.type)).Nodup) :
    ∃ after, (empty : Registry α).registerAll engines = .ok after ∧ after.Serves engines :=
  serves_empty.registerAll (disjoint_of_types hnames htypes)

/-- The first engine that has the type of an earlier one is refused. -/
theorem registerAll_of_repeat (hnames : ∀ entry ∈ engines, entry.1 ∈ EngineNames.builtIn)
    (h : IsFirstRepeat (engines.map (·.1.type)) type) :
    (empty : Registry α).registerAll engines = .error (.duplicateEngine type) := by
  obtain ⟨earlier, entry, later, rfl, hearlier, htype, rfl⟩ := h.exists_of_map
  obtain ⟨next, hnext, hserves⟩ := registerAll_of_nodup
    (fun other hother => hnames other (List.mem_append_left _ hother)) hearlier
  obtain ⟨other, hother, hsame⟩ := List.mem_map.mp htype
  have htaken : Taken earlier entry.1.type :=
    ⟨other, hother, EngineNames.mem_tokens.mpr (.inl hsame.symm)⟩
  rw [registerAll_append, hnext]
  show next.registerAll (entry :: later) = _
  rw [registerAll_cons, hserves.register_of_type htaken]
  rfl

end Registry

/-! ## Building services -/

namespace Service

variable {settings : Settings} {host : Host} {storage : Storage} {tree : FileTree}

/-- Once the settings are checked and the storage is open, what is left can fail by the engines
only. -/
theorem ofSettings_eq (hchecked : settings.checked = .ok settings)
    (hopened : Storage.ofSettings host.view.tree host.view.cwd settings.storageOrDefault =
      (.ok storage, tree)) :
    (ofSettings settings host).mapError Prod.fst =
      ofStorage settings (host.withTree tree) storage := by
  rw [ofSettings, hchecked]
  simp only [hopened]
  cases ofStorage settings (host.withTree tree) storage <;> rfl

/-- If all the types that are listed have engines, what is left can fail by registering these only. -/
theorem ofStorage_of_known (host : Host) (storage : Storage)
    (h : ∀ type ∈ settings.enginesOrDefault.enabled, type ∈ EngineNames.types) :
    ∃ engines world, engines.map (·.1.type) = settings.enginesOrDefault.enabled ∧
      (∀ entry ∈ engines, entry.1 ∈ EngineNames.builtIn ∧
        settings.engine? host.environment entry.1.type = some entry) ∧
      ofStorage settings host storage =
        (Registry.empty.registerAll engines).map fun registry => ⟨registry, world⟩ := by
  obtain ⟨engines, hengines, htypes, hall⟩ := Settings.mapM_engine_of_known h
  let store := ResourceStore.directory settings.locationsOrDefault.resourceRootOrDefault
  refine ⟨engines, .new host store storage, htypes,
    fun entry hentry => ⟨(Settings.names_of_engine? (hall entry hentry)).1, hall entry hentry⟩, ?_⟩
  rw [ofStorage, hengines]
  exact ofEngines_eq _ _

/-- A service has exactly the engines that its settings list, in the order of the list, and tells them
apart by their types and aliases. If the list has something that is not the type of an engine, be it
an alias, the first such entry is refused, whatever else is listed twice. If all entries are types,
the first that repeats an earlier one is refused. -/
theorem ofSettings_selects (hchecked : settings.checked = .ok settings)
    (hopened : Storage.ofSettings host.view.tree host.view.cwd settings.storageOrDefault =
      (.ok storage, tree)) :
    let enabled := settings.enginesOrDefault.enabled
    let built := (ofSettings settings host).mapError Prod.fst
    (∀ type, enabled.find? (fun type => type ∉ EngineNames.types) = some type →
      built = .error (.unknownEngine type)) ∧
    ((∀ type ∈ enabled, type ∈ EngineNames.types) → ¬ enabled.Nodup →
      ∃ type, IsFirstRepeat enabled type ∧ built = .error (.duplicateEngine type)) ∧
    ((∀ type ∈ enabled, type ∈ EngineNames.types) → enabled.Nodup →
      ∃ s, built = .ok s ∧
        s.engines.map (·.type) = enabled ∧
        (∀ names ∈ s.engines, names ∈ EngineNames.builtIn ∧ ∃ engine,
          settings.engine? host.environment names.type = some (names, engine) ∧
          ∀ token ∈ [names.type, names.aliasName], s.registry.lookup token = .ok (names, engine)) ∧
        ∀ token, (∀ names ∈ s.engines, token ∉ [names.type, names.aliasName]) →
          s.registry.lookup token = .error (.unknownEngine token)) := by
  intro enabled built
  have hbuilt : built = ofStorage settings (host.withTree tree) storage :=
    ofSettings_eq hchecked hopened
  have hfound (hknown : ∀ type ∈ enabled, type ∈ EngineNames.types) :
      ∃ engines world, engines.map (·.1.type) = enabled ∧
        (∀ entry ∈ engines, entry.1 ∈ EngineNames.builtIn ∧
          settings.engine? host.environment entry.1.type = some entry) ∧
        built = (Registry.empty.registerAll engines).map fun registry => ⟨registry, world⟩ :=
    hbuilt ▸ ofStorage_of_known (host.withTree tree) storage hknown
  refine ⟨fun type htype => ?_, fun hknown hrepeated => ?_, fun hknown hdistinct => ?_⟩
  · rw [hbuilt, ofStorage, Settings.mapM_engine_of_unknown htype]
    rfl
  · obtain ⟨engines, world, htypes, hall, hregister⟩ := hfound hknown
    obtain ⟨type, htype⟩ := exists_isFirstRepeat hrepeated
    refine ⟨type, htype, ?_⟩
    rw [← htypes] at htype
    rw [hregister, Registry.registerAll_of_repeat (fun entry h => (hall entry h).1) htype]
    rfl
  · obtain ⟨engines, world, htypes, hall, hregister⟩ := hfound hknown
    rw [← htypes] at hdistinct
    obtain ⟨registry, hregistry, hserves⟩ :=
      Registry.registerAll_of_nodup (fun entry h => (hall entry h).1) hdistinct
    have hengines : (Service.mk registry world).engines = engines.map (·.1) :=
      congrArg (List.map _) hserves.entries
    refine ⟨⟨registry, world⟩, by rw [hregister, hregistry]; rfl, ?_, ?_, ?_⟩
    · rw [hengines, List.map_map]
      exact htypes
    · intro names hmem
      rw [hengines] at hmem
      obtain ⟨entry, hentry, rfl⟩ := List.mem_map.mp hmem
      refine ⟨(hall entry hentry).1, entry.2, (hall entry hentry).2, fun token htoken => ?_⟩
      exact hserves.lookup_eq_ok_iff.mpr
        ⟨hentry, EngineNames.mem_tokens.mpr (List.mem_pair.mp htoken)⟩
    · intro token hfree
      rw [hengines] at hfree
      refine hserves.lookup_eq_error fun ⟨entry, hentry, htoken⟩ => ?_
      exact hfree entry.1 (List.mem_map_of_mem hentry)
        (List.mem_pair.mpr (EngineNames.mem_tokens.mp htoken))

/-- Settings that list engines and leave out everything else. -/
def listingEngines (enabled : List String) : Settings :=
  { Settings.empty with engines := some { EngineSettings.default with enabled } }

/-- A host without files and without variables. -/
def voidHost : Host :=
  ⟨⟨.empty, []⟩, .empty, 0, 0⟩

/-- An alias is refused before a type that is listed twice. -/
theorem ofSettings_selects_listed :
    (ofSettings (listingEngines ["js", "js", "Java"]) voidHost).mapError Prod.fst =
      .error (.unknownEngine "Java") ∧
    (∃ type, IsFirstRepeat ["js", "job", "js"] type ∧
      (ofSettings (listingEngines ["js", "job", "js"]) voidHost).mapError Prod.fst =
        .error (.duplicateEngine type)) ∧
    ∃ s, (ofSettings (listingEngines ["job", "js"]) voidHost).mapError Prod.fst = .ok s ∧
      s.engines.map (·.type) = ["job", "js"] := by
  have hopened (enabled : List String) : Storage.ofSettings voidHost.view.tree voidHost.view.cwd
      (listingEngines enabled).storageOrDefault =
        (.ok (Storage.inMemory.withMaxSize maxStoredBytes), voidHost.view.tree) := rfl
  refine ⟨(ofSettings_selects rfl (hopened ["js", "js", "Java"])).1 "Java" (by decide),
    (ofSettings_selects rfl (hopened ["js", "job", "js"])).2.1 (by decide) (by decide), ?_⟩
  obtain ⟨s, hs, htypes, -, -⟩ :=
    (ofSettings_selects rfl (hopened ["job", "js"])).2.2 (by decide) (by decide)
  exact ⟨s, hs, htypes⟩

end Service

end ScriptHost
