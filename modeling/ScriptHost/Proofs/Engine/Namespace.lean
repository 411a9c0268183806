import Mathlib.Data.List.Basic
import ScriptHost.Engine.Call

/-!
# The namespace of a registry

Types and aliases lead to engines through one index. `Registry.Serves` says that the index of a
registry leads every token of its engines to the engine it names, and no other token anywhere, so
that no two engines have a token in common. Every call keeps this, also one that fails:
`Serves.call`. `Registry.calls_namespace` says what follows for a registry that is filled by any
calls.
-/

namespace ScriptHost

namespace EngineNames

variable {names : EngineNames} {token : String}

@[simp] theorem mem_tokens : token ∈ names.tokens ↔ token = names.type ∨ token = names.aliasName := by
  rw [tokens]
  split
  · rename_i heq
    simp [heq]
  · simp

/-- The first of the tokens with some property: the type, or else the alias. -/
theorem find?_tokens (p : String → Bool) (names : EngineNames) :
    names.tokens.find? p =
      if p names.type then some names.type
      else if p names.aliasName then some names.aliasName else none := by
  rw [tokens]
  split
  · rename_i heq
    cases htype : p names.type <;> simp [heq, htype]
  · cases htype : p names.type <;> cases halias : p names.aliasName <;> simp [htype, halias]

end EngineNames

namespace Registry

variable {α : Type} {r after : Registry α} {engines : List (EngineNames × α)} {names : EngineNames}
  {engine : α} {token : String}

/-! ## Registering in place -/

theorem run_requireFree (tokens : List String) (r : Registry α) :
    (requireFree tokens).run.run r =
      (match tokens.find? r.contains with
        | some token => .error (.duplicateEngine token)
        | none => .ok (), r) := by
  induction tokens with
  | nil => rfl
  | cons token tokens ih =>
      show ((if r.contains token then throw (.duplicateEngine token) else pure () :
        ExceptT Error (StateM (Registry α)) Unit) >>= fun _ => requireFree tokens).run.run r = _
      rw [List.find?_cons]
      cases r.contains token with
      | true => rfl
      | false => exact ih

theorem run_takeAll (tokens : List String) (place : Nat) (r : Registry α) :
    (takeAll tokens place).run.run r =
      (.ok (), tokens.foldl (fun r token => r.take token place) r) := by
  induction tokens generalizing r with
  | nil => rfl
  | cons token tokens ih => exact ih (r.take token place)

/-- Taking tokens changes the index only. -/
theorem foldl_take (tokens : List String) (place : Nat) (r : Registry α) :
    tokens.foldl (fun r token => r.take token place) r =
      ⟨r.entries, tokens.foldl (fun index token => index.insert token place) r.index⟩ := by
  induction tokens generalizing r with
  | nil => rfl
  | cons token tokens ih => exact ih (r.take token place)

/-- A registration that fails leaves the registry as it was: nothing is taken before everything has
been checked. -/
theorem run_registerInPlace (names : EngineNames) (engine : α) (r : Registry α) :
    (registerInPlace names engine).run.run r =
      match r.register names engine with
      | .ok after => (.ok (), after)
      | .error fault => (.error fault, r) := by
  have hfree := run_requireFree names.tokens r
  rw [registerInPlace, ExceptT.run_bind, StateT.run_bind, hfree, register]
  cases names.tokens.find? r.contains with
  | some token => rfl
  | none =>
      have htake := run_takeAll names.tokens r.size r
      rw [foldl_take] at htake
      show ((takeAll names.tokens r.size >>= fun _ => modify fun r : Registry α =>
        { r with entries := r.entries ++ [(names, engine)] }).run.run r) = _
      rw [ExceptT.run_bind, StateT.run_bind, htake]
      rfl

/-- What a call to register an engine does. -/
theorem call_register (r : Registry α) (names : EngineNames) (engine : α) :
    r.call (.register names engine) =
      match r.register names engine with
      | .ok after => (.registered (.ok ()), after)
      | .error fault => (.registered (.error fault), r) := by
  rw [call, run_registerInPlace]
  cases r.register names engine <;> rfl

/-! ## Engines and their tokens -/

/-- Whether a token belongs to one of some engines. -/
def Taken (engines : List (EngineNames × α)) (token : String) : Prop :=
  ∃ entry ∈ engines, token ∈ entry.1.tokens

/-- A registry of some engines. No two of them have a token in common, and a token leads to a place
exactly if the engine there has it. -/
structure Serves (r : Registry α) (engines : List (EngineNames × α)) : Prop where
  entries : r.entries = engines
  disjoint : engines.Pairwise fun a b => a.1.tokens.Disjoint b.1.tokens
  index : ∀ token place, r.index[token]? = some place ↔
    ∃ entry : EngineNames × α, engines[place]? = some entry ∧ token ∈ entry.1.tokens

theorem serves_empty : (empty : Registry α).Serves [] where
  entries := rfl
  disjoint := .nil
  index token place := by simp [empty]

/-- A token leads to a place in the list of engines. -/
theorem Serves.place_lt (h : r.Serves engines) {place : Nat} (hplace : r.index[token]? = some place) :
    place < engines.length := by
  obtain ⟨entry, hentry, -⟩ := (h.index token place).mp hplace
  exact (List.getElem?_eq_some_iff.mp hentry).1

theorem Serves.contains_iff (h : r.Serves engines) : r.contains token = true ↔ Taken engines token := by
  rw [contains, Std.TreeMap.contains_eq_isSome_getElem?, Option.isSome_iff_exists]
  constructor
  · rintro ⟨place, hplace⟩
    obtain ⟨entry, hentry, htoken⟩ := (h.index token place).mp hplace
    exact ⟨entry, List.mem_of_getElem? hentry, htoken⟩
  · rintro ⟨entry, hentry, htoken⟩
    obtain ⟨place, hplace⟩ := List.mem_iff_getElem?.mp hentry
    exact ⟨place, (h.index token place).mpr ⟨entry, hplace, htoken⟩⟩

/-- A token finds the engine that has it. -/
theorem Serves.lookup_eq_ok_iff (h : r.Serves engines) {entry : EngineNames × α} :
    r.lookup token = .ok entry ↔ entry ∈ engines ∧ token ∈ entry.1.tokens := by
  have hfound : r.index[token]?.bind (r.entries[·]?) = some entry ↔
      entry ∈ engines ∧ token ∈ entry.1.tokens := by
    rw [Option.bind_eq_some_iff, h.entries]
    constructor
    · rintro ⟨place, hplace, hentry⟩
      obtain ⟨other, hother, htoken⟩ := (h.index token place).mp hplace
      obtain rfl := Option.some.inj (hother.symm.trans hentry)
      exact ⟨List.mem_of_getElem? hentry, htoken⟩
    · rintro ⟨hentry, htoken⟩
      obtain ⟨place, hplace⟩ := List.mem_iff_getElem?.mp hentry
      exact ⟨place, (h.index token place).mpr ⟨entry, hplace, htoken⟩, hplace⟩
  rw [← hfound, lookup]
  cases r.index[token]?.bind (r.entries[·]?) <;> simp

/-- A token that no engine has finds none. -/
theorem Serves.lookup_eq_error (h : r.Serves engines) (hfree : ¬ Taken engines token) :
    r.lookup token = .error (.unknownEngine token) := by
  have hcontains : r.index.contains token = false := by
    rw [← Bool.not_eq_true]
    exact fun hcontains => hfree (h.contains_iff.mp hcontains)
  rw [lookup, Std.TreeMap.getElem?_eq_none_of_contains_eq_false hcontains]
  rfl

/-- Inserting some tokens with the same place. -/
theorem getElem?_foldl_place (tokens : List String) (place : Nat) (index : Std.TreeMap String Nat)
    (token : String) :
    (tokens.foldl (fun index token => index.insert token place) index)[token]? =
      if token ∈ tokens then some place else index[token]? := by
  induction tokens generalizing index with
  | nil => simp
  | cons first tokens ih =>
      rw [List.foldl_cons, ih, Std.TreeMap.getElem?_insert]
      simp only [Std.compare_eq_iff_eq, List.mem_cons, eq_comm (a := first)]
      by_cases htokens : token ∈ tokens <;> simp [htokens]

/-- What registering comes to: the type is checked before the alias. -/
theorem register_eq (r : Registry α) (names : EngineNames) (engine : α) :
    r.register names engine =
      if r.contains names.type then .error (.duplicateEngine names.type)
      else if r.contains names.aliasName then .error (.duplicateEngine names.aliasName)
      else .ok ⟨r.entries ++ [(names, engine)],
        names.tokens.foldl (fun index token => index.insert token r.entries.length) r.index⟩ := by
  rw [register, EngineNames.find?_tokens]
  cases r.contains names.type <;> cases r.contains names.aliasName <;> rfl

theorem Serves.register_of_type (h : r.Serves engines) (htype : Taken engines names.type)
    (engine : α) : r.register names engine = .error (.duplicateEngine names.type) := by
  rw [register_eq, if_pos (h.contains_iff.mpr htype)]

theorem Serves.register_of_alias (h : r.Serves engines) (htype : ¬ Taken engines names.type)
    (halias : Taken engines names.aliasName) (engine : α) :
    r.register names engine = .error (.duplicateEngine names.aliasName) := by
  rw [register_eq, if_neg (mt h.contains_iff.mp htype), if_pos (h.contains_iff.mpr halias)]

/-- An engine of which no token is taken becomes the last one. -/
theorem Serves.register_of_free (h : r.Serves engines) (htype : ¬ Taken engines names.type)
    (halias : ¬ Taken engines names.aliasName) (engine : α) :
    ∃ after, r.register names engine = .ok after ∧ after.Serves (engines ++ [(names, engine)]) := by
  have hfree : ∀ entry ∈ engines, ∀ token ∈ names.tokens, token ∉ entry.1.tokens := by
    intro entry hentry token htoken hother
    rcases EngineNames.mem_tokens.mp htoken with rfl | rfl
    · exact htype ⟨entry, hentry, hother⟩
    · exact halias ⟨entry, hentry, hother⟩
  rw [register_eq, if_neg (mt h.contains_iff.mp htype), if_neg (mt h.contains_iff.mp halias),
    h.entries]
  refine ⟨_, rfl, rfl, ?_, fun token place => ?_⟩
  · rw [List.pairwise_append]
    refine ⟨h.disjoint, List.pairwise_singleton _ _, fun entry hentry other hother => ?_⟩
    obtain rfl := List.mem_singleton.mp hother
    exact fun token htoken hnew => hfree entry hentry token hnew htoken
  · -- the new tokens lead to the end of the list, and all others where they led before
    rw [getElem?_foldl_place]
    have hold := h.index token place
    have hlt : r.index[token]? = some place → place < engines.length := h.place_lt
    rcases Nat.lt_trichotomy place engines.length with hplace | rfl | hplace
    · rw [List.getElem?_append_left hplace]
      split
      · rename_i htoken
        refine iff_of_false (by simp only [Option.some.injEq]; omega) ?_
        rintro ⟨entry, hentry, hother⟩
        exact hfree entry (List.mem_of_getElem? hentry) token htoken hother
      · exact hold
    · rw [List.getElem?_concat_length]
      split
      · rename_i htoken
        exact iff_of_true rfl ⟨_, rfl, htoken⟩
      · rename_i htoken
        refine iff_of_false (fun hindex => Nat.lt_irrefl _ (hlt hindex)) ?_
        rintro ⟨entry, hentry, hnew⟩
        obtain rfl := Option.some.inj hentry
        exact htoken hnew
    · have hend : (engines ++ [(names, engine)])[place]? = none :=
        List.getElem?_eq_none (by rw [List.length_append, List.length_singleton]; omega)
      refine iff_of_false (fun hindex => ?_) (by simp [hend])
      split at hindex
      · rw [Option.some.injEq] at hindex
        omega
      · exact absurd (hlt hindex) (by omega)

/-! ## Sequences of calls -/

/-- The engines whose registration has succeeded, first to last. -/
def accepted : List (RegistryCall α) → List (RegistryReply α) → List (EngineNames × α)
  | .register names engine :: cs, .registered (.ok ()) :: replies =>
    (names, engine) :: accepted cs replies
  | _ :: cs, _ :: replies => accepted cs replies
  | _, _ => []

/-- A call adds the engine whose registration succeeds, and nothing else. -/
theorem Serves.call (h : r.Serves engines) (c : RegistryCall α) :
    (r.call c).2.Serves (engines ++ accepted [c] [(r.call c).1]) := by
  cases c with
  | register names engine =>
      by_cases htype : Taken engines names.type
      · rw [call_register, h.register_of_type htype]
        simpa [accepted] using h
      · by_cases halias : Taken engines names.aliasName
        · rw [call_register, h.register_of_alias htype halias]
          simpa [accepted] using h
        · obtain ⟨after, hafter, hserves⟩ := h.register_of_free htype halias engine
          rw [call_register, hafter]
          exact hserves
  | lookup | contains | names => simpa [Registry.call, accepted] using h

theorem accepted_cons (c : RegistryCall α) (cs : List (RegistryCall α)) (reply : RegistryReply α)
    (replies : List (RegistryReply α)) :
    accepted (c :: cs) (reply :: replies) = accepted [c] [reply] ++ accepted cs replies := by
  cases c <;> cases reply <;> try rfl
  rename_i result
  cases result <;> rfl

theorem Serves.calls (h : r.Serves engines) (cs : List (RegistryCall α)) :
    (r.calls cs).2.Serves (engines ++ accepted cs (r.calls cs).1) := by
  induction cs generalizing r engines with
  | nil => simpa [Registry.calls, accepted] using h
  | cons c cs ih =>
      have hrest := ih (h.call c)
      rwa [List.append_assoc, ← accepted_cons] at hrest

/-- A registry that is filled by any calls, some of which may fail, has the engines that it has
accepted, in their order, and no two of these have a token in common. A token finds the engine that
has it, and none if no engine has it. Another engine is refused exactly if its type or its alias is
taken. The error names the type if that is taken, and otherwise the alias; and all that the registry
is asked later is answered as if the refused engine had not been offered. -/
theorem calls_namespace (cs : List (RegistryCall α)) :
    let r := ((empty : Registry α).calls cs).2
    let engines := accepted cs ((empty : Registry α).calls cs).1
    engines.Pairwise (fun a b => a.1.tokens.Disjoint b.1.tokens) ∧
    r.names = engines.map (·.1) ∧
    (∀ (token : String) (place : Nat), r.index[token]? = some place → place < r.entries.length) ∧
    (∀ token entry, r.lookup token = .ok entry ↔ entry ∈ engines ∧ token ∈ entry.1.tokens) ∧
    (∀ token, r.contains token = true ↔ Taken engines token) ∧
    (∀ token, ¬ Taken engines token → r.lookup token = .error (.unknownEngine token)) ∧
    ∀ names engine,
      (¬ Taken engines names.type → ¬ Taken engines names.aliasName →
        (r.call (.register names engine)).1 = .registered (.ok ())) ∧
      (Taken engines names.type ∨ Taken engines names.aliasName → ∃ token,
        (Taken engines names.type → token = names.type) ∧
        (¬ Taken engines names.type → token = names.aliasName) ∧
        ∀ later, r.calls (.register names engine :: later) =
          (.registered (.error (.duplicateEngine token)) :: (r.calls later).1, (r.calls later).2)) := by
  intro r engines
  have h : r.Serves engines := by simpa using serves_empty.calls cs
  refine ⟨h.disjoint, by rw [names, h.entries], fun token place hplace => ?_,
    fun _ _ => h.lookup_eq_ok_iff, fun _ => h.contains_iff, fun _ => h.lookup_eq_error,
    fun names engine => ⟨fun htype halias => ?_, fun htaken => ?_⟩⟩
  · rw [h.entries]
    exact h.place_lt hplace
  · obtain ⟨after, hafter, -⟩ := h.register_of_free htype halias engine
    rw [call_register, hafter]
  · by_cases htype : Taken engines names.type
    · refine ⟨names.type, fun _ => rfl, fun hfree => absurd htype hfree, fun later => ?_⟩
      rw [calls, call_register, h.register_of_type htype]
    · have halias := htaken.resolve_left htype
      refine ⟨names.aliasName, fun htype' => absurd htype' htype, fun _ => rfl, fun later => ?_⟩
      rw [calls, call_register, h.register_of_alias htype halias]

end Registry

end ScriptHost
