import ScriptHost.Proofs.Environment
import ScriptHost.Proofs.Text.ByteOrder
import ScriptHost.Request

/-!
# Which variables count

The variables that a process is given are put together from what the host hands down, the
environment and parameters of the request, and the changes that the definition of a command asks
for. `Request.Finds` is the law that says, name by name, which of them counts, and
`Request.getElem?_eq_iff_finds` says that the variables are what the law says. The names of
parameters need care: two keys may share a variable, and the variable of a parameter may be one that
the request sets itself.
-/

namespace ScriptHost

/-! ## Patches -/

namespace Variables

/-- Removed names stand for nothing, all others for what they stood for before. -/
theorem getElem?_foldl_erase (names : List String) (vars : Variables) (name : String) :
    (names.foldl (fun (vars : Variables) unset => vars.erase unset) vars)[name]? =
      if name ∈ names then none else vars[name]? := by
  induction names generalizing vars with
  | nil => simp
  | cons unset names ih =>
      rw [List.foldl_cons, ih, Std.TreeMap.getElem?_erase]
      by_cases hname : unset = name
      · simp [hname]
      · have hcompare : ¬ compare unset name = .eq :=
          fun h => hname (Std.LawfulEqCmp.eq_of_compare h)
        have hmem : name ∈ unset :: names ↔ name ∈ names := by
          simp [Ne.symm hname]
        simp only [hcompare, hmem, if_false]

end Variables

namespace EnvironmentPatch

/-- What a name stands for after a patch. -/
theorem getElem?_apply (patch : EnvironmentPatch) (inherited : Variables) (name : String) :
    (patch.apply inherited)[name]? =
      if name ∈ patch.unset then .none else patch.set[name]?.or inherited[name]? := by
  rw [apply, Variables.getElem?_foldl_erase, Variables.getElem?_overlaidBy]

/-- What a name stands for after a patch that is layered over some variables. -/
theorem getElem?_apply_layeredOver (patch : EnvironmentPatch) (vars inherited : Variables)
    (name : String) :
    ((patch.layeredOver vars).apply inherited)[name]? =
      if name ∈ patch.unset then .none
      else (patch.set[name]?.or vars[name]?).or inherited[name]? := by
  rw [getElem?_apply, layeredOver, Variables.getElem?_overlaidBy]

end EnvironmentPatch

/-! ## Variables of parameters -/

namespace Variables

/-- Inserting pairs under other names leaves alone every name that none of them gets. -/
theorem getElem?_foldl_insert_of_forall_ne (rename : String → String) {name : String}
    {pairs : List (String × String)} (h : ∀ pair ∈ pairs, rename pair.1 ≠ name)
    (vars : Variables) :
    (pairs.foldl (fun (vars : Variables) pair => vars.insert (rename pair.1) pair.2) vars)[name]? =
      vars[name]? := by
  induction pairs generalizing vars with
  | nil => rfl
  | cons pair pairs ih =>
      have hcompare : ¬ compare (rename pair.1) name = .eq :=
        fun heq => h pair List.mem_cons_self (Std.LawfulEqCmp.eq_of_compare heq)
      rw [List.foldl_cons, ih fun other hother => h other (List.mem_cons_of_mem _ hother),
        Std.TreeMap.getElem?_insert, if_neg hcompare]

/-- Of the pairs inserted under one name the last one counts. -/
theorem getElem?_foldl_insert_last (rename : String → String) {name : String}
    (before after : List (String × String)) (pair : String × String)
    (hpair : rename pair.1 = name) (hafter : ∀ other ∈ after, rename other.1 ≠ name)
    (vars : Variables) :
    ((before ++ pair :: after).foldl
        (fun (vars : Variables) pair => vars.insert (rename pair.1) pair.2) vars)[name]? =
      some pair.2 := by
  have hcompare : compare (rename pair.1) name = .eq := hpair ▸ Std.ReflCmp.compare_self
  rw [List.foldl_append, List.foldl_cons, getElem?_foldl_insert_of_forall_ne rename hafter,
    Std.TreeMap.getElem?_insert, if_pos hcompare]

/-- If some of the keys of variables get a name, then one of them is the last one. -/
theorem exists_last (vars : Variables) (rename : String → String) {key name : String}
    (hkey : key ∈ vars) (hname : rename key = name) :
    ∃ last before after, vars.toList = before ++ last :: after ∧ rename last.1 = name ∧
      ∀ other ∈ after, rename other.1 ≠ name := by
  have hmem : (key, vars[key]) ∈ vars.toList :=
    Std.TreeMap.mem_toList_iff_getElem?_eq_some.mpr (Std.TreeMap.getElem?_eq_some_getElem hkey)
  cases hfind : vars.toList.reverse.find? (rename ·.1 == name) with
  | none =>
      have hnone := List.find?_eq_none.mp hfind _ (List.mem_reverse.mpr hmem)
      exact absurd (beq_iff_eq.mpr hname) hnone
  | some last =>
      obtain ⟨hlast, after, before, hsplit, hafter⟩ := List.find?_eq_some_iff_append.mp hfind
      refine ⟨last, before.reverse, after.reverse, ?_, beq_iff_eq.mp hlast, ?_⟩
      · rw [← List.reverse_reverse vars.toList, hsplit]
        simp
      · intro other hother
        have hne := hafter other (List.mem_reverse.mp hother)
        rwa [Bool.not_eq_true', beq_eq_false_iff_ne] at hne

end Variables

namespace Request

/-- A parameter whose variable has a name, and whose key has the greatest bytes among the keys of
all such parameters. -/
structure Exports (r : Request) (key name value : String) : Prop where
  param : r.params[key]? = some value
  variable_eq : paramVariable key = name
  greatest : ∀ other ∈ r.params, paramVariable other = name → Text.bytes other ≤ Text.bytes key

variable {r : Request} {patch : EnvironmentPatch} {inherited : Variables}
  {key name value : String}

/-- The keys of two parameters in the order in which the parameters are exported. -/
theorem key_lt_of_split {before after : List (String × String)} {pair later : String × String}
    (hsplit : r.params.toList = before ++ pair :: after) (hlater : later ∈ after) :
    pair.1 < later.1 := by
  have hordered := Std.TreeMap.ordered_keys_toList (t := r.params)
  rw [hsplit, List.pairwise_append, List.pairwise_cons] at hordered
  exact compareOfLessAndEq_eq_lt.mp (hordered.2.1.1 later hlater)

/-- Where some parameter has a variable, one of them is exported under it. -/
theorem exists_exports (hkey : key ∈ r.params) (hname : paramVariable key = name) :
    ∃ last value, r.Exports last name value := by
  obtain ⟨last, before, after, hsplit, hlast, hafter⟩ :=
    Variables.exists_last r.params paramVariable hkey hname
  have hmem : (last.1, last.2) ∈ r.params.toList := by simp [hsplit]
  refine ⟨last.1, last.2, Std.TreeMap.mem_toList_iff_getElem?_eq_some.mp hmem, hlast, ?_⟩
  intro other hother hsame hlt
  have hfound : (other, r.params[other]) ∈ r.params.toList :=
    Std.TreeMap.mem_toList_iff_getElem?_eq_some.mpr (Std.TreeMap.getElem?_eq_some_getElem hother)
  rw [hsplit, List.mem_append, List.mem_cons] at hfound
  rcases hfound with hbefore | rfl | hlater
  · obtain ⟨start, rest, rfl⟩ := List.append_of_mem hbefore
    rw [List.append_assoc, List.cons_append] at hsplit
    have hsmaller : other < last.1 := key_lt_of_split hsplit (by simp)
    exact List.lt_asymm (Text.bytes_lt_of_lt hsmaller) hlt
  · exact List.lt_irrefl _ hlt
  · exact hafter _ hlater hsame

/-- A process finds a parameter under the name it is exported under. -/
theorem Exports.processVariables (h : r.Exports key name value) :
    r.processVariables[name]? = some value := by
  obtain ⟨hparam, hvariable, hgreatest⟩ := h
  obtain ⟨before, after, hsplit⟩ :=
    List.append_of_mem (Std.TreeMap.mem_toList_iff_getElem?_eq_some.mpr hparam)
  have hafter : ∀ other ∈ after, paramVariable other.1 ≠ name := by
    intro other hother hsame
    have hmem : (other.1, other.2) ∈ r.params.toList := by simp [hsplit, hother]
    rw [Std.TreeMap.mem_toList_iff_getElem?_eq_some] at hmem
    have hlt : Text.bytes key < Text.bytes other.1 :=
      Text.bytes_lt_of_lt (key_lt_of_split hsplit hother)
    have hle : Text.bytes other.1 ≤ Text.bytes key :=
      hgreatest other.1 (Std.TreeMap.mem_iff_isSome_getElem?.mpr (by simp [hmem])) hsame
    exact List.not_lt.mpr hle hlt
  rw [Request.processVariables, Std.TreeMap.foldl_eq_foldl_toList, hsplit]
  exact Variables.getElem?_foldl_insert_last paramVariable before after (key, value) hvariable
    hafter ((r.environment.insert pathVariable r.path).insert idVariable r.id)

/-- Under a name that no parameter has, a process finds the id, the path, or a variable of the
request. -/
theorem processVariables_of_forall_ne (h : ∀ key ∈ r.params, paramVariable key ≠ name) :
    r.processVariables[name]? =
      if name = idVariable then some r.id
      else if name = pathVariable then some r.path else r.environment[name]? := by
  have hpairs : ∀ pair ∈ r.params.toList, paramVariable pair.1 ≠ name := by
    intro pair hpair
    have hparam := Std.TreeMap.mem_toList_iff_getElem?_eq_some.mp
      (show (pair.1, pair.2) ∈ r.params.toList from hpair)
    exact h pair.1 (Std.TreeMap.mem_iff_isSome_getElem?.mpr (by simp [hparam]))
  rw [Request.processVariables, Std.TreeMap.foldl_eq_foldl_toList,
    Variables.getElem?_foldl_insert_of_forall_ne paramVariable hpairs,
    Std.TreeMap.getElem?_insert, Std.TreeMap.getElem?_insert]
  simp only [Std.compare_eq_iff_eq, eq_comm (b := name)]

/-! ## The law -/

/-- `Finds r patch inherited name value` is the law of what stands under a name in the environment
of a process: `none` where the name is unset, or else what the patch sets, or else the parameter
that is exported under the name, or else path or id of the request, or else what the environment of
the request has, or else what is inherited. -/
inductive Finds (r : Request) (patch : EnvironmentPatch) (inherited : Variables) (name : String) :
    Option String → Prop where
  | unset : name ∈ patch.unset → Finds r patch inherited name none
  | set (value : String) :
      name ∉ patch.unset → patch.set[name]? = some value →
      Finds r patch inherited name (some value)
  | param (key value : String) :
      name ∉ patch.unset → name ∉ patch.set → r.Exports key name value →
      Finds r patch inherited name (some value)
  | path :
      name ∉ patch.unset → name ∉ patch.set → (∀ key ∈ r.params, paramVariable key ≠ name) →
      name = pathVariable → Finds r patch inherited name (some r.path)
  | id :
      name ∉ patch.unset → name ∉ patch.set → (∀ key ∈ r.params, paramVariable key ≠ name) →
      name = idVariable → Finds r patch inherited name (some r.id)
  | own (value : String) :
      name ∉ patch.unset → name ∉ patch.set → (∀ key ∈ r.params, paramVariable key ≠ name) →
      name ≠ pathVariable → name ≠ idVariable → r.environment[name]? = some value →
      Finds r patch inherited name (some value)
  | inherited :
      name ∉ patch.unset → name ∉ patch.set → (∀ key ∈ r.params, paramVariable key ≠ name) →
      name ≠ pathVariable → name ≠ idVariable → name ∉ r.environment →
      Finds r patch inherited name inherited[name]?

/-- The variable of a parameter is neither that of the path nor that of the id. -/
theorem paramVariable_ne (key : String) :
    paramVariable key ≠ pathVariable ∧ paramVariable key ≠ idVariable := by
  -- Both names differ from the start of a parameter's variable in a character of that start.
  have hstart : (paramVariable key).toList.take 10 = "SCRIPTOR_P".toList ∧
      (paramVariable key).toList[10]? = some 'A' ∧ (paramVariable key).toList[11]? = some 'R' := by
    simp [paramVariable, paramVariableStart]
  constructor
  · intro h
    rw [h] at hstart
    exact absurd hstart (by decide)
  · intro h
    rw [h] at hstart
    exact absurd hstart (by decide)

/-- The variable of a parameter has no equals sign. -/
theorem equals_notMem_paramVariable (key : String) : '=' ∉ (paramVariable key).toList := by
  have hchar : ∀ c, sanitizeChar c ≠ '=' := by
    intro c hc
    rw [sanitizeChar] at hc
    split at hc
    · rename_i hallowed
      rw [hc] at hallowed
      exact absurd hallowed (by decide)
    · exact absurd hc (by decide)
  simp only [paramVariable, paramVariableStart, String.toList_append, String.toList_ofList,
    List.mem_append, List.mem_map, not_or, not_exists, not_and]
  exact ⟨by decide, fun c _ => hchar c⟩

/-- Names that a patch says nothing about stand for what the request says, or else for what is
inherited. -/
theorem getElem?_of_untouched (hunset : name ∉ patch.unset) (hset : name ∉ patch.set) :
    ((patch.layeredOver r.processVariables).apply inherited)[name]? =
      r.processVariables[name]?.or inherited[name]? := by
  rw [EnvironmentPatch.getElem?_apply_layeredOver, if_neg hunset,
    Std.TreeMap.getElem?_eq_none hset, Option.none_or]

/-- What the law says is what stands in the environment. -/
theorem Finds.getElem?_eq {value : Option String} (h : r.Finds patch inherited name value) :
    ((patch.layeredOver r.processVariables).apply inherited)[name]? = value := by
  cases h with
  | unset hunset => rw [EnvironmentPatch.getElem?_apply_layeredOver, if_pos hunset]
  | set value hunset hset =>
      rw [EnvironmentPatch.getElem?_apply_layeredOver, if_neg hunset, hset]
      rfl
  | param key value hunset hset hexports =>
      rw [getElem?_of_untouched hunset hset, hexports.processVariables]
      rfl
  | path hunset hset hparams hname =>
      subst hname
      rw [getElem?_of_untouched hunset hset, processVariables_of_forall_ne hparams,
        if_neg (by decide), if_pos rfl]
      rfl
  | id hunset hset hparams hname =>
      subst hname
      rw [getElem?_of_untouched hunset hset, processVariables_of_forall_ne hparams, if_pos rfl]
      rfl
  | own value hunset hset hparams hpath hid hown =>
      rw [getElem?_of_untouched hunset hset, processVariables_of_forall_ne hparams, if_neg hid,
        if_neg hpath, hown]
      rfl
  | inherited hunset hset hparams hpath hid hown =>
      rw [getElem?_of_untouched hunset hset, processVariables_of_forall_ne hparams, if_neg hid,
        if_neg hpath, Std.TreeMap.getElem?_eq_none hown]
      rfl

/-- The law says something about every name. -/
theorem exists_finds (r : Request) (patch : EnvironmentPatch) (inherited : Variables)
    (name : String) : ∃ value, r.Finds patch inherited name value := by
  by_cases hunset : name ∈ patch.unset
  · exact ⟨_, .unset hunset⟩
  by_cases hset : name ∈ patch.set
  · exact ⟨_, .set _ hunset (Std.TreeMap.getElem?_eq_some_getElem hset)⟩
  by_cases hsome : ∃ key ∈ r.params, paramVariable key = name
  · obtain ⟨key, hkey, hname⟩ := hsome
    obtain ⟨last, value, hexports⟩ := exists_exports hkey hname
    exact ⟨_, .param last value hunset hset hexports⟩
  have hparams : ∀ key ∈ r.params, paramVariable key ≠ name :=
    fun key hkey hname => hsome ⟨key, hkey, hname⟩
  by_cases hpath : name = pathVariable
  · exact ⟨_, .path hunset hset hparams hpath⟩
  by_cases hid : name = idVariable
  · exact ⟨_, .id hunset hset hparams hid⟩
  by_cases hown : name ∈ r.environment
  · exact ⟨_, .own _ hunset hset hparams hpath hid (Std.TreeMap.getElem?_eq_some_getElem hown)⟩
  · exact ⟨_, .inherited hunset hset hparams hpath hid hown⟩

/-- The environment holds under a name what the law says, and nothing else. -/
theorem getElem?_eq_iff_finds {value : Option String} :
    ((patch.layeredOver r.processVariables).apply inherited)[name]? = value ↔
      r.Finds patch inherited name value := by
  constructor
  · rintro rfl
    obtain ⟨value, hfinds⟩ := exists_finds r patch inherited name
    rwa [hfinds.getElem?_eq]
  · exact Finds.getElem?_eq

/-- Parameters alter neither the variable of the path nor that of the id. -/
theorem finds_params_iff {value : Option String} (params : Variables)
    (hname : name = pathVariable ∨ name = idVariable) :
    { r with params }.Finds patch inherited name value ↔ r.Finds patch inherited name value := by
  have hne : ∀ key, paramVariable key ≠ name := by
    intro key
    rcases hname with rfl | rfl
    · exact (paramVariable_ne key).1
    · exact (paramVariable_ne key).2
  rw [← getElem?_eq_iff_finds, ← getElem?_eq_iff_finds,
    EnvironmentPatch.getElem?_apply_layeredOver, EnvironmentPatch.getElem?_apply_layeredOver,
    processVariables_of_forall_ne fun key _ => hne key,
    processVariables_of_forall_ne fun key _ => hne key]

/-- Where no given name has an equals sign, the law leaves no variable whose name has one. -/
theorem finds_none_of_mem (hname : '=' ∈ name.toList)
    (hset : ∀ other ∈ patch.set, '=' ∉ other.toList)
    (hown : ∀ other ∈ r.environment, '=' ∉ other.toList)
    (hinherited : ∀ other ∈ inherited, '=' ∉ other.toList) :
    r.Finds patch inherited name none := by
  by_cases hunset : name ∈ patch.unset
  · exact .unset hunset
  have hparams : ∀ key ∈ r.params, paramVariable key ≠ name := by
    rintro key - rfl
    exact equals_notMem_paramVariable key hname
  have hnone : inherited[name]? = none :=
    Std.TreeMap.getElem?_eq_none fun hmem => hinherited name hmem hname
  have hnamed : name ≠ pathVariable ∧ name ≠ idVariable := by
    constructor <;> rintro rfl <;> exact absurd hname (by decide)
  rw [← hnone]
  exact .inherited hunset (fun hmem => hset name hmem hname) hparams hnamed.1 hnamed.2
    fun hmem => hown name hmem hname

/-- Three keys that share a variable, of which the one with the greatest bytes counts. -/
example :
    let r : Request := ⟨"command", "/job", .ofPairs [("a_b", "3"), ("a-b", "1"), ("A b", "0")],
      .empty, none, nilId, 0⟩
    r.processVariables["SCRIPTOR_PARAM_A_B"]? = some "3" := by
  decide +kernel

end Request

end ScriptHost
