import Mathlib.Data.List.TakeDrop
import Mathlib.Data.List.TakeWhile
import ScriptHost.Proofs.Environment

/-!
# Blocks of variables

What the entries of a block stand for. An entry is read as a name without equals sign and a value
(`EnvironmentBlock.entryParts?_eq_some_iff`), whatever variable it was written for. A name therefore
has the value of its variable in a block and no other, unless the name of another variable goes on
after it with an equals sign: `Variables.valuesOf_block`.
-/

namespace ScriptHost

namespace EnvironmentBlock

variable {entry name value : String}

/-- An entry is read as a name and a value if it consists of the two, with an equals sign between
them that is the first one. -/
theorem entryParts?_eq_some_iff :
    entryParts? entry = some (name, value) ↔
      '=' ∉ name.toList ∧ entry = name ++ "=" ++ value := by
  constructor
  · intro h
    rw [entryParts?, List.span_eq_takeWhile_dropWhile] at h
    have hjoin := List.takeWhile_append_dropWhile (p := (· != '=')) (l := entry.toList)
    have hfree : '=' ∉ entry.toList.takeWhile (· != '=') := fun hmem =>
      absurd (List.mem_takeWhile_imp hmem) (by decide)
    cases hrest : entry.toList.dropWhile (· != '=') with
    | nil => simp [hrest] at h
    | cons c rest =>
        have hc : c = '=' := by
          have hhead := List.head?_dropWhile_not (· != '=') entry.toList
          simpa [hrest] using hhead
        rw [hrest, hc] at hjoin
        simp only [hrest, Option.some.injEq, Prod.mk.injEq] at h
        obtain ⟨rfl, rfl⟩ := h
        generalize entry.toList.takeWhile (· != '=') = start at hjoin hfree
        exact ⟨by rwa [String.toList_ofList], String.toList_injective (by simp [← hjoin])⟩
  · rintro ⟨hfree, rfl⟩
    have hall : ∀ c ∈ name.toList, (c != '=') = true := fun c hc =>
      bne_iff_ne.mpr fun heq => hfree (heq ▸ hc)
    have htake : (name ++ "=" ++ value).toList.takeWhile (· != '=') = name.toList := by
      simp [List.takeWhile_append_of_pos hall]
    have hdrop : (name ++ "=" ++ value).toList.dropWhile (· != '=') = '=' :: value.toList := by
      simp [List.dropWhile_append_of_pos hall]
    rw [entryParts?, List.span_eq_takeWhile_dropWhile, htake, hdrop]
    simp

/-- The entry of a variable is read as the name of another variable only if that is followed by an
equals sign in the name it was written for. -/
theorem eq_of_entryParts? {written x : String} (hname : written ≠ name)
    (h : entryParts? (written ++ "=" ++ x) = some (name, value)) :
    ∃ rest, written = name ++ "=" ++ rest := by
  obtain ⟨hfree, hentry⟩ := entryParts?_eq_some_iff.mp h
  have hchars : written.toList ++ '=' :: x.toList = name.toList ++ '=' :: value.toList := by
    simpa using congrArg String.toList hentry
  rcases List.append_eq_append_iff.mp hchars with ⟨more, hlonger, hrest⟩ | ⟨more, hlonger, hrest⟩
  · -- a longer name would have the equals sign after what was written
    cases more with
    | nil => exact absurd (String.toList_injective (by simpa using hlonger.symm)) hname
    | cons c more =>
        obtain ⟨rfl, -⟩ := List.cons.inj hrest
        exact absurd (by simp [hlonger]) hfree
  · cases more with
    | nil => exact absurd (String.toList_injective (by simpa using hlonger)) hname
    | cons c more =>
        obtain ⟨rfl, -⟩ := List.cons.inj hrest
        exact ⟨.ofList more, String.toList_injective (by simp [hlonger])⟩

/-- A block that is written from some pairs has for a name the values of the pairs with that name,
if the name of no pair goes on after it with an equals sign. -/
theorem valuesOf_map {pairs : List (String × String)} (hname : '=' ∉ name.toList)
    (hpairs : ∀ pair ∈ pairs, ∀ rest, pair.1 ≠ name ++ "=" ++ rest) :
    valuesOf (pairs.map fun pair => pair.1 ++ "=" ++ pair.2) name =
      (pairs.filter (·.1 == name)).map (·.2) := by
  induction pairs with
  | nil => rfl
  | cons pair rest ih =>
      have hrest := ih fun other hother => hpairs other (List.mem_cons_of_mem _ hother)
      rw [valuesOf, pairs] at hrest ⊢
      rw [List.map_cons, List.filterMap_cons]
      by_cases hsame : pair.1 = name
      · have hparts : entryParts? (pair.1 ++ "=" ++ pair.2) = some (name, pair.2) :=
          entryParts?_eq_some_iff.mpr ⟨hname, by rw [hsame]⟩
        have hown : (pair.1 == name) = true := beq_iff_eq.mpr hsame
        simp only [hparts, List.filter_cons, hown, beq_self_eq_true, if_true, List.map_cons, hrest]
      · have hother : (pair.1 == name) = false := beq_eq_false_iff_ne.mpr hsame
        rw [List.filter_cons, hother, if_neg Bool.false_ne_true, ← hrest]
        cases hparts : entryParts? (pair.1 ++ "=" ++ pair.2) with
        | none => rfl
        | some parts =>
            obtain ⟨read, value⟩ := parts
            have hread : (read == name) = false := beq_eq_false_iff_ne.mpr fun heq => by
              obtain ⟨more, hmore⟩ := eq_of_entryParts? hsame (heq ▸ hparts)
              exact hpairs pair List.mem_cons_self more hmore
            simp only [List.filter_cons, hread, Bool.false_eq_true, if_false]

end EnvironmentBlock

namespace Variables

/-- The values of the variables of a name are the value that it stands for, if there is one. -/
theorem filter_toList (vars : Variables) (name : String) :
    (vars.toList.filter (·.1 == name)).map (·.2) = vars[name]?.toList := by
  cases hvalue : vars[name]? with
  | none =>
      have hnone : vars.toList.filter (·.1 == name) = [] := by
        rw [List.filter_eq_nil_iff]
        rintro ⟨other, value⟩ hpair hsame
        obtain rfl : other = name := beq_iff_eq.mp hsame
        rw [Std.TreeMap.mem_toList_iff_getElem?_eq_some, hvalue] at hpair
        cases hpair
      rw [hnone]
      rfl
  | some value =>
      have hdistinct := Std.TreeMap.distinct_keys_toList (t := vars)
      obtain ⟨before, after, hsplit⟩ :=
        List.append_of_mem (Std.TreeMap.mem_toList_iff_getElem?_eq_some.mpr hvalue)
      rw [hsplit, List.pairwise_append, List.pairwise_cons] at hdistinct
      obtain ⟨-, ⟨hafter, -⟩, hbefore⟩ := hdistinct
      have hnone : before.filter (·.1 == name) = [] ∧ after.filter (·.1 == name) = [] := by
        constructor <;> rw [List.filter_eq_nil_iff] <;> intro other hother hsame
        · refine hbefore other hother (name, value) List.mem_cons_self ?_
          rw [beq_iff_eq.mp hsame, Std.compare_eq_iff_eq]
        · refine hafter other hother ?_
          rw [beq_iff_eq.mp hsame, Std.compare_eq_iff_eq]
      rw [hsplit, List.filter_append, List.filter_cons, hnone.1, hnone.2, beq_self_eq_true]
      rfl

/-- In the block of variables a name has the value of its variable, if there is one, and no other
value, as long as the name of no variable goes on after it with an equals sign. -/
theorem valuesOf_block {vars : Variables} {name : String} (hname : '=' ∉ name.toList)
    (hvars : ∀ rest, vars[name ++ "=" ++ rest]? = none) :
    vars.block.valuesOf name = vars[name]?.toList := by
  refine (EnvironmentBlock.valuesOf_map hname ?_).trans (vars.filter_toList name)
  rintro ⟨other, value⟩ hpair rest rfl
  rw [Std.TreeMap.mem_toList_iff_getElem?_eq_some, hvars] at hpair
  cases hpair

end Variables

end ScriptHost
