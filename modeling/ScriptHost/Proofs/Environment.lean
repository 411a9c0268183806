import ScriptHost.Environment

/-!
# Overlaid variables

What a name stands for after other variables were laid over some variables: `getElem?_overlaidBy`.
-/

namespace ScriptHost.Variables

/-- Inserting pairs with different names: a name stands for its value in the pairs, or else for what
it stood for before. -/
theorem getElem?_foldl_insert {pairs : List (String × String)}
    (h : pairs.Pairwise fun a b => ¬ compare a.1 b.1 = .eq) (vars : Variables) (name : String) :
    (pairs.foldl (fun (vars : Variables) pair => vars.insert pair.1 pair.2) vars)[name]? =
      ((pairs.find? (compare ·.1 name == .eq)).map (·.2)).or vars[name]? := by
  induction pairs generalizing vars with
  | nil => rfl
  | cons pair pairs ih =>
      obtain ⟨hfirst, hrest⟩ := List.pairwise_cons.mp h
      rw [List.foldl_cons, ih hrest, Std.TreeMap.getElem?_insert]
      by_cases hname : compare pair.1 name = .eq
      · have hnone : pairs.find? (compare ·.1 name == .eq) = none := by
          rw [List.find?_eq_none]
          intro other hother heq
          have hsame : pair.1 = other.1 :=
            (Std.LawfulEqCmp.eq_of_compare hname).trans
              (Std.LawfulEqCmp.eq_of_compare (beq_iff_eq.mp heq)).symm
          exact hfirst other hother (hsame ▸ Std.ReflCmp.compare_self)
        rw [hnone, if_pos hname, List.find?_cons_of_pos (by rwa [beq_iff_eq])]
        rfl
      · rw [if_neg hname, List.find?_cons_of_neg (by rwa [beq_iff_eq])]

/-- What a name stands for in overlaid variables: what the upper ones say, or else what the lower
ones say. -/
theorem getElem?_overlaidBy (vars top : Variables) (name : String) :
    (vars.overlaidBy top)[name]? = top[name]?.or vars[name]? := by
  rw [overlaidBy, Std.TreeMap.foldl_eq_foldl_toList,
    getElem?_foldl_insert Std.TreeMap.distinct_keys_toList]
  cases hfound : top.toList.find? (compare ·.1 name == .eq) with
  | none =>
      rw [Std.TreeMap.find?_toList_eq_none_iff_contains_eq_false] at hfound
      rw [Std.TreeMap.getElem?_eq_none_of_contains_eq_false hfound]
      rfl
  | some pair =>
      obtain ⟨_, hvalue⟩ :=
        Std.TreeMap.find?_toList_eq_some_iff_getKey?_eq_some_and_getElem?_eq_some.mp hfound
      rw [hvalue]
      rfl

end ScriptHost.Variables
