import Mathlib.Data.List.Induction
import Mathlib.Data.List.Nodup

/-!
# Repeated elements

Where names have to be distinct, the one that is refused is the first that repeats an earlier one.
-/

namespace ScriptHost

variable {α β : Type} {l : List α} {a b : α}

/-- `IsFirstRepeat l a` says that of the elements of `l` the first that repeats an earlier one is
`a`. -/
def IsFirstRepeat (l : List α) (a : α) : Prop :=
  ∃ before after, l = before ++ a :: after ∧ before.Nodup ∧ a ∈ before

/-- A list whose elements are not distinct has a first repeat. -/
theorem exists_isFirstRepeat (h : ¬ l.Nodup) : ∃ a, IsFirstRepeat l a := by
  induction l using List.reverseRecOn with
  | nil => exact absurd List.nodup_nil h
  | append_singleton l b ih =>
      by_cases hl : l.Nodup
      · have hb : b ∈ l := by
          by_contra hb
          exact h (List.nodup_append'.mpr
            ⟨hl, List.nodup_singleton b, List.disjoint_singleton.mpr hb⟩)
        exact ⟨b, l, [], rfl, hl, hb⟩
      · obtain ⟨a, before, after, rfl, hbefore, ha⟩ := ih hl
        exact ⟨a, before, after ++ [b], by simp, hbefore, ha⟩

theorem IsFirstRepeat.map {f : α → β} (hf : Function.Injective f) (h : IsFirstRepeat l a) :
    IsFirstRepeat (l.map f) (f a) := by
  obtain ⟨before, after, rfl, hbefore, ha⟩ := h
  exact ⟨before.map f, after.map f, by simp, hbefore.map hf, List.mem_map_of_mem ha⟩

/-- What is the first repeat among values belongs to an element whose value an earlier element has. -/
theorem IsFirstRepeat.exists_of_map {f : α → β} {b : β} (h : IsFirstRepeat (l.map f) b) :
    ∃ before a after, l = before ++ a :: after ∧ (before.map f).Nodup ∧ f a ∈ before.map f ∧
      f a = b := by
  obtain ⟨values, rest, hsplit, hvalues, hb⟩ := h
  obtain ⟨before, later, rfl, rfl, hlater⟩ := List.map_eq_append_iff.mp hsplit
  obtain ⟨a, after, rfl, rfl, -⟩ := List.map_eq_cons_iff.mp hlater
  exact ⟨before, a, after, rfl, hvalues, hb, rfl⟩

/-- Another element in front is no repeat. -/
theorem IsFirstRepeat.cons (h : IsFirstRepeat l a) (hb : b ∉ l) : IsFirstRepeat (b :: l) a := by
  obtain ⟨before, after, rfl, hbefore, ha⟩ := h
  have hb' : b ∉ before := fun hmem => hb (List.mem_append_left _ hmem)
  exact ⟨b :: before, after, rfl, List.nodup_cons.mpr ⟨hb', hbefore⟩, List.mem_cons_of_mem b ha⟩

end ScriptHost
