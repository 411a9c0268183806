import Mathlib.Data.List.Infix
import ScriptHost.Text.Replace

/-!
# Substituting several texts at once

`substituted` replaces several markers in one pass: what stands in the text is either part of a
marker, and then its value is put in, or it stays. Replacing the markers one after the other, with
`replaceAll`, is the same only if no marker arises from what was put in. `Apart` is what a value has
to meet so that none does, whatever stands around it; `replaceAll_substituted` is the step for one
more marker.
-/

namespace ScriptHost.Text

/-- Whether a text starts with a marker. The empty marker starts none. -/
def startsWithMarker (text : List Char) (entry : List Char × List Char) : Bool :=
  entry.1 ≠ [] && entry.1.isPrefixOf text

/-- A text with every marker in it replaced by its value, all at once and from the left. Where
several markers start, the first of the list is meant. -/
def substituted (entries : List (List Char × List Char)) : List Char → List Char
  | [] => []
  | c :: rest =>
    match entries.find? (startsWithMarker (c :: rest)) with
    | some (marker, value) => value ++ substituted entries (rest.drop (marker.length - 1))
    | none => c :: substituted entries rest
termination_by text => text.length
decreasing_by
  · rw [List.length_drop, List.length_cons]
    omega
  · exact Nat.lt_succ_self _

/-- No marker begins in a text, whatever comes after the text. -/
structure Passes (marker text : List Char) : Prop where
  not_inside : ¬ marker <:+: text
  not_at_end : ∀ part, part ≠ [] → part <:+ text → ¬ part <+: marker

/-- A value and a marker have nothing in common: wherever the value stands, no character of it
belongs to that marker. -/
structure Apart (marker value : List Char) : Prop extends Passes marker value where
  not_around : ¬ value <:+: marker
  not_at_start : ∀ part, part ≠ [] → part <+: value → ¬ part <:+ marker

instance (marker text : List Char) : Decidable (Passes marker text) :=
  decidable_of_iff
    (¬ marker <:+: text ∧ ∀ part ∈ text.tails, part ≠ [] → ¬ part <+: marker)
    ⟨fun h => ⟨h.1, fun part hne hpart => h.2 part ((List.mem_tails ..).mpr hpart) hne⟩,
      fun h => ⟨h.1, fun part hpart hne => h.2 part hne ((List.mem_tails ..).mp hpart)⟩⟩

variable {entries : List (List Char × List Char)} {marker value text rest : List Char} {c : Char}

/-! ## Markers at the start of a text -/

theorem startsWithMarker_iff {entry : List Char × List Char} :
    startsWithMarker text entry = true ↔ entry.1 ≠ [] ∧ entry.1 <+: text := by
  simp [startsWithMarker]

theorem find?_singleton_marker (hne : marker ≠ []) (h : marker <+: text) (value : List Char) :
    [(marker, value)].find? (startsWithMarker text) = some (marker, value) := by
  have hstart : startsWithMarker text (marker, value) = true := startsWithMarker_iff.mpr ⟨hne, h⟩
  rw [List.find?_singleton, if_pos hstart]

/-- Where no marker starts, a character stays. -/
theorem substituted_cons
    (h : ∀ entry ∈ entries, startsWithMarker (c :: rest) entry = false) :
    substituted entries (c :: rest) = c :: substituted entries rest := by
  rw [substituted, List.find?_eq_none.mpr (by simpa using h)]

/-- Where a marker starts, its value is put in. -/
theorem substituted_marker (hne : marker ≠ [])
    (h : entries.find? (startsWithMarker (marker ++ rest)) = some (marker, value)) :
    substituted entries (marker ++ rest) = value ++ substituted entries rest := by
  obtain ⟨c, tail, rfl⟩ := List.exists_cons_of_ne_nil hne
  rw [List.cons_append] at h ⊢
  rw [substituted, h]
  simp

/-- Replacing one text is substituting one marker. -/
theorem replaceAll_eq_substituted (old new text : List Char) :
    replaceAll old new text = substituted [(old, new)] text := by
  fun_induction replaceAll old new text with
  | case1 => rw [substituted]
  | case2 c rest h ih =>
      rw [substituted, find?_singleton_marker h.1 (List.isPrefixOf_iff_prefix.mp h.2), ih]
  | case3 c rest h ih =>
      have hnone : ∀ entry ∈ [(old, new)], startsWithMarker (c :: rest) entry = false := by
        intro entry hentry
        rw [List.mem_singleton.mp hentry, Bool.eq_false_iff, ne_eq, startsWithMarker_iff,
          ← List.isPrefixOf_iff_prefix]
        exact h
      rw [substituted_cons hnone, ih]

/-! ## Texts in which no marker begins -/

/-- A text in which no marker begins stays. -/
theorem substituted_append (h : ∀ entry ∈ entries, Passes entry.1 text) (rest : List Char) :
    substituted entries (text ++ rest) = text ++ substituted entries rest := by
  induction text with
  | nil => rfl
  | cons c text ih =>
      have hnone : ∀ entry ∈ entries, startsWithMarker (c :: (text ++ rest)) entry = false := by
        intro entry hentry
        rw [Bool.eq_false_iff, ne_eq, startsWithMarker_iff]
        rintro ⟨-, hbegin⟩
        obtain ⟨hinside, hend⟩ := h entry hentry
        rcases List.prefix_or_prefix_of_prefix hbegin (List.prefix_append (c :: text) rest)
          with hshort | hlong
        · exact hinside hshort.isInfix
        · exact hend _ (List.cons_ne_nil c text) List.suffix_rfl hlong
      have htail : ∀ entry ∈ entries, Passes entry.1 text := fun entry hentry =>
        { not_inside := fun hmem => (h entry hentry).not_inside (List.infix_cons hmem)
          not_at_end := fun part hne hpart =>
            (h entry hentry).not_at_end part hne (hpart.trans (List.suffix_cons c text)) }
      rw [List.cons_append, substituted_cons hnone, ih htail, List.cons_append]

/-- The end of a marker that starts a text after the substitution has started it before, where the
values are apart from the marker. -/
theorem prefix_of_prefix_substituted (h : ∀ entry ∈ entries, Apart marker entry.2)
    {part : List Char} (hpart : part <:+ marker) (hbegin : part <+: substituted entries text) :
    part <+: text := by
  fun_induction substituted entries text generalizing part with
  | case1 => exact hbegin
  | case2 c rest found value hfind ih =>
      have hvalue : Apart marker value := h _ (List.mem_of_find?_eq_some hfind)
      rcases List.prefix_or_prefix_of_prefix hbegin (List.prefix_append value _)
        with hshort | hlong
      · by_cases hne : part = []
        · rw [hne]
          exact List.nil_prefix
        · exact absurd hpart (hvalue.not_at_start part hne hshort)
      · exact absurd (hlong.isInfix.trans hpart.isInfix) hvalue.not_around
  | case3 c rest hnone ih =>
      rcases List.prefix_cons_iff.mp hbegin with rfl | ⟨tail, rfl, htail⟩
      · exact List.nil_prefix
      · exact (List.cons_prefix_cons.mpr ⟨rfl, ih ((List.suffix_cons c tail).trans hpart) htail⟩)

/-- Replacing one text leaves a text alone in which it does not begin. -/
theorem replaceAll_append (h : Passes marker text) (value rest : List Char) :
    replaceAll marker value (text ++ rest) = text ++ replaceAll marker value rest := by
  rw [replaceAll_eq_substituted, replaceAll_eq_substituted, substituted_append (by simpa using h)]

/-- The text to be replaced is replaced at the start. -/
theorem replaceAll_marker (hne : marker ≠ []) (value rest : List Char) :
    replaceAll marker value (marker ++ rest) = value ++ replaceAll marker value rest := by
  rw [replaceAll_eq_substituted, replaceAll_eq_substituted,
    substituted_marker hne (find?_singleton_marker hne (List.prefix_append ..) value)]

/-! ## One more marker -/

/-- Replacing a marker after a substitution is substituting it at once, too, where no value has
anything in common with the marker and none of the other markers begins in it. -/
theorem replaceAll_substituted (hne : marker ≠ [])
    (hvalues : ∀ entry ∈ entries, Apart marker entry.2)
    (hmarkers : ∀ entry ∈ entries, Passes entry.1 marker) (value text : List Char) :
    replaceAll marker value (substituted entries text) =
      substituted (entries ++ [(marker, value)]) text := by
  fun_induction substituted (entries ++ [(marker, value)]) text with
  | case1 => rw [substituted, replaceAll]
  | case2 c rest found put hfind ih =>
      rw [List.find?_append] at hfind
      cases hfirst : entries.find? (startsWithMarker (c :: rest)) with
      | some entry =>
          rw [hfirst, Option.some_or, Option.some.injEq] at hfind
          subst hfind
          have hput := (hvalues _ (List.mem_of_find?_eq_some hfirst)).toPasses
          rw [substituted, hfirst, replaceAll_append hput, ih]
      | none =>
          rw [hfirst, Option.none_or, List.find?_singleton] at hfind
          split at hfind
          · rename_i hstart
            cases hfind
            obtain ⟨-, tail, htail⟩ := startsWithMarker_iff.mp hstart
            have hdrop : rest.drop (marker.length - 1) = tail := by
              obtain ⟨d, more, rfl⟩ := List.exists_cons_of_ne_nil hne
              obtain ⟨-, rfl⟩ := List.cons.inj htail
              simp
            rw [hdrop] at ih ⊢
            rw [← htail, substituted_append hmarkers, replaceAll_marker hne, ih]
          · cases hfind
  | case3 c rest hnone ih =>
      rw [List.find?_eq_none] at hnone
      have hkeep : ∀ entry ∈ entries, startsWithMarker (c :: rest) entry = false :=
        fun entry hentry => by simpa using hnone entry (List.mem_append_left _ hentry)
      have hlast : ¬ marker <+: c :: rest := fun hbegin =>
        hnone (marker, value) (by simp) (startsWithMarker_iff.mpr ⟨hne, hbegin⟩)
      have hkeepLast : ¬ (marker ≠ [] ∧ marker.isPrefixOf (c :: substituted entries rest)) := by
        rintro ⟨-, hbegin⟩
        rw [List.isPrefixOf_iff_prefix, ← substituted_cons hkeep] at hbegin
        exact hlast (prefix_of_prefix_substituted hvalues List.suffix_rfl hbegin)
      rw [substituted_cons hkeep, replaceAll, if_neg hkeepLast, ih]

/-! ## Texts without braces -/

/-- A marker does not begin in a text without its first character. -/
theorem passes_of_not_mem (h : c ∉ text) (name : List Char) : Passes (c :: name) text where
  not_inside := fun hinside => h (hinside.subset List.mem_cons_self)
  not_at_end := by
    intro part hne hpart hbegin
    rcases List.prefix_cons_iff.mp hbegin with rfl | ⟨tail, rfl, -⟩
    · exact hne rfl
    · exact h (hpart.subset List.mem_cons_self)

/-- A text without braces, of which some character is not in a marker, is apart from the marker, if
that has its braces at its ends only. -/
theorem apart_of_no_brace (name : List Char) (hvalue : '\x7b' ∉ value ∧ '\x7d' ∉ value)
    (hname : ∃ c ∈ value, c ∉ name) : Apart ('\x7b' :: (name ++ ['\x7d'])) value := by
  obtain ⟨hopen, hclose⟩ := hvalue
  obtain ⟨other, hother, hforeign⟩ := hname
  refine ⟨passes_of_not_mem hopen _, fun h => ?_, fun part hne hpart hsuffix => ?_⟩
  · have hmem := h.subset hother
    rw [List.mem_cons, List.mem_append, List.mem_singleton] at hmem
    rcases hmem with rfl | hmem | rfl
    · exact hopen hother
    · exact hforeign hmem
    · exact hclose hother
  · -- what ends the marker ends with its closing brace
    rw [← List.cons_append] at hsuffix
    rcases List.suffix_concat_iff.mp hsuffix with rfl | ⟨front, rfl, -⟩
    · exact hne rfl
    · exact hclose (hpart.subset (by simp))

end ScriptHost.Text
