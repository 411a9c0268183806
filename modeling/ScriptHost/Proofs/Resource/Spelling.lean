import ScriptHost.Resource.Path

/-!
# Spellings of resource paths

A path has one normal spelling, and it can be read back: `ofText?_text`. Between normal spellings
the test of a listing, on characters, is the one on segments: `join_append_iff` says what is left of
a spelling after another one.
-/

namespace ScriptHost.ResourcePath

/-- The parts of a text around a separator are those before it and those after it. -/
theorem partsFrom_append (current before after : List Char) {c : Char} (hc : isSeparator c = true) :
    partsFrom current (before ++ c :: after) = partsFrom current before ++ partsFrom [] after := by
  induction before generalizing current with
  | nil => simp [partsFrom, hc]
  | cons d before ih =>
      rw [List.cons_append, partsFrom, partsFrom]
      cases hd : isSeparator d with
      | true => simp [ih]
      | false => simp [ih]

/-- A text without separators is one part. -/
theorem partsFrom_of_no_separator (current : List Char) {text : List Char}
    (h : ∀ c ∈ text, isSeparator c = false) :
    partsFrom current text = [.ofList (current.reverse ++ text)] := by
  induction text generalizing current with
  | nil => simp [partsFrom]
  | cons c text ih =>
      rw [partsFrom, h c List.mem_cons_self, if_neg Bool.false_ne_true,
        ih (c :: current) fun d hd => h d (List.mem_cons_of_mem _ hd)]
      simp

/-- The characters of a joined list: a slash before each segment. -/
theorem toList_join (segments : List String) :
    (join segments).toList = segments.flatMap fun s => '/' :: s.toList := by
  simp [join, List.flatMap_map]

/-- The parts of joined segments are the segments after an empty part. -/
theorem parts_join {segments : List String} (h : ∀ s ∈ segments, IsSegment s) :
    parts (join segments) = "" :: segments := by
  rw [parts, toList_join]
  -- The part in front of the slashes is kept open, so that it can be any segment.
  suffices hopen : ∀ first : List Char, (∀ c ∈ first, isSeparator c = false) →
      partsFrom [] (first ++ segments.flatMap fun s => '/' :: s.toList) =
        .ofList first :: segments from hopen [] (by simp)
  induction segments with
  | nil =>
      intro first hfirst
      rw [List.flatMap_nil, List.append_nil, partsFrom_of_no_separator [] hfirst]
      simp
  | cons s segments ih =>
      intro first hfirst
      rw [List.flatMap_cons, List.cons_append, partsFrom_append [] first _ (by decide),
        partsFrom_of_no_separator [] hfirst,
        ih (fun t ht => h t (List.mem_cons_of_mem _ ht)) s.toList (h s List.mem_cons_self).2.2.2]
      simp

/-- The names in joined segments are the segments. -/
theorem names_join {segments : List String} (h : ∀ s ∈ segments, IsSegment s) :
    names (join segments) = segments := by
  rw [names, parts_join h, List.filter_cons_of_neg (by simp), List.filter_eq_self]
  intro s hs
  obtain ⟨hempty, hdot, _, _⟩ := h s hs
  simp [hempty, hdot]

/-- Joined segments name the path with those segments. -/
theorem ofText?_text (path : ResourcePath) : ofText? path.text = some path := by
  have hnames : names path.text = path.segments := names_join path.valid
  have hvalid : names path.text ≠ [] ∧ ∀ s ∈ names path.text, IsSegment s := by
    rw [hnames]
    exact ⟨path.ne_nil, path.valid⟩
  rw [ofText?, dif_pos hvalid, Option.some.injEq]
  cases path
  simpa using hnames

/-- A path is determined by its normal spelling. -/
theorem text_injective {p q : ResourcePath} (h : p.text = q.text) : p = q :=
  Option.some.inj ((ofText?_text p).symm.trans (h ▸ ofText?_text q))

/-- A normal spelling is its own normal spelling. -/
theorem normalize?_text (path : ResourcePath) : normalize? path.text = some path.text := by
  rw [normalize?, ofText?_text, Option.map_some]

/-- Some normal spelling is longer than a slash: no path is the root. -/
theorem text_ne_slash (path : ResourcePath) : path.text ≠ "/" := by
  intro h
  have hparts : parts path.text = "" :: path.segments := parts_join path.valid
  rw [h, show parts "/" = ["", ""] by decide, List.cons.injEq] at hparts
  exact (path.valid "" (by simp [← hparts.2])).1 rfl

/-- A joined list of segments starts with another one, up to a slash or to its end, exactly when the
one list starts with the other. -/
theorem join_append_iff {p q : List String} (hp : ∀ s ∈ p, IsSegment s)
    (hq : ∀ s ∈ q, IsSegment s) :
    (∃ rest, (join q).toList ++ rest = (join p).toList ∧ (rest = [] ∨ rest.head? = some '/')) ↔
      q <+: p := by
  constructor
  · rintro ⟨rest, hrest, rfl | hhead⟩
    · rw [List.append_nil] at hrest
      have hparts := congrArg (partsFrom []) hrest
      rw [← parts, ← parts, parts_join hp, parts_join hq, List.cons.injEq] at hparts
      exact hparts.2 ▸ List.prefix_rfl
    · obtain ⟨tail, rfl⟩ : ∃ tail, rest = '/' :: tail := by
        cases rest with
        | nil => cases hhead
        | cons c tail => exact ⟨tail, by simpa using hhead⟩
      have hparts := congrArg (partsFrom []) hrest
      rw [partsFrom_append [] _ _ (by decide), ← parts, ← parts, parts_join hp, parts_join hq,
        List.cons_append, List.cons.injEq] at hparts
      exact ⟨partsFrom [] tail, hparts.2⟩
  · rintro ⟨more, rfl⟩
    refine ⟨(join more).toList, ?_, ?_⟩
    · simp [toList_join]
    · cases more with
      | nil => exact .inl (by simp [toList_join])
      | cons s more => exact .inr (by simp [toList_join])

/-- The parts of a text have the characters of the text, but for the separators. -/
theorem mem_partsFrom_iff {c : Char} (hc : isSeparator c = false) (current text : List Char) :
    (∃ part ∈ partsFrom current text, c ∈ part.toList) ↔ c ∈ current ∨ c ∈ text := by
  induction text generalizing current with
  | nil => simp [partsFrom]
  | cons d text ih =>
      rw [partsFrom]
      cases hd : isSeparator d with
      | true =>
          have hne : c ≠ d := fun h => by simp [h, hd] at hc
          simp [ih, hne]
      | false => simp [ih, or_assoc, or_left_comm]

/-- A normal spelling has the characters of every text that names its path, but for the separators
and the dots that stand alone. -/
theorem mem_normalize?_iff {text key : String} (h : normalize? text = some key) {c : Char}
    (hc : isSeparator c = false) (hdot : c ≠ '.') : c ∈ key.toList ↔ c ∈ text.toList := by
  have hnames : c ∈ key.toList ↔ ∃ name ∈ names text, c ∈ name.toList := by
    rw [normalize?, ofText?] at h
    split at h
    · have hne : c ≠ '/' := by
        rintro rfl
        exact absurd hc (by decide)
      cases h
      rw [ResourcePath.text, toList_join]
      simp [hne]
    · cases h
  have hparts : (∃ name ∈ names text, c ∈ name.toList) ↔ ∃ part ∈ parts text, c ∈ part.toList := by
    simp only [names, List.mem_filter]
    refine ⟨fun ⟨name, ⟨hname, _⟩, hmem⟩ => ⟨name, hname, hmem⟩,
      fun ⟨part, hpart, hmem⟩ => ⟨part, ⟨hpart, ?_⟩, hmem⟩⟩
    have hempty : part ≠ "" := by
      rintro rfl
      simp at hmem
    have hsingle : part ≠ "." := by
      rintro rfl
      exact hdot (by simpa using hmem)
    simp [hempty, hsingle]
  rw [hnames, hparts, parts, mem_partsFrom_iff hc]
  simp

end ScriptHost.ResourcePath
