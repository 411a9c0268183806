import Mathlib.Data.List.Nodup
import Mathlib.Data.List.TakeWhile
import ScriptHost.Proofs.Storage.Refinement

/-!
# A database mirrors entries in memory

The two backends of a storage are interchangeable but for one kind of listing.
`Database.Mirrors` relates a relation of rows to entries in memory that have the same data under the
same paths; inserting, deleting and clearing keep it up. A listing of the database is the one of the
memory, unless there is a NUL in the path it looks below: then `Mirrors.list` leaves only the row
that has just that path. `Storage.Mirrors.call` says so of the calls on a storage.
-/

namespace ScriptHost

namespace Database

variable {d : Database} {path other : String} {data : ByteArray}

/-! ## Rows -/

/-- There is a row with a path when there is data under it. -/
theorem any_path (d : Database) (path : String) :
    d.rows.any (·.path == path) = (d.get? path).isSome := by
  rw [get?, Option.isSome_map, Bool.eq_iff_iff, List.any_eq_true, List.find?_isSome]

/-- Data found after a change of one path is the new data, or was there under another path. -/
theorem get?_put (d : Database) (path other : String) (data : ByteArray) :
    (d.put path data).get? other = if path = other then some data else d.get? other := by
  rw [put]
  by_cases hany : d.rows.any (·.path == path) = true
  · -- No row gets another path, so the same row is found, with its data replaced or not.
    rw [if_pos hany, get?, List.find?_map]
    have hsame : ((fun row : Row => row.path == other) ∘
        fun row => if (row.path == path) = true then ⟨path, data⟩ else row) =
        fun row => row.path == other := by
      funext row
      by_cases hrow : row.path = path <;> simp [hrow]
    rw [hsame, Option.map_map]
    by_cases hpath : path = other
    · subst hpath
      obtain ⟨row, hrow⟩ : ∃ row, d.rows.find? (·.path == path) = some row :=
        Option.isSome_iff_exists.mp (List.find?_isSome.mpr (List.any_eq_true.mp hany))
      have hfound : row.path = path := by simpa using List.find?_some hrow
      rw [if_pos rfl, hrow]
      simp [hfound]
    · rw [if_neg hpath, get?]
      cases hrow : d.rows.find? (·.path == other) with
      | none => rfl
      | some row =>
          have hfound : row.path = other := by simpa using List.find?_some hrow
          simp [hfound, Ne.symm hpath]
  · have hnone : d.rows.find? (·.path == path) = none := by
      rw [List.find?_eq_none]
      exact fun row hrow hpath => hany (List.any_eq_true.mpr ⟨row, hrow, hpath⟩)
    rw [if_neg hany, get?, List.find?_append]
    by_cases hpath : path = other
    · subst hpath
      simp [hnone]
    · simp [get?, hpath]

/-- Nothing is found under a deleted path, and all else is untouched. -/
theorem get?_delete (d : Database) (path other : String) :
    (d.delete path).2.get? other = if path = other then none else d.get? other := by
  rw [delete, get?, List.find?_filter]
  by_cases hpath : path = other
  · subst hpath
    rw [if_pos rfl, Option.map_eq_none_iff, List.find?_eq_none]
    simp
  · rw [if_neg hpath, get?]
    congr 2
    funext row
    by_cases hrow : row.path = other <;> simp [hrow, Ne.symm hpath]

/-- No two rows have the same path. -/
def Keyed (d : Database) : Prop :=
  (d.rows.map (·.path)).Nodup

theorem keyed_empty : empty.Keyed :=
  List.nodup_nil

theorem Keyed.put (h : d.Keyed) (path : String) (data : ByteArray) : (d.put path data).Keyed := by
  rw [Database.put]
  split
  · have hpaths : (d.rows.map fun row => if (row.path == path) = true then ⟨path, data⟩ else row).map
        (·.path) = d.rows.map (·.path) := by
      rw [List.map_map]
      refine List.map_congr_left fun row _ => ?_
      by_cases hrow : row.path = path <;> simp [hrow]
    rw [Keyed, hpaths]
    exact h
  · rename_i hany
    rw [Keyed, List.map_append, List.map_singleton, List.nodup_append]
    refine ⟨h, List.nodup_singleton _, ?_⟩
    rintro key hkey _ hsingle rfl
    obtain rfl := List.mem_singleton.mp hsingle
    obtain ⟨row, hrow, hpath⟩ := List.mem_map.mp hkey
    exact hany (List.any_eq_true.mpr ⟨row, hrow, by simpa using hpath⟩)

theorem Keyed.delete (h : d.Keyed) (path : String) : (d.delete path).2.Keyed :=
  h.sublist (List.filter_sublist.map _)

/-- In a relation whose rows have different paths, the rows are the paths and their data. -/
theorem Keyed.mem_rows_iff (h : d.Keyed) {row : Row} :
    row ∈ d.rows ↔ d.get? row.path = some row.data := by
  rw [get?, Option.map_eq_some_iff]
  constructor
  · intro hrow
    obtain ⟨found, hfound⟩ : ∃ found, d.rows.find? (·.path == row.path) = some found :=
      Option.isSome_iff_exists.mp (List.find?_isSome.mpr ⟨row, hrow, by simp⟩)
    have hpath : found.path = row.path := by simpa using List.find?_some hfound
    have heq : found = row :=
      List.inj_on_of_nodup_map h (List.mem_of_find?_eq_some hfound) hrow hpath
    exact ⟨found, hfound, congrArg Row.data heq⟩
  · rintro ⟨found, hfound, hdata⟩
    have hpath : found.path = row.path := by simpa using List.find?_some hfound
    have heq : found = row := by
      cases found
      cases row
      exact congrArg₂ Row.mk hpath hdata
    exact heq ▸ List.mem_of_find?_eq_some hfound

/-! ## Listings -/

/-- The length of a text without a NUL is the number of its characters. -/
theorem textLength_eq {s : String} (h : '\x00' ∉ s.toList) : textLength s = s.toList.length := by
  rw [textLength, List.takeWhile_eq_self_iff.mpr]
  intro c hc
  rw [bne_iff_ne]
  rintro rfl
  exact h hc

/-- The length of a text with a NUL is less than the number of its characters. -/
theorem textLength_lt {s : String} (h : '\x00' ∈ s.toList) : textLength s < s.toList.length := by
  refine Nat.lt_of_le_of_ne (List.takeWhile_prefix _).length_le fun heq => ?_
  have hself := (List.takeWhile_prefix (p := fun c => c != '\x00')).eq_of_length heq
  have hall := List.takeWhile_eq_self_iff.mp hself '\x00' h
  simp at hall

/-- The leading characters of a text are another text and a slash exactly when what follows that text
in it starts with a slash. -/
theorem leading_eq_iff {path top : String} :
    leading path (top.toList.length + 1) = top.toList ++ ['/'] ↔
      ∃ rest, path.toList = top.toList ++ '/' :: rest := by
  constructor
  · intro h
    refine ⟨path.toList.drop (top.toList.length + 1), ?_⟩
    rw [← List.singleton_append, ← List.append_assoc, ← h, leading, List.take_append_drop]
  · rintro ⟨rest, hrest⟩
    rw [leading, hrest, List.take_append, List.take_of_length_le (Nat.le_succ _)]
    simp

/-- A path lies at or below another one if what is left of it is nothing, or starts with a slash. -/
theorem isAtOrBelow_iff {path top : String} (htop : top ≠ "/") :
    isAtOrBelow path top = true ↔ path = top ∨ ∃ rest, path.toList = top.toList ++ '/' :: rest := by
  rw [isAtOrBelow, if_neg htop]
  cases hleft : top.toList.isPrefixOf? path.toList with
  | none =>
      have hnone : ∀ left, path.toList ≠ top.toList ++ left := fun left hpath => by
        rw [List.isPrefixOf?_eq_some_iff_append_eq.mpr hpath.symm] at hleft
        cases hleft
      refine iff_of_false Bool.false_ne_true ?_
      rintro (rfl | ⟨rest, hrest⟩)
      · exact hnone [] (List.append_nil _).symm
      · exact hnone _ hrest
  | some left =>
      have hpath : path.toList = top.toList ++ left :=
        (List.isPrefixOf?_eq_some_iff_append_eq.mp hleft).symm
      have heq : path = top ↔ left = [] := by
        rw [← String.toList_inj, hpath]
        simp
      rw [heq, hpath]
      cases left with
      | nil => simp
      | cons c left => simp

/-- Below a path with a NUL nothing is listed; any other path lists what is at or below it. -/
theorem isListed_eq (path top : String) :
    isListed path top =
      (isAtOrBelow path top && (!top.toList.contains '\x00' || path == top)) := by
  by_cases htop : top = "/"
  · subst htop
    simp [isListed, isAtOrBelow]
  · rw [Bool.eq_iff_iff, isListed, Bool.and_eq_true, isAtOrBelow_iff htop]
    by_cases hnul : '\x00' ∈ top.toList
    · -- Fewer characters are compared than the path has.
      have hshort : leading path (textLength top + 1) ≠ top.toList ++ ['/'] := by
        intro h
        have hlength := congrArg List.length h
        have hlt := textLength_lt hnul
        rw [leading, List.length_take, List.length_append, List.length_singleton] at hlength
        omega
      have hcontains : top.toList.contains '\x00' = true := by simpa using hnul
      simp only [beq_iff_eq, htop, hshort, hcontains, Bool.or_eq_true, or_false, false_or,
        Bool.not_true, Bool.false_or]
      exact ⟨fun hpath => ⟨.inl hpath, hpath⟩, And.right⟩
    · rw [textLength_eq hnul, ← leading_eq_iff]
      simp [htop, hnul]

/-- A listing is in the order of the paths. -/
theorem Keyed.pairwise_list (h : d.Keyed) (top : String) :
    (d.list top).Pairwise fun row other => row.1 < other.1 := by
  rw [list]
  generalize hrows : (d.rows.filter fun row => isListed row.path top).map
    (fun row => (row.path, row.data.size)) = rows
  have hsorted : (rows.mergeSort fun a b => decide (a.1 ≤ b.1)).Pairwise fun a b =>
      decide (a.1 ≤ b.1) = true := by
    refine List.pairwise_mergeSort (fun a b c hab hbc => ?_) (fun a b => ?_) rows
    · exact decide_eq_true (String.le_trans (of_decide_eq_true hab) (of_decide_eq_true hbc))
    · simpa using String.le_total a.1 b.1
  have hpaths : ((rows.mergeSort fun a b => decide (a.1 ≤ b.1)).map Prod.fst).Nodup := by
    rw [((List.mergeSort_perm rows _).map Prod.fst).nodup_iff, ← hrows, List.map_map]
    exact h.sublist (List.filter_sublist.map _)
  rw [List.Nodup, List.pairwise_map] at hpaths
  exact (hsorted.and hpaths).imp fun hrow => Std.lt_of_le_of_ne (of_decide_eq_true hrow.1) hrow.2

/-- A listing has the paths that meet its condition and under which there is data. -/
theorem Keyed.mem_list_iff (h : d.Keyed) {top : String} {row : String × Nat} :
    row ∈ d.list top ↔
      isListed row.1 top = true ∧ ∃ data, d.get? row.1 = some data ∧ data.size = row.2 := by
  obtain ⟨path, size⟩ := row
  rw [list, List.mem_mergeSort, List.mem_map]
  constructor
  · rintro ⟨row, hmem, heq⟩
    cases heq
    obtain ⟨hmem, hlisted⟩ := List.mem_filter.mp hmem
    exact ⟨hlisted, row.data, h.mem_rows_iff.mp hmem, rfl⟩
  · rintro ⟨hlisted, data, hdata, rfl⟩
    exact ⟨⟨path, data⟩, List.mem_filter.mpr ⟨h.mem_rows_iff.mpr hdata, hlisted⟩, rfl⟩

/-- Rows in the order of their paths are determined by which they are. -/
theorem rows_ext {rows others : List (String × Nat)}
    (h : rows.Pairwise fun row other => row.1 < other.1)
    (hothers : others.Pairwise fun row other => row.1 < other.1)
    (hmem : ∀ row, row ∈ rows ↔ row ∈ others) : rows = others := by
  have hne : ∀ {row other : String × Nat}, row.1 < other.1 → row ≠ other := by
    rintro row _ hlt rfl
    exact String.lt_irrefl row.1 hlt
  have hperm := (List.perm_ext_iff_of_nodup (h.imp hne) (hothers.imp hne)).mpr hmem
  exact hperm.eq_of_pairwise
    (fun row _ _ _ hlt hgt => absurd (String.lt_trans hlt hgt) (String.lt_irrefl row.1)) h hothers

end Database

/-! ## Mirrors -/

/-- The rows of a database have the data of entries in memory under the same paths. -/
structure Database.Mirrors (d : Database) (entries : MemoryEntries) : Prop where
  get?_eq : ∀ path, d.get? path = entries.get? path
  keyed : d.Keyed

namespace Database

variable {d : Database} {entries : MemoryEntries}

theorem mirrors_empty : empty.Mirrors .empty where
  get?_eq path := by simp [get?, empty, MemoryEntries.get?, MemoryEntries.empty]
  keyed := keyed_empty

namespace Mirrors

theorem put (h : d.Mirrors entries) (path : String) (data : ByteArray) :
    (d.put path data).Mirrors (entries.put path data) where
  get?_eq other := by
    rw [get?_put, h.get?_eq, MemoryEntries.get?_put]
  keyed := h.keyed.put path data

theorem delete (h : d.Mirrors entries) (path : String) :
    (d.delete path).1 = (entries.delete path).1 ∧
      (d.delete path).2.Mirrors (entries.delete path).2 := by
  refine ⟨?_, ⟨fun other => ?_, h.keyed.delete path⟩⟩
  · show d.rows.any (·.path == path) = entries.entries.contains path
    rw [any_path, h.get?_eq, Std.TreeMap.contains_eq_isSome_getElem?, MemoryEntries.get?]
  · rw [get?_delete, h.get?_eq, MemoryEntries.get?_delete]

/-- The rows are the entries, in some order. -/
theorem perm (h : d.Mirrors entries) :
    (d.rows.map fun row => (row.path, row.data)).Perm entries.entries.toList := by
  have hkeys : (entries.entries.toList.map Prod.fst).Nodup := by
    rw [Std.TreeMap.map_fst_toList_eq_keys]
    exact Std.TreeMap.nodup_keys
  have hpaths : ((d.rows.map fun row => (row.path, row.data)).map Prod.fst).Nodup := by
    rw [List.map_map]
    exact h.keyed
  rw [List.perm_ext_iff_of_nodup hpaths.of_map hkeys.of_map]
  rintro ⟨path, data⟩
  rw [Std.TreeMap.mem_toList_iff_getElem?_eq_some]
  have hmem : (⟨path, data⟩ : Row) ∈ d.rows ↔ d.get? path = some data := h.keyed.mem_rows_iff
  show _ ↔ entries.get? path = some data
  rw [← h.get?_eq, ← hmem, List.mem_map]
  constructor
  · rintro ⟨row, hrow, heq⟩
    cases heq
    exact hrow
  · exact fun hrow => ⟨_, hrow, rfl⟩

theorem clear (h : d.Mirrors entries) : d.clear.1 = entries.clear.1 := by
  show d.rows.length = entries.entries.size
  rw [← Std.TreeMap.length_toList, ← h.perm.length_eq, List.length_map]

/-- A listing is the one of the memory, less what is below a path with a NUL. -/
theorem list (h : d.Mirrors entries) (top : String) :
    d.list top = (entries.list top).filter fun row =>
      !top.toList.contains '\x00' || row.1 == top := by
  refine rows_ext (h.keyed.pairwise_list top) ((entries.pairwise_list top).filter _) fun row => ?_
  rw [h.keyed.mem_list_iff, List.mem_filter, MemoryEntries.mem_list_iff, isListed_eq, h.get?_eq,
    Bool.and_eq_true, and_right_comm]

end Mirrors

end Database

/-! ## Calls -/

namespace Storage

/-- What a storage in a database answers to a call that one in memory answers in some way: below a
path with a NUL it lists nothing. -/
def replyInDatabase (c : StorageCall) (reply : StorageReply) : StorageReply :=
  match c, reply with
  | .list path, .ok (.rows rows) =>
    if '\x00' ∈ path.toList then
      .ok (.rows (rows.filter fun row => ResourcePath.normalize? path == some row.1))
    else .ok (.rows rows)
  | _, reply => reply

/-- A storage in a database, perhaps one that lies in a file, mirrors what is in a storage in memory
and has the same limit. -/
structure Mirrors (file : Option String) (limit : Nat) (s t : Storage) : Prop where
  backend : ∃ d entries, s.backend = .database d file ∧ t.backend = .memory entries ∧
    d.Mirrors entries
  maxSize : s.maxSize = limit
  maxSize_memory : t.maxSize = limit

namespace Mirrors

variable {file : Option String} {limit : Nat} {s t : Storage}

/-- The same data is found. -/
theorem get_eq (h : s.Mirrors file limit t) (path : String) : s.get path = t.get path := by
  obtain ⟨d, entries, hs, ht, hmirrors⟩ := h.backend
  rw [get, get, hs, ht]
  exact congrArg (Except.map · _) (funext hmirrors.get?_eq)

/-- Data is put into both, or into none. -/
theorem put (h : s.Mirrors file limit t) (path : String) (data : ByteArray) :
    (∃ fault, s.put path data = .error fault ∧ t.put path data = .error fault) ∨
      ∃ s' t', s.put path data = .ok s' ∧ t.put path data = .ok t' ∧ s'.Mirrors file limit t' := by
  obtain ⟨d, entries, hs, ht, hmirrors⟩ := h.backend
  rw [Storage.put, Storage.put, hs, ht, h.maxSize, h.maxSize_memory]
  cases key path with
  | error fault => exact .inl ⟨fault, rfl, rfl⟩
  | ok key =>
      by_cases hsize : data.size > limit
      · left
        simp only [hsize, if_true]
        exact ⟨_, rfl, rfl⟩
      · right
        simp only [hsize, if_false]
        exact ⟨_, _, rfl, rfl, ⟨_, _, rfl, rfl, hmirrors.put key data⟩, rfl, rfl⟩

/-- A path is deleted from both, and was there in both or in none. -/
theorem delete (h : s.Mirrors file limit t) (path : String) :
    (∃ fault, s.delete path = .error fault ∧ t.delete path = .error fault) ∨
      ∃ found s' t', s.delete path = .ok (found, s') ∧ t.delete path = .ok (found, t') ∧
        s'.Mirrors file limit t' := by
  obtain ⟨d, entries, hs, ht, hmirrors⟩ := h.backend
  rw [Storage.delete, Storage.delete, hs, ht]
  cases key path with
  | error fault => exact .inl ⟨fault, rfl, rfl⟩
  | ok key =>
      obtain ⟨hfound, hafter⟩ := hmirrors.delete key
      refine .inr ⟨(d.delete key).1, { s with backend := .database (d.delete key).2 file },
        { t with backend := .memory (entries.delete key).2 }, rfl, ?_,
        ⟨_, _, rfl, rfl, hafter⟩, h.maxSize, h.maxSize_memory⟩
      rw [hfound]
      rfl

/-- What is listed is what is listed in memory, less what is below a path with a NUL. -/
theorem list_eq (h : s.Mirrors file limit t) (path : String) :
    (s.call (.list path)).1 = replyInDatabase (.list path) (t.call (.list path)).1 := by
  obtain ⟨d, entries, hs, ht, hmirrors⟩ := h.backend
  show ((s.list path).map .rows : StorageReply) = replyInDatabase (.list path) ((t.list path).map .rows)
  rw [Storage.list, Storage.list, listTop, hs, ht]
  by_cases hslashes : path.toList.all (· == '/') = true
  · have hnul : '\x00' ∉ path.toList := fun hmem => by
      have hslash := List.all_eq_true.mp hslashes _ hmem
      exact absurd hslash (by decide)
    rw [if_pos hslashes]
    show (.ok (.rows (d.list "/")) : StorageReply) = _
    rw [hmirrors.list]
    simp [replyInDatabase, Except.map, StorageBackend.list, hnul]
  · rw [if_neg hslashes]
    cases hkey : ResourcePath.normalize? path with
    | none =>
        rw [key, hkey]
        rfl
    | some top =>
        have hmem : '\x00' ∈ top.toList ↔ '\x00' ∈ path.toList :=
          ResourcePath.mem_normalize?_iff hkey (by decide) (by decide)
        rw [key, hkey]
        show (.ok (.rows (d.list top)) : StorageReply) = _
        rw [hmirrors.list]
        by_cases hnul : '\x00' ∈ path.toList
        · have hrow : ∀ row : String × Nat, (top == row.1) = (row.1 == top) :=
            fun row => BEq.comm
          simp [replyInDatabase, Except.map, StorageBackend.list, hnul, hmem, hkey, hrow]
        · simp [replyInDatabase, Except.map, StorageBackend.list, hnul, hmem]

/-- A call is answered alike, but for what the database does not list. -/
theorem call (h : s.Mirrors file limit t) (c : StorageCall) :
    (s.call c).1 = replyInDatabase c (t.call c).1 ∧ (s.call c).2.Mirrors file limit (t.call c).2 := by
  cases c with
  | put path data =>
      rcases h.put path data with ⟨fault, hs, ht⟩ | ⟨s', t', hs, ht, hafter⟩
      · rw [Storage.call, Storage.call, hs, ht]
        exact ⟨rfl, h⟩
      · rw [Storage.call, Storage.call, hs, ht]
        exact ⟨rfl, hafter⟩
  | putText path text =>
      rcases h.put path text.toUTF8 with ⟨fault, hs, ht⟩ | ⟨s', t', hs, ht, hafter⟩
      · rw [Storage.call, Storage.call, putText, putText, hs, ht]
        exact ⟨rfl, h⟩
      · rw [Storage.call, Storage.call, putText, putText, hs, ht]
        exact ⟨rfl, hafter⟩
  | get path =>
      rw [Storage.call, Storage.call, h.get_eq]
      exact ⟨rfl, h⟩
  | getText path =>
      rw [Storage.call, Storage.call, getText, getText, h.get_eq]
      exact ⟨rfl, h⟩
  | contains path =>
      rw [Storage.call, Storage.call, contains, contains, h.get_eq]
      exact ⟨rfl, h⟩
  | delete path =>
      rcases h.delete path with ⟨fault, hs, ht⟩ | ⟨found, s', t', hs, ht, hafter⟩
      · rw [Storage.call, Storage.call, hs, ht]
        exact ⟨rfl, h⟩
      · rw [Storage.call, Storage.call, hs, ht]
        exact ⟨rfl, hafter⟩
  | clear =>
      obtain ⟨d, entries, hs, ht, hmirrors⟩ := h.backend
      rw [Storage.call, Storage.call, clear, clear, hs, ht]
      refine ⟨?_, ⟨_, _, rfl, rfl, Database.mirrors_empty⟩, h.maxSize, h.maxSize_memory⟩
      exact congrArg (fun count => (Except.ok (.count count) : StorageReply)) hmirrors.clear
  | list path => exact ⟨h.list_eq path, h⟩

end Mirrors

end Storage

end ScriptHost
