import ScriptHost.Proofs.Storage.Mirror

/-!
# What lies below a path

Both backends find data in the same way after a change, and list in the same way what lies at or below
a path. `Storage.HasBelow` gives the rows at or below a path, in order and with their data. A new row
with the last path comes at the end, deleting the first rows leaves the others
(`Storage.delete_rows`), and changes elsewhere leave all of them (`Storage.call_spares`).
-/

namespace ScriptHost

namespace StorageBackend

/-- Data found after a change of one path is the new data, or was there under another path. -/
theorem get?_put (b : StorageBackend) (path other : String) (data : ByteArray) :
    (b.put path data).get? other = if path = other then some data else b.get? other := by
  cases b with
  | memory entries => exact entries.get?_put path other data
  | database rows file => exact rows.get?_put path other data

/-- Nothing is found under a deleted path, and all else is untouched. -/
theorem get?_delete (b : StorageBackend) (path other : String) :
    (b.delete path).2.get? other = if path = other then none else b.get? other := by
  cases b with
  | memory entries => exact entries.get?_delete path other
  | database rows file => exact rows.get?_delete path other

/-- No path has two entries. In memory it never has. -/
def Keyed : StorageBackend → Prop
  | .memory _ => True
  | .database rows _ => rows.Keyed

variable {b : StorageBackend}

theorem Keyed.put (h : b.Keyed) (path : String) (data : ByteArray) : (b.put path data).Keyed := by
  cases b with
  | memory entries => trivial
  | database rows file => exact Database.Keyed.put h path data

theorem Keyed.delete (h : b.Keyed) (path : String) : (b.delete path).2.Keyed := by
  cases b with
  | memory entries => trivial
  | database rows file => exact Database.Keyed.delete h path

theorem Keyed.pairwise_list (h : b.Keyed) (top : String) :
    (b.list top).Pairwise fun row other => row.1 < other.1 := by
  cases b with
  | memory entries => exact entries.pairwise_list top
  | database rows file => exact Database.Keyed.pairwise_list h top

/-- A path without a NUL lists what is at or below it. -/
theorem Keyed.mem_list_iff (h : b.Keyed) {top : String} (hnul : '\x00' ∉ top.toList)
    {row : String × Nat} : row ∈ b.list top ↔
      isAtOrBelow row.1 top = true ∧ ∃ data, b.get? row.1 = some data ∧ data.size = row.2 := by
  cases b with
  | memory entries => exact MemoryEntries.mem_list_iff
  | database rows file =>
      have hlisted : Database.isListed row.1 top = isAtOrBelow row.1 top := by
        simp [Database.isListed_eq, hnul]
      rw [← hlisted]
      exact Database.Keyed.mem_list_iff h

/-! ## Rows below a path -/

/-- What lies at or below a path is given by rows ordered by their paths. -/
structure HoldsBelow (b : StorageBackend) (top : String) (rows : List (String × ByteArray)) :
    Prop where
  keyed : b.Keyed
  sorted : rows.Pairwise fun row other => row.1 < other.1
  get?_iff : ∀ key data,
    b.get? key = some data ∧ isAtOrBelow key top = true ↔ (key, data) ∈ rows

namespace HoldsBelow

variable {top key : String} {data : ByteArray} {rows : List (String × ByteArray)}

/-- What is listed below the path are the rows, with the lengths of their data. -/
theorem list (h : b.HoldsBelow top rows) (hnul : '\x00' ∉ top.toList) :
    b.list top = rows.map fun row => (row.1, row.2.size) := by
  have hsorted : (rows.map fun row => (row.1, row.2.size)).Pairwise fun row other => row.1 < other.1 := by
    rw [List.pairwise_map]
    exact h.sorted
  refine Database.rows_ext (h.keyed.pairwise_list top) hsorted fun ⟨key, size⟩ => ?_
  rw [h.keyed.mem_list_iff hnul]
  simp only [List.mem_map, Prod.exists, Prod.mk.injEq]
  constructor
  · rintro ⟨hbelow, data, hdata, rfl⟩
    exact ⟨key, data, (h.get?_iff key data).mp ⟨hdata, hbelow⟩, rfl, rfl⟩
  · rintro ⟨key, data, hmem, rfl, rfl⟩
    obtain ⟨hdata, hbelow⟩ := (h.get?_iff key data).mpr hmem
    exact ⟨hbelow, data, hdata, rfl⟩

/-- Where nothing is listed, nothing lies. -/
theorem of_list_eq_nil (hkeyed : b.Keyed) (hnul : '\x00' ∉ top.toList) (hlist : b.list top = []) :
    b.HoldsBelow top [] where
  keyed := hkeyed
  sorted := .nil
  get?_iff key data := by
    refine iff_of_false (fun ⟨hdata, hbelow⟩ => ?_) List.not_mem_nil
    have hrow : (key, data.size) ∈ b.list top :=
      (hkeyed.mem_list_iff hnul).mpr ⟨hbelow, data, hdata, rfl⟩
    rw [hlist] at hrow
    exact List.not_mem_nil hrow

/-- Data under the last path becomes the last row. -/
theorem put_last (h : b.HoldsBelow top rows) (hbelow : isAtOrBelow key top = true)
    (hlast : ∀ row ∈ rows, row.1 ≤ key) (data : ByteArray) :
    (b.put key data).HoldsBelow top (rows.filter (fun row => row.1 != key) ++ [(key, data)]) where
  keyed := h.keyed.put key data
  sorted := by
    rw [List.pairwise_append]
    refine ⟨h.sorted.filter _, List.pairwise_singleton _ _, fun row hrow other hother => ?_⟩
    obtain ⟨hmem, hne⟩ := List.mem_filter.mp hrow
    rw [List.mem_singleton.mp hother]
    exact Std.lt_of_le_of_ne (hlast row hmem) (by simpa using hne)
  get?_iff other found := by
    rw [get?_put, List.mem_append, List.mem_filter, List.mem_singleton, Prod.mk.injEq,
      ← h.get?_iff]
    by_cases heq : key = other
    · subst heq
      simp [hbelow, eq_comm]
    · simp [heq, Ne.symm heq]

/-- Deleting the first path takes away the first row. -/
theorem delete_first {row : String × ByteArray} (h : b.HoldsBelow top (row :: rows)) :
    (b.delete row.1).2.HoldsBelow top rows where
  keyed := h.keyed.delete row.1
  sorted := h.sorted.of_cons
  get?_iff key data := by
    have hfirst : (row.1, data) ∉ rows := by
      intro hmem
      have hlt := List.rel_of_pairwise_cons h.sorted hmem
      exact String.lt_irrefl row.1 hlt
    have hiff := h.get?_iff key data
    rw [get?_delete]
    by_cases heq : row.1 = key
    · subst heq
      simp [hfirst]
    · rw [if_neg heq, hiff, List.mem_cons]
      refine or_iff_right fun hrow => heq ?_
      rw [← hrow]

/-- Data under a path elsewhere leaves the rows. -/
theorem put_other (h : b.HoldsBelow top rows) (hother : isAtOrBelow key top = false)
    (data : ByteArray) : (b.put key data).HoldsBelow top rows where
  keyed := h.keyed.put key data
  sorted := h.sorted
  get?_iff other found := by
    rw [get?_put, ← h.get?_iff]
    by_cases heq : key = other
    · subst heq
      simp [hother]
    · rw [if_neg heq]

/-- Deleting a path elsewhere leaves the rows. -/
theorem delete_other (h : b.HoldsBelow top rows) (hother : isAtOrBelow key top = false) :
    (b.delete key).2.HoldsBelow top rows where
  keyed := h.keyed.delete key
  sorted := h.sorted
  get?_iff other found := by
    rw [get?_delete, ← h.get?_iff]
    by_cases heq : key = other
    · subst heq
      simp [hother]
    · rw [if_neg heq]

end HoldsBelow

end StorageBackend

namespace Storage

variable {s : Storage} {top : String} {rows : List (String × ByteArray)}

/-- What is listed and found at or below a path are rows, in order. -/
structure HasBelow (s : Storage) (top : String) (rows : List (String × ByteArray)) : Prop where
  list : s.list top = .ok (rows.map fun row => (row.1, row.2.size))
  get_iff : ∀ {path key : String}, ResourcePath.normalize? path = some key →
    isAtOrBelow key top = true → ∀ data, s.get path = .ok (some data) ↔ (key, data) ∈ rows

/-- Every path but those at or below one has the same data as before. -/
def SameElsewhere (s after : Storage) (top : String) : Prop :=
  ∀ path, (∀ key, ResourcePath.normalize? path = some key → isAtOrBelow key top = false) →
    after.get path = s.get path

/-- The rows of the backend at or below a path are what is listed and found there. -/
theorem hasBelow_of_holds (h : s.backend.HoldsBelow top rows) (htop : listTop top = .ok top)
    (hnul : '\x00' ∉ top.toList) : s.HasBelow top rows where
  list := by
    rw [list, htop]
    exact congrArg Except.ok (h.list hnul)
  get_iff := by
    intro path key hkey hbelow data
    rw [get, Storage.key, hkey, ← h.get?_iff key data]
    simp [Except.map, hbelow]

/-- Where nothing is listed, the backend has no rows. -/
theorem HasBelow.holds_nil (h : s.HasBelow top []) (hkeyed : s.backend.Keyed)
    (htop : listTop top = .ok top) (hnul : '\x00' ∉ top.toList) : s.backend.HoldsBelow top [] := by
  have hlist : (listTop top).map s.backend.list = .ok [] := h.list
  rw [htop] at hlist
  exact .of_list_eq_nil hkeyed hnul (Except.ok.inj hlist)

theorem SameElsewhere.trans {between after : Storage} (h : s.SameElsewhere between top)
    (hafter : between.SameElsewhere after top) : s.SameElsewhere after top :=
  fun path hpath => (hafter path hpath).trans (h path hpath)

/-- A change of one path at or below a path is no change elsewhere. -/
theorem sameElsewhere_of_get? {after : Storage} {changed : String}
    (hchanged : isAtOrBelow changed top = true)
    (h : ∀ other, changed ≠ other → after.backend.get? other = s.backend.get? other) :
    s.SameElsewhere after top := by
  intro path hpath
  rw [get, get, Storage.key]
  cases hkey : ResourcePath.normalize? path with
  | none => rfl
  | some key =>
      have hne : changed ≠ key := by
        rintro rfl
        rw [hpath changed hkey] at hchanged
        cases hchanged
      exact congrArg Except.ok (h key hne)

variable {path : String}

/-- Data that is not too long can be put under a path in its normal spelling. -/
theorem put_ok (hpath : ResourcePath.normalize? path = some path) {data : ByteArray}
    (hsize : data.size ≤ s.maxSize) :
    s.put path data = .ok { s with backend := s.backend.put path data } := by
  rw [put, Storage.key, hpath]
  show (if data.size > s.maxSize then _ else _) = _
  rw [if_neg (Nat.not_lt.mpr hsize)]
  rfl

/-- Data that is too long cannot. -/
theorem put_oversize (hpath : ResourcePath.normalize? path = some path) {data : ByteArray}
    (hsize : s.maxSize < data.size) :
    s.put path data = .error (.oversize path data.size s.maxSize) := by
  rw [put, Storage.key, hpath]
  show (if data.size > s.maxSize then _ else _) = _
  rw [if_pos hsize]
  rfl

/-- Deleting the first rows leaves the others, and all that is elsewhere. -/
theorem delete_rows {front : List (String × ByteArray)}
    (h : s.backend.HoldsBelow top (front ++ rows))
    (hpaths : ∀ row ∈ front, ResourcePath.normalize? row.1 = some row.1) :
    ∃ after, (front.map (·.1)).foldlM (fun (s : Storage) path => (·.2) <$> s.delete path) s =
        .ok after ∧
      after.maxSize = s.maxSize ∧ after.backend.HoldsBelow top rows ∧ s.SameElsewhere after top := by
  induction front generalizing s with
  | nil => exact ⟨s, rfl, rfl, h, fun _ _ => rfl⟩
  | cons row front ih =>
      have hbelow : isAtOrBelow row.1 top = true :=
        ((h.get?_iff row.1 row.2).mpr List.mem_cons_self).2
      obtain ⟨after, hdelete, hmax, hafter, hsame⟩ :=
        @ih { s with backend := (s.backend.delete row.1).2 } h.delete_first
          fun other hother => hpaths other (List.mem_cons_of_mem row hother)
      refine ⟨after, ?_, hmax, hafter, .trans (sameElsewhere_of_get? hbelow fun other hne => ?_) hsame⟩
      · rw [List.map_cons, List.foldlM_cons, delete, Storage.key, hpaths row List.mem_cons_self]
        exact hdelete
      · rw [StorageBackend.get?_delete, if_neg hne]

end Storage

/-- A call changes nothing at or below a path: it only looks, or it changes one path elsewhere. -/
def StorageCall.Spares (top : String) : StorageCall → Prop
  | .put path _ | .putText path _ | .delete path =>
    ∀ key, ResourcePath.normalize? path = some key → isAtOrBelow key top = false
  | .clear => False
  | .get _ | .getText _ | .contains _ | .list _ => True

namespace Storage

variable {s : Storage} {top : String} {rows : List (String × ByteArray)}

theorem put_spares (h : s.backend.HoldsBelow top rows) {path : String}
    (hpath : ∀ key, ResourcePath.normalize? path = some key → isAtOrBelow key top = false)
    {data : ByteArray} {after : Storage} (hput : s.put path data = .ok after) :
    after.backend.HoldsBelow top rows := by
  rw [put, Storage.key] at hput
  cases hkey : ResourcePath.normalize? path with
  | none =>
      rw [hkey] at hput
      cases hput
  | some key =>
      rw [hkey] at hput
      change (if data.size > s.maxSize then Except.error _ else Except.ok _) = _ at hput
      split at hput
      · cases hput
      · cases hput
        exact h.put_other (hpath key hkey) data

theorem delete_spares (h : s.backend.HoldsBelow top rows) {path : String}
    (hpath : ∀ key, ResourcePath.normalize? path = some key → isAtOrBelow key top = false)
    {found : Bool} {after : Storage} (hdelete : s.delete path = .ok (found, after)) :
    after.backend.HoldsBelow top rows := by
  rw [delete, Storage.key] at hdelete
  cases hkey : ResourcePath.normalize? path with
  | none =>
      rw [hkey] at hdelete
      cases hdelete
  | some key =>
      rw [hkey] at hdelete
      cases hdelete
      exact h.delete_other (hpath key hkey)

/-- What lies below a path is the same after a call that spares it. -/
theorem call_spares (h : s.backend.HoldsBelow top rows) {c : StorageCall} (hc : c.Spares top) :
    (s.call c).2.backend.HoldsBelow top rows := by
  cases c with
  | put path data =>
      rw [call]
      cases hput : s.put path data with
      | error fault => exact h
      | ok after => exact put_spares h hc hput
  | putText path text =>
      rw [call]
      cases hput : s.putText path text with
      | error fault => exact h
      | ok after => exact put_spares h hc hput
  | delete path =>
      rw [call]
      cases hdelete : s.delete path with
      | error fault => exact h
      | ok result => exact delete_spares h hc hdelete
  | clear => exact hc.elim
  | get path => exact h
  | getText path => exact h
  | contains path => exact h
  | list path => exact h

end Storage

end ScriptHost
