import Mathlib.Data.Finmap
import ScriptHost.Proofs.Resource.Spelling
import ScriptHost.Proofs.Text.ByteOrder
import ScriptHost.Storage.Call

/-!
# A storage in memory is a finite map

`Blobs` maps resource paths, which are non-empty lists of segments, to data. `Blobs.Answers` says
how it answers a call and what it is afterwards; a listing is not computed there but described, by
its order and its members. `calls_answered` says that a storage in memory answers every sequence of
calls as the map does, and that no data in it is ever longer than its limit.

Normal spellings and their order: `ScriptHost.Proofs.Resource.Spelling` and
`ScriptHost.Proofs.Text.ByteOrder`.
-/

namespace ScriptHost

/-- The data under resource paths. -/
abbrev Blobs := Finmap fun _ : ResourcePath => ByteArray

namespace Blobs

/-- Put data under the path that a text names, unless it names none or the data is too long. -/
def put (limit : Nat) (m : Blobs) (text : String) (data : ByteArray) : StorageReply × Blobs :=
  match ResourcePath.ofText? text with
  | none => (.error (.invalidPath text), m)
  | some path =>
    if limit < data.size then (.error (.oversize path.text data.size limit), m)
    else (.ok .done, m.insert path data)

/-- Answer for the path that a text names, if it names one. -/
def atPath (text : String) (answer : ResourcePath → StorageAnswer) : StorageReply :=
  match ResourcePath.ofText? text with
  | none => .error (.invalidPath text)
  | some path => .ok (answer path)

/-- Remove the path that a text names, and tell whether it was there. -/
def delete (m : Blobs) (text : String) : StorageReply × Blobs :=
  match ResourcePath.ofText? text with
  | none => (.error (.invalidPath text), m)
  | some path => (.ok (.flag (decide (path ∈ m))), m.erase path)

/-- The segments below which a listing looks. A text of nothing but slashes means everything. -/
def top? (text : String) : Option (List String) :=
  if text.toList.all (· == '/') then some []
  else (ResourcePath.ofText? text).map (·.segments)

/-- The rows of a listing: in strictly increasing byte order of their paths, and precisely the
entries whose segments extend those of the top, each with the length of its data. -/
structure Listing (m : Blobs) (top : List String) (rows : List (String × Nat)) : Prop where
  ordered : rows.Pairwise fun a b => Text.bytes a.1 < Text.bytes b.1
  mem_iff : ∀ text size, (text, size) ∈ rows ↔
    ∃ path data, m.lookup path = some data ∧ top <+: path.segments ∧
      text = path.text ∧ size = data.size

/-- `Answers limit m call reply after` says that the map `m` answers `call` with `reply` and is
`after` then. -/
def Answers (limit : Nat) (m : Blobs) (call : StorageCall) (reply : StorageReply)
    (after : Blobs) : Prop :=
  match call with
  | .put path data => (reply, after) = m.put limit path data
  | .putText path text => (reply, after) = m.put limit path text.toUTF8
  | .get path => after = m ∧ reply = atPath path fun p => .data (m.lookup p)
  | .getText path => after = m ∧ reply = atPath path fun p => .text ((m.lookup p).map Text.lossy)
  | .contains path => after = m ∧ reply = atPath path fun p => .flag (decide (p ∈ m))
  | .delete path => (reply, after) = m.delete path
  | .clear => after = ∅ ∧ reply = .ok (.count m.keys.card)
  | .list path =>
    after = m ∧
      match top? path with
      | none => reply = .error (.invalidPath path)
      | some top => ∃ rows, reply = .ok (.rows rows) ∧ m.Listing top rows

/-- `AnswersAll limit m calls replies after` says that the map `m` answers `calls` in order with
`replies` and is `after` then. -/
inductive AnswersAll (limit : Nat) :
    Blobs → List StorageCall → List StorageReply → Blobs → Prop where
  | nil (m) : AnswersAll limit m [] [] m
  | cons (m call reply between calls replies after) :
      Answers limit m call reply between → AnswersAll limit between calls replies after →
      AnswersAll limit m (call :: calls) (reply :: replies) after

/-- No data is longer than a limit. -/
def Within (m : Blobs) (limit : Nat) : Prop :=
  ∀ path data, m.lookup path = some data → data.size ≤ limit

end Blobs

/-- Entries in memory hold a map: each path has the data of the map under its normal spelling, and
nothing else is a key. -/
structure MemoryEntries.Holds (entries : MemoryEntries) (m : Blobs) : Prop where
  get?_text : ∀ path : ResourcePath, entries.get? path.text = m.lookup path
  eq_text : ∀ key data, entries.get? key = some data → ∃ path : ResourcePath, key = path.text

namespace MemoryEntries

/-! ## The entries as a map -/

/-- No entries hold the empty map. -/
theorem holds_empty : MemoryEntries.empty.Holds ∅ where
  get?_text path := by simp [MemoryEntries.empty, MemoryEntries.get?]
  eq_text key data h := by simp [MemoryEntries.empty, MemoryEntries.get?] at h

variable {entries : MemoryEntries} {m : Blobs}

/-- Data found after a change of one key is the new data, or was there under another key. -/
theorem get?_put (entries : MemoryEntries) (key other : String) (data : ByteArray) :
    (entries.put key data).get? other = if key = other then some data else entries.get? other := by
  simp [MemoryEntries.put, MemoryEntries.get?, Std.TreeMap.getElem?_insert]

/-- Nothing is found under a deleted key, and all else is untouched. -/
theorem get?_delete (entries : MemoryEntries) (key other : String) :
    (entries.delete key).2.get? other = if key = other then none else entries.get? other := by
  simp [MemoryEntries.delete, MemoryEntries.get?, Std.TreeMap.getElem?_erase]

/-- New data under a normal spelling is new data under the path. -/
theorem Holds.put (h : entries.Holds m) (path : ResourcePath) (data : ByteArray) :
    (entries.put path.text data).Holds (m.insert path data) where
  get?_text other := by
    rw [get?_put]
    by_cases heq : path = other
    · subst heq
      rw [if_pos rfl, Finmap.lookup_insert]
    · rw [if_neg fun htext => heq (ResourcePath.text_injective htext), h.get?_text,
        Finmap.lookup_insert_of_ne _ (Ne.symm heq)]
  eq_text key found hfound := by
    rw [get?_put] at hfound
    by_cases heq : path.text = key
    · exact ⟨path, heq.symm⟩
    · rw [if_neg heq] at hfound
      exact h.eq_text key found hfound

/-- Deleting a normal spelling removes the path. -/
theorem Holds.delete (h : entries.Holds m) (path : ResourcePath) :
    (entries.delete path.text).2.Holds (m.erase path) where
  get?_text other := by
    rw [get?_delete]
    by_cases heq : path = other
    · subst heq
      rw [if_pos rfl, Finmap.lookup_erase]
    · rw [if_neg fun htext => heq (ResourcePath.text_injective htext), h.get?_text,
        Finmap.lookup_erase_ne (Ne.symm heq)]
  eq_text key found hfound := by
    rw [get?_delete] at hfound
    by_cases heq : path.text = key
    · exact ⟨path, heq.symm⟩
    · rw [if_neg heq] at hfound
      exact h.eq_text key found hfound

/-- Whether a normal spelling is a key is whether the path is in the map. -/
theorem Holds.contains_text (h : entries.Holds m) (path : ResourcePath) :
    entries.entries.contains path.text = decide (path ∈ m) := by
  have hlookup : entries.entries[path.text]? = m.lookup path := h.get?_text path
  rw [Std.TreeMap.contains_eq_isSome_getElem?, hlookup, Bool.eq_iff_iff, Finmap.lookup_isSome,
    decide_eq_true_eq]

/-- There are as many entries as paths in the map. -/
theorem Holds.size_eq (h : entries.Holds m) : entries.entries.size = m.keys.card := by
  -- The keys are the normal spellings of the paths, and no two paths share one.
  have hkeys : entries.entries.keys.toFinset = m.keys.image ResourcePath.text := by
    ext key
    rw [List.mem_toFinset, Finset.mem_image, Std.TreeMap.mem_keys,
      Std.TreeMap.mem_iff_isSome_getElem?]
    constructor
    · intro hkey
      obtain ⟨data, hdata⟩ := Option.isSome_iff_exists.mp hkey
      obtain ⟨path, rfl⟩ := h.eq_text key data hdata
      refine ⟨path, ?_, rfl⟩
      exact Finmap.mem_of_lookup_eq_some ((h.get?_text path).symm.trans hdata)
    · rintro ⟨path, hpath, rfl⟩
      obtain ⟨data, hdata⟩ := Finmap.mem_iff.mp hpath
      exact Option.isSome_iff_exists.mpr ⟨data, (h.get?_text path).trans hdata⟩
  have hinjective : Function.Injective ResourcePath.text := fun _ _ => ResourcePath.text_injective
  rw [← Finset.card_image_of_injective m.keys hinjective, ← hkeys,
    List.toFinset_card_of_nodup Std.TreeMap.nodup_keys, Std.TreeMap.length_keys]

/-! ## Listings -/

/-- Everything lies at or below the root. -/
theorem isAtOrBelow_root (path : ResourcePath) : isAtOrBelow path.text "/" = true := by
  simp [isAtOrBelow]

/-- A path lies at or below another exactly when its segments extend the other's. -/
theorem isAtOrBelow_text_iff (path top : ResourcePath) :
    isAtOrBelow path.text top.text = true ↔ top.segments <+: path.segments := by
  rw [← ResourcePath.join_append_iff path.valid top.valid, isAtOrBelow,
    if_neg top.text_ne_slash]
  show _ ↔ ∃ rest, top.text.toList ++ rest = path.text.toList ∧ (rest = [] ∨ rest.head? = some '/')
  cases hrest : top.text.toList.isPrefixOf? path.text.toList with
  | none =>
      refine iff_of_false (by simp) ?_
      rintro ⟨rest, hpath, _⟩
      rw [← List.isPrefixOf?_eq_some_iff_append_eq, hrest] at hpath
      cases hpath
  | some rest =>
      rw [List.isPrefixOf?_eq_some_iff_append_eq] at hrest
      have hunique : ∀ other, top.text.toList ++ other = path.text.toList → other = rest :=
        fun other hother => List.append_cancel_left (hother.trans hrest.symm)
      -- What is left of the longer spelling is unique, so both sides speak of how it starts.
      cases rest with
      | nil => exact iff_of_true rfl ⟨[], hrest, .inl rfl⟩
      | cons c tail =>
          constructor
          · intro hc
            exact ⟨c :: tail, hrest, .inr (by simpa using hc)⟩
          · rintro ⟨other, hother, hend⟩
            obtain rfl := hunique other hother
            simpa using hend

/-- A segment that only starts like another one is not below it. -/
example : isAtOrBelow "/metrics-old/a" "/metrics" = false ∧
    isAtOrBelow "/metrics/a" "/metrics" = true := by decide

/-- A listing is in the order of the paths. -/
theorem pairwise_list (entries : MemoryEntries) (top : String) :
    (entries.list top).Pairwise fun row other => row.1 < other.1 := by
  rw [MemoryEntries.list, List.pairwise_map]
  exact (entries.entries.ordered_keys_toList.filter _).imp fun hab =>
    compareOfLessAndEq_eq_lt.mp hab

/-- A listing has the paths at or below its top under which there is data. -/
theorem mem_list_iff {entries : MemoryEntries} {top : String} {row : String × Nat} :
    row ∈ entries.list top ↔
      isAtOrBelow row.1 top = true ∧ ∃ data, entries.get? row.1 = some data ∧ data.size = row.2 := by
  obtain ⟨path, size⟩ := row
  simp only [MemoryEntries.list, List.mem_map, List.mem_filter, Prod.exists, Prod.mk.injEq,
    Std.TreeMap.mem_toList_iff_getElem?_eq_some]
  constructor
  · rintro ⟨key, data, ⟨hdata, hbelow⟩, rfl, rfl⟩
    exact ⟨hbelow, data, hdata, rfl⟩
  · rintro ⟨hbelow, data, hdata, rfl⟩
    exact ⟨path, data, ⟨hdata, hbelow⟩, rfl, rfl⟩

/-- The rows of the entries are a listing of the map, whatever the test of the rows means. -/
theorem Holds.listing (h : entries.Holds m) {top : String} {segments : List String}
    (htest : ∀ path : ResourcePath,
      isAtOrBelow path.text top = true ↔ segments <+: path.segments) :
    m.Listing segments (entries.list top) where
  -- The map compares its keys as texts, character by character.
  ordered := (entries.pairwise_list top).imp Text.bytes_lt_of_lt
  mem_iff text size := by
    rw [mem_list_iff]
    constructor
    · rintro ⟨hbelow, data, hdata, rfl⟩
      obtain ⟨path, rfl⟩ := h.eq_text text data hdata
      exact ⟨path, data, (h.get?_text path).symm.trans hdata, (htest path).mp hbelow, rfl, rfl⟩
    · rintro ⟨path, data, hdata, hbelow, rfl, rfl⟩
      exact ⟨(htest path).mpr hbelow, data, (h.get?_text path).trans hdata, rfl⟩

end MemoryEntries

/-! ## Calls -/

/-- A storage keeps a map in memory, under a limit that no data in it exceeds. -/
structure Storage.Keeps (s : Storage) (limit : Nat) (m : Blobs) : Prop where
  memory : ∃ entries, s.backend = .memory entries ∧ entries.Holds m
  maxSize : s.maxSize = limit
  within : m.Within limit

namespace Storage

/-- The key of a path text is the normal spelling of the path it names. -/
theorem key_eq (text : String) :
    key text = match ResourcePath.ofText? text with
      | none => .error (.invalidPath text)
      | some path => .ok path.text := by
  rw [key, ResourcePath.normalize?]
  cases ResourcePath.ofText? text <;> rfl

variable {s : Storage} {limit : Nat} {m : Blobs}

/-- A storage with nothing in it keeps the empty map. -/
theorem keeps_empty (limit : Nat) :
    (inMemory.withMaxSize limit).Keeps (min limit maxStoredBytes) ∅ where
  memory := ⟨.empty, rfl, MemoryEntries.holds_empty⟩
  maxSize := rfl
  within path data h := by simp at h

/-- What is found is what the map has. -/
theorem Keeps.get_eq (h : s.Keeps limit m) (text : String) :
    s.get text = match ResourcePath.ofText? text with
      | none => .error (.invalidPath text)
      | some path => .ok (m.lookup path) := by
  obtain ⟨entries, hbackend, hholds⟩ := h.memory
  rw [get, key_eq, hbackend]
  cases ResourcePath.ofText? text with
  | none => rfl
  | some path => exact congrArg Except.ok (hholds.get?_text path)

/-- Putting data is putting it into the map. -/
theorem Keeps.put (h : s.Keeps limit m) (text : String) (data : ByteArray) :
    ∃ after, (s.changed ((s.put text data).map fun next => (.done, next))).2.Keeps limit after ∧
      ((s.changed ((s.put text data).map fun next => (.done, next))).1, after) =
        m.put limit text data := by
  obtain ⟨⟨backend, maxSize⟩, hs⟩ : ∃ t : Storage, t = s := ⟨s, rfl⟩
  obtain ⟨entries, hbackend, hholds⟩ := h.memory
  have hmax := h.maxSize
  subst hs
  obtain rfl : backend = .memory entries := hbackend
  obtain rfl : maxSize = limit := hmax
  rw [Storage.put, key_eq, Blobs.put]
  cases hpath : ResourcePath.ofText? text with
  | none => exact ⟨m, h, rfl⟩
  | some path =>
      by_cases hsize : maxSize < data.size
      · simp only [hsize, if_true]
        exact ⟨m, h, rfl⟩
      · simp only [hsize, if_false]
        refine ⟨m.insert path data, ⟨⟨entries.put path.text data, rfl, hholds.put path data⟩, rfl,
          ?_⟩, rfl⟩
        intro other found hfound
        by_cases heq : other = path
        · subst heq
          rw [Finmap.lookup_insert] at hfound
          cases hfound
          exact Nat.le_of_not_lt hsize
        · rw [Finmap.lookup_insert_of_ne _ heq] at hfound
          exact h.within other found hfound

/-- Deleting is deleting from the map. -/
theorem Keeps.delete (h : s.Keeps limit m) (text : String) :
    ∃ after, (s.call (.delete text)).2.Keeps limit after ∧
      ((s.call (.delete text)).1, after) = m.delete text := by
  obtain ⟨entries, hbackend, hholds⟩ := h.memory
  rw [call, Storage.delete, key_eq, Blobs.delete, hbackend]
  cases hpath : ResourcePath.ofText? text with
  | none => exact ⟨m, h, rfl⟩
  | some path =>
      refine ⟨m.erase path, ⟨⟨(entries.delete path.text).2, rfl, hholds.delete path⟩, h.maxSize,
        ?_⟩, ?_⟩
      · intro other found hfound
        by_cases heq : other = path
        · subst heq
          rw [Finmap.lookup_erase] at hfound
          cases hfound
        · rw [Finmap.lookup_erase_ne heq] at hfound
          exact h.within other found hfound
      · exact congrArg (fun found => (Except.ok (StorageAnswer.flag found), m.erase path))
          (hholds.contains_text path)

/-- A listing is a listing of the map. -/
theorem Keeps.list (h : s.Keeps limit m) (text : String) :
    match Blobs.top? text with
    | none => s.list text = .error (.invalidPath text)
    | some top => ∃ rows, s.list text = .ok rows ∧ m.Listing top rows := by
  obtain ⟨entries, hbackend, hholds⟩ := h.memory
  rw [Storage.list, Storage.listTop, Blobs.top?, hbackend]
  by_cases hslashes : text.toList.all (· == '/') = true
  · rw [if_pos hslashes, if_pos hslashes]
    refine ⟨entries.list "/", rfl, hholds.listing fun path => ?_⟩
    exact iff_of_true (MemoryEntries.isAtOrBelow_root path) List.nil_prefix
  · rw [if_neg hslashes, if_neg hslashes, key_eq]
    cases ResourcePath.ofText? text with
    | none => rfl
    | some path =>
        refine ⟨entries.list path.text, rfl, hholds.listing fun other => ?_⟩
        exact MemoryEntries.isAtOrBelow_text_iff other path

/-- A storage that keeps a map answers a call as the map does, and keeps what the map is then. -/
theorem Keeps.call (h : s.Keeps limit m) (c : StorageCall) :
    ∃ after, (s.call c).2.Keeps limit after ∧ m.Answers limit c (s.call c).1 after := by
  cases c with
  | put path data => exact h.put path data
  | putText path text => exact h.put path text.toUTF8
  | get path =>
      refine ⟨m, h, rfl, ?_⟩
      rw [Storage.call, h.get_eq, Blobs.atPath]
      cases ResourcePath.ofText? path <;> rfl
  | getText path =>
      refine ⟨m, h, rfl, ?_⟩
      rw [Storage.call, Storage.getText, h.get_eq, Blobs.atPath]
      cases ResourcePath.ofText? path <;> rfl
  | contains path =>
      refine ⟨m, h, rfl, ?_⟩
      rw [Storage.call, Storage.contains, h.get_eq, Blobs.atPath]
      cases ResourcePath.ofText? path with
      | none => rfl
      | some p =>
          have hflag : (m.lookup p).isSome = decide (p ∈ m) := by
            rw [Bool.eq_iff_iff, Finmap.lookup_isSome, decide_eq_true_eq]
          simp only [Except.map, hflag]
  | delete path => exact h.delete path
  | clear =>
      obtain ⟨entries, hbackend, hholds⟩ := h.memory
      rw [Storage.call, Storage.clear, hbackend]
      refine ⟨∅, ⟨⟨.empty, rfl, MemoryEntries.holds_empty⟩, h.maxSize, ?_⟩, rfl, ?_⟩
      · intro path data hdata
        simp at hdata
      · rw [← hholds.size_eq]
        rfl
  | list path =>
      refine ⟨m, h, rfl, ?_⟩
      have hlist := h.list path
      rw [Storage.call]
      cases htop : Blobs.top? path with
      | none =>
          rw [htop] at hlist
          simp only [hlist]
          rfl
      | some top =>
          rw [htop] at hlist
          obtain ⟨rows, hrows, hlisting⟩ := hlist
          exact ⟨rows, by simp only [hrows]; rfl, hlisting⟩

/-- A storage that keeps a map answers calls in order as the map does. -/
theorem Keeps.calls (h : s.Keeps limit m) (cs : List StorageCall) :
    ∃ after, (s.calls cs).2.Keeps limit after ∧ m.AnswersAll limit cs (s.calls cs).1 after := by
  induction cs generalizing s m with
  | nil => exact ⟨m, h, .nil m⟩
  | cons c cs ih =>
      obtain ⟨between, hbetween, hanswer⟩ := h.call c
      obtain ⟨after, hafter, hanswers⟩ := ih hbetween
      exact ⟨after, hafter, .cons _ _ _ _ _ _ _ hanswer hanswers⟩

/-- No entry of a storage that keeps a map is longer than the limit. -/
theorem Keeps.entries_le (h : s.Keeps limit m) :
    ∃ entries, s.backend = .memory entries ∧
      ∀ key data, entries.get? key = some data → data.size ≤ limit := by
  obtain ⟨entries, hbackend, hholds⟩ := h.memory
  refine ⟨entries, hbackend, fun key data hdata => ?_⟩
  obtain ⟨path, rfl⟩ := hholds.eq_text key data hdata
  exact h.within path data ((hholds.get?_text path).symm.trans hdata)

/-- From an empty storage on, every sequence of calls is answered as a finite map from paths to data
answers it, and no entry is ever longer than the limit, which is at most ten mebibytes. -/
theorem calls_answered (limit : Nat) (cs : List StorageCall) :
    (∃ m : Blobs,
      Blobs.AnswersAll (min limit maxStoredBytes) ∅ cs
        ((inMemory.withMaxSize limit).calls cs).1 m) ∧
    (∃ entries, ((inMemory.withMaxSize limit).calls cs).2.backend = .memory entries ∧
      ∀ key data, entries.get? key = some data →
        data.size ≤ ((inMemory.withMaxSize limit).calls cs).2.maxSize) ∧
    ((inMemory.withMaxSize limit).calls cs).2.maxSize = min limit maxStoredBytes ∧
    min limit maxStoredBytes ≤ 10 * 1024 * 1024 := by
  obtain ⟨m, hkeeps, hanswers⟩ := (keeps_empty limit).calls cs
  refine ⟨⟨m, hanswers⟩, ?_, hkeeps.maxSize, Nat.min_le_right _ _⟩
  rw [hkeeps.maxSize]
  exact hkeeps.entries_le

end Storage

end ScriptHost
