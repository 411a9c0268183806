import Mathlib.Tactic.SplitIfs
import ScriptHost.FileTree

/-!
# Places in a file tree

What changing a tree at one place leaves as it is. `KeepsDirectories` says that every directory of
a tree is one of another tree with the same limits; paths that can be walked then lead to the same
places, and directories that were made stay made. `resolve_append_ne` says that a name with
something behind it is the name of another place.
-/

namespace ScriptHost.FileTree

variable {t u v : FileTree} {place other next : List String} {names : List String}
  {cwd : List String} {path : String} {node : Node}

/-! ## Nodes -/

theorem node?_put (h : place ≠ []) (t : FileTree) (node : Node) (other : List String) :
    (t.put place node).node? other = if place = other then some node else t.node? other := by
  cases other with
  | nil => rw [if_neg h, node?, node?]
  | cons name names =>
      simp [node?, put, Std.TreeMap.getElem?_insert]

theorem node?_erase (t : FileTree) (place other : List String) :
    (t.erase place).node? other = if place = other ∧ other ≠ [] then none else t.node? other := by
  cases other with
  | nil => simp [node?]
  | cons name names =>
      simp [node?, erase, Std.TreeMap.getElem?_erase]

/-- Something that is no directory does not stand at the root. -/
theorem ne_nil_of_node? (h : t.node? place ≠ some .directory) : place ≠ [] := by
  rintro rfl
  exact h rfl

/-! ## Directories -/

/-- Every directory of the first tree is one of the second, which has the same limits. -/
structure KeepsDirectories (t u : FileTree) : Prop where
  limits : u.limits = t.limits
  directory : ∀ place, t.node? place = some .directory → u.node? place = some .directory

theorem keepsDirectories_refl (t : FileTree) : t.KeepsDirectories t :=
  ⟨rfl, fun _ h => h⟩

theorem KeepsDirectories.trans (h : t.KeepsDirectories u) (h' : u.KeepsDirectories v) :
    t.KeepsDirectories v :=
  ⟨h'.limits.trans h.limits, fun place hplace => h'.directory place (h.directory place hplace)⟩

/-- The same names are too long. -/
theorem KeepsDirectories.nameTooLong (h : t.KeepsDirectories u) (name : String) :
    u.nameTooLong name = t.nameTooLong name := by
  rw [FileTree.nameTooLong, FileTree.nameTooLong, h.limits]

/-- The same paths are too long. -/
theorem KeepsDirectories.pathTooLong (h : t.KeepsDirectories u) (path : String) :
    u.pathTooLong path = t.pathTooLong path := by
  rw [FileTree.pathTooLong, FileTree.pathTooLong, h.limits]

/-- Anything may be put where no directory stands. -/
theorem keepsDirectories_put (h : t.node? place ≠ some .directory) (node : Node) :
    t.KeepsDirectories (t.put place node) := by
  refine ⟨rfl, fun other hother => ?_⟩
  rw [node?_put (ne_nil_of_node? h), if_neg, hother]
  rintro rfl
  exact h hother

/-- What is no directory may be erased. -/
theorem keepsDirectories_erase (h : t.node? place ≠ some .directory) :
    t.KeepsDirectories (t.erase place) := by
  refine ⟨rfl, fun other hother => ?_⟩
  rw [node?_erase, if_neg, hother]
  rintro ⟨rfl, -⟩
  exact h hother

/-! ## Walks -/

/-- A walk along names is one along the first, and from there along the others. -/
theorem walk_cons (t : FileTree) (place : List String) (name : String) (names : List String) :
    t.walk place (name :: names) =
      (t.walk place [name]).bind fun next => t.walk next names := by
  simp only [walk]
  cases t.node? place with
  | none => rfl
  | some node => cases node <;> (try rfl); split_ifs <;> rfl

/-- A walk along names and more names is one along the names, and from there along the others. -/
theorem walk_append (t : FileTree) (place : List String) (names more : List String) :
    t.walk place (names ++ more) = (t.walk place names).bind fun next => t.walk next more := by
  induction names generalizing place with
  | nil => rfl
  | cons name names ih =>
      rw [List.cons_append, walk_cons, walk_cons t place name names]
      cases t.walk place [name] with
      | error fault => rfl
      | ok next => exact ih next

/-- A name is walked along from a directory: a dot stays there, two dots lead above it, and any
other name below it. -/
theorem walk_single {name : String} (h : t.walk place [name] = .ok next) :
    t.node? place = some .directory ∧
      (name = "." ∧ next = place ∨ name = ".." ∧ next = place.dropLast ∨
        name ≠ "." ∧ name ≠ ".." ∧ next = place ++ [name]) := by
  rw [walk] at h
  cases hnode : t.node? place with
  | none =>
      rw [hnode] at h
      cases h
  | some node =>
      rw [hnode] at h
      cases node with
      | file | program | nullDevice => cases h
      | directory =>
          refine ⟨rfl, ?_⟩
          simp only [walk] at h
          split_ifs at h with hdot hdots hlong <;> cases h
          · exact .inl ⟨hdot, rfl⟩
          · exact .inr (.inl ⟨hdots, rfl⟩)
          · exact .inr (.inr ⟨hdot, hdots, rfl⟩)

/-- A walk along names without dots puts the names behind the place. -/
theorem walk_plain (hplain : ∀ name ∈ names, name ≠ "." ∧ name ≠ "..")
    (h : t.walk place names = .ok next) : next = place ++ names := by
  induction names generalizing place with
  | nil =>
      cases h
      rw [List.append_nil]
  | cons name names ih =>
      obtain ⟨hdot, hdots⟩ := hplain name List.mem_cons_self
      rw [walk_cons] at h
      cases hfirst : t.walk place [name] with
      | error fault =>
          rw [hfirst] at h
          cases h
      | ok mid =>
          rw [hfirst] at h
          obtain ⟨-, ⟨rfl, -⟩ | ⟨rfl, -⟩ | ⟨-, -, rfl⟩⟩ := walk_single hfirst
          · exact absurd rfl hdot
          · exact absurd rfl hdots
          · rw [ih (fun other hother => hplain other (List.mem_cons_of_mem name hother)) h,
              List.append_assoc, List.singleton_append]

/-- A walk depends on the directories on the way only. -/
theorem KeepsDirectories.walk (h : t.KeepsDirectories u) (hwalk : t.walk place names = .ok next) :
    u.walk place names = .ok next := by
  induction names generalizing place with
  | nil => exact hwalk
  | cons name names ih =>
      rw [FileTree.walk] at hwalk ⊢
      cases hnode : t.node? place with
      | none =>
          rw [hnode] at hwalk
          cases hwalk
      | some node =>
          rw [hnode] at hwalk
          cases node with
          | file | program | nullDevice => cases hwalk
          | directory =>
              rw [h.directory place hnode]
              simp only [h.nameTooLong] at hwalk ⊢
              split_ifs at hwalk ⊢ with hdot hdots hlong
              · exact ih hwalk
              · exact ih hwalk
              · exact ih hwalk

/-- A path that leads somewhere is not empty, and its names are walked along. -/
theorem resolve_eq_ok (h : t.resolve cwd path = .ok place) : path ≠ "" ∧
    t.walk (if path.startsWith "/" then [] else cwd) (steps path) = .ok place := by
  rw [resolve] at h
  by_cases hnul : path.contains '\x00' = true
  · rw [if_pos hnul] at h
    cases h
  by_cases hempty : path = ""
  · rw [if_neg hnul, if_pos hempty] at h
    cases h
  by_cases hlong : t.pathTooLong path = true
  · rw [if_neg hnul, if_neg hempty, if_pos hlong] at h
    cases h
  rw [if_neg hnul, if_neg hempty, if_neg hlong] at h
  exact ⟨hempty, h⟩

/-- A path that leads somewhere still does. -/
theorem KeepsDirectories.resolve (h : t.KeepsDirectories u)
    (hresolve : t.resolve cwd path = .ok place) : u.resolve cwd path = .ok place := by
  rw [FileTree.resolve] at hresolve ⊢
  rw [h.pathTooLong]
  split_ifs at hresolve ⊢ with hnul hempty hlong
  · exact h.walk hresolve
  · exact h.walk hresolve

/-! ## Making directories -/

/-- A missing directory is made, and the others below it. -/
theorem makeDirectories_cons_none {name : String} (hwalk : t.walk place [name] = .ok next)
    (hnode : t.node? next = none) (rest : List String) :
    t.makeDirectories place (name :: rest) = (t.put next .directory).makeDirectories next rest := by
  rw [makeDirectories, hwalk]
  simp only [hnode]

/-- Below a directory that is there, the others are made. -/
theorem makeDirectories_cons_directory {name : String} (hwalk : t.walk place [name] = .ok next)
    (hnode : t.node? next = some .directory) (rest : List String) :
    t.makeDirectories place (name :: rest) = t.makeDirectories next rest := by
  rw [makeDirectories, hwalk]
  simp only [hnode]

/-- Where directories can be made, the first is missing or there, and the others are made below. -/
theorem makeDirectories_cons {name : String} {rest : List String}
    (h : t.makeDirectories place (name :: rest) = (u, none)) :
    ∃ next, t.walk place [name] = .ok next ∧
      (t.node? next = none ∧ (t.put next .directory).makeDirectories next rest = (u, none) ∨
        t.node? next = some .directory ∧ t.makeDirectories next rest = (u, none)) := by
  rw [makeDirectories] at h
  cases hwalk : t.walk place [name] with
  | error fault =>
      rw [hwalk] at h
      cases h
  | ok next =>
      simp only [hwalk] at h
      refine ⟨next, rfl, ?_⟩
      cases hnode : t.node? next with
      | none =>
          rw [hnode] at h
          exact .inl ⟨rfl, h⟩
      | some node =>
          rw [hnode] at h
          cases node with
          | file | program | nullDevice => cases h
          | directory => exact .inr ⟨rfl, h⟩

/-- Directories that were made stay made: making them again changes nothing. -/
theorem makeDirectories_made (h : t.makeDirectories place names = (u, none)) :
    t.KeepsDirectories u ∧
      ∀ v, u.KeepsDirectories v → v.makeDirectories place names = (v, none) := by
  induction names generalizing t place with
  | nil =>
      cases h
      exact ⟨keepsDirectories_refl _, fun v _ => rfl⟩
  | cons name names ih =>
      obtain ⟨next, hwalk, ⟨hnode, hmakes⟩ | ⟨hnode, hmakes⟩⟩ := makeDirectories_cons h
      · have hnone : t.node? next ≠ some .directory := by simp [hnode]
        have hput := keepsDirectories_put hnone .directory
        have hmade : (t.put next .directory).node? next = some .directory := by
          rw [node?_put (ne_nil_of_node? hnone), if_pos rfl]
        obtain ⟨hkeeps, hagain⟩ := ih hmakes
        refine ⟨hput.trans hkeeps, fun v hv => ?_⟩
        rw [makeDirectories_cons_directory (((hput.trans hkeeps).trans hv).walk hwalk)
          (hv.directory next (hkeeps.directory next hmade)), hagain v hv]
      · obtain ⟨hkeeps, hagain⟩ := ih hmakes
        refine ⟨hkeeps, fun v hv => ?_⟩
        rw [makeDirectories_cons_directory ((hkeeps.trans hv).walk hwalk)
          (hv.directory next (hkeeps.directory next hnode)), hagain v hv]

/-- A path of directories that were made stays one. -/
theorem makeDirectoryPath_made (h : t.makeDirectoryPath cwd path = (u, none)) :
    t.KeepsDirectories u ∧
      ∀ v, u.KeepsDirectories v → v.makeDirectoryPath cwd path = (v, none) := by
  rw [makeDirectoryPath] at h
  by_cases hnul : path.contains '\x00' = true
  · rw [if_pos hnul] at h
    cases h
  by_cases hlong : t.pathTooLong path = true
  · rw [if_neg hnul, if_pos hlong] at h
    cases h
  rw [if_neg hnul, if_neg hlong] at h
  obtain ⟨hkeeps, hrest⟩ := makeDirectories_made h
  refine ⟨hkeeps, fun v hv => ?_⟩
  rw [makeDirectoryPath, if_neg hnul, (hkeeps.trans hv).pathTooLong, if_neg hlong]
  exact hrest v hv

/-! ## Names with something behind them -/

/-- A text is in pieces between its slashes, and what is put behind it is put behind the last piece.
That piece is empty if the text ends with a slash. -/
theorem splitOn_slash (text : List Char) : ∃ front last,
    text.splitOn '/' = front ++ [last] ∧ (text.getLast? = some '/' ↔ text ≠ [] ∧ last = []) ∧
    ∀ suffix, '/' ∉ suffix → (text ++ suffix).splitOn '/' = front ++ [last ++ suffix] := by
  by_cases hslash : '/' ∈ text
  · obtain ⟨after, before, hreverse, hafter⟩ :=
      List.eq_append_cons_of_mem (List.mem_reverse.mpr hslash)
    have htext : text = before.reverse ++ '/' :: after.reverse := by
      rw [← List.reverse_reverse text, hreverse]
      simp
    have hlast : '/' ∉ after.reverse := fun h => hafter (List.mem_reverse.mp h)
    refine ⟨before.reverse.splitOn '/', after.reverse, ?_, ?_, fun suffix hsuffix => ?_⟩
    · rw [htext, List.splitOn_append_cons_self, List.splitOn_eq_singleton hlast]
    · by_cases hempty : after.reverse = []
      · refine iff_of_true ?_ ⟨List.ne_nil_of_mem hslash, hempty⟩
        rw [htext, hempty, List.getLast?_concat]
      · refine iff_of_false (fun h => hlast ?_) fun h => hempty h.2
        rw [htext, ← List.singleton_append, ← List.append_assoc, List.getLast?_append,
          List.getLast?_eq_some_getLast hempty, Option.some_or] at h
        exact Option.some.inj h ▸ List.getLast_mem hempty
    · have hmore : '/' ∉ after.reverse ++ suffix := fun h =>
        (List.mem_append.mp h).elim hlast hsuffix
      rw [htext, List.append_assoc, List.cons_append, List.splitOn_append_cons_self,
        List.splitOn_eq_singleton hmore]
  · refine ⟨[], text, ?_, ?_, fun suffix hsuffix => ?_⟩
    · rw [List.splitOn_eq_singleton hslash, List.nil_append]
    · exact iff_of_false (fun h => hslash (List.mem_of_getLast? h)) fun h => h.1 h.2
    · have hmore : '/' ∉ text ++ suffix := fun h => (List.mem_append.mp h).elim hslash hsuffix
      rw [List.splitOn_eq_singleton hmore, List.nil_append]

/-- The names on a path that does not end with a slash are those of the pieces. -/
theorem steps_of_splitOn {front : List (List Char)} {last : List Char}
    (hsplit : path.toList.splitOn '/' = front ++ [last]) (hlast : last ≠ [])
    (hend : path.toList.getLast? ≠ some '/') :
    steps path = (front.map String.ofList).filter (· != "") ++ [.ofList last] := by
  have hname : String.ofList last ≠ "" := by simpa [← String.toList_inj] using hlast
  rw [steps, if_neg hend, hsplit, List.map_append, List.filter_append, List.map_singleton]
  simp [hname]

/-- What is put behind a path is put behind its last name. -/
theorem steps_append (h : path ≠ "") : ∃ front last,
    steps path = front ++ [if last = "" then "." else last] ∧
    ∀ suffix : String, suffix ≠ "" → '/' ∉ suffix.toList →
      steps (path ++ suffix) = front ++ [last ++ suffix] := by
  obtain ⟨front, last, hsplit, hend, happend⟩ := splitOn_slash path.toList
  have hpath : path.toList ≠ [] := by simpa using h
  refine ⟨(front.map String.ofList).filter (· != ""), .ofList last, ?_, fun suffix hne hslash => ?_⟩
  · by_cases hlast : last = []
    · subst hlast
      rw [steps, if_pos (hend.mpr ⟨hpath, rfl⟩), hsplit]
      simp
    · rw [steps_of_splitOn hsplit hlast fun h => hlast (hend.mp h).2, if_neg]
      simpa [← String.toList_inj] using hlast
  · have hsuffix : suffix.toList ≠ [] := by simpa using hne
    have hlast : (String.ofList last ++ suffix) = .ofList (last ++ suffix.toList) := by
      rw [String.ofList_append, String.ofList_toList]
    rw [hlast]
    refine steps_of_splitOn ?_ (by simp [hsuffix]) fun h => ?_
    · rw [String.toList_append, happend _ hslash]
    · rw [String.toList_append, List.getLast?_append, List.getLast?_eq_some_getLast hsuffix,
        Option.some_or] at h
      exact hslash (Option.some.inj h ▸ List.getLast_mem hsuffix)

/-- What is put behind a path does not change where it starts from. -/
theorem startsWith_append (h : path ≠ "") (suffix : String) :
    (path ++ suffix).startsWith "/" = path.startsWith "/" := by
  obtain ⟨c, rest, hpath⟩ := List.exists_cons_of_ne_nil (show path.toList ≠ [] by simpa using h)
  rw [Bool.eq_iff_iff, String.startsWith_string_iff, String.startsWith_string_iff,
    String.toList_append, hpath]
  simp

/-- A path and the same path with something behind it lead to different places. -/
theorem resolve_append_ne {suffix : String} (hlength : 2 < suffix.length)
    (hslash : '/' ∉ suffix.toList) (h : t.resolve cwd path = .ok place)
    (hother : t.resolve cwd (path ++ suffix) = .ok other) : other ≠ place := by
  obtain ⟨hempty, hwalk⟩ := resolve_eq_ok h
  obtain ⟨-, hlonger⟩ := resolve_eq_ok hother
  obtain ⟨front, last, hsteps, happend⟩ := steps_append hempty
  have hsuffix : suffix ≠ "" := by
    rintro rfl
    exact absurd hlength (by decide)
  rw [hsteps, walk_append] at hwalk
  rw [startsWith_append hempty, happend suffix hsuffix hslash, walk_append] at hlonger
  cases hfront : t.walk (if path.startsWith "/" then [] else cwd) front with
  | error fault =>
      rw [hfront] at hwalk
      cases hwalk
  | ok mid =>
      rw [hfront] at hwalk hlonger
      have hlong : 2 < (last ++ suffix).length := by
        rw [String.length_append]
        omega
      -- The longer name is below the place before it, the shorter one below it with another name,
      -- or not below it.
      have hbelow : other = mid ++ [last ++ suffix] := by
        obtain ⟨-, ⟨hname, -⟩ | ⟨hname, -⟩ | ⟨-, -, hother⟩⟩ := walk_single hlonger
        · rw [hname] at hlong
          exact absurd hlong (by decide)
        · rw [hname] at hlong
          exact absurd hlong (by decide)
        · exact hother
      rintro rfl
      obtain ⟨-, ⟨-, hplace⟩ | ⟨-, hplace⟩ | ⟨-, -, hplace⟩⟩ := walk_single hwalk
      · simp [hbelow] at hplace
      · have hshorter := congrArg List.length (hbelow.symm.trans hplace)
        simp at hshorter
        omega
      · rw [hbelow] at hplace
        have hname := List.singleton_inj.mp (List.append_cancel_left hplace)
        split_ifs at hname with hlast
        · rw [hname] at hlong
          exact absurd hlong (by decide)
        · have hsame := congrArg String.length hname
          rw [String.length_append] at hsame
          omega

/-! ## What a path leads to -/

/-- What a path leads to is what stands at its place. -/
theorem lookup_at (h : t.resolve cwd path = .ok place) :
    t.lookup cwd path = match t.node? place with
      | some node => .ok (place, node)
      | none => .error .notFound := by
  rw [lookup, h]
  rfl

/-- A path that has no place leads to nothing. -/
theorem lookup_error {fault : FileFault} (h : t.resolve cwd path = .error fault) :
    t.lookup cwd path = .error fault := by
  rw [lookup, h]
  rfl

/-! ## Changing files -/

/-- What changing a file does depends on what stands where its path leads. -/
theorem modify_at (h : t.resolve cwd path = .ok place) (f : ByteArray → ByteArray) :
    t.modify cwd path f = match t.node? place with
      | none =>
        if t.isDirectoryAt place.dropLast then .ok (t.put place (.file (f .empty)))
        else .error FileFault.notFound
      | some (.file content) => .ok (t.put place (.file (f content)))
      | some .directory => .error FileFault.isDirectory
      | some (.program _) => .ok (t.put place (.file (f .empty)))
      | some .nullDevice => .ok t := by
  rw [modify, h]
  rfl

/-- A file is changed where its path leads, or is made there. -/
theorem modify_eq_ok {f : ByteArray → ByteArray} (h : t.modify cwd path f = .ok u) :
    ∃ place, t.resolve cwd path = .ok place ∧ t.node? place ≠ some .directory ∧
      (u = t ∨ ∃ content, u = t.put place (.file (f content)) ∧
        ∀ found, t.node? place = some (.file found) → content = found) := by
  cases hresolve : t.resolve cwd path with
  | error fault =>
      rw [modify, hresolve] at h
      cases h
  | ok place =>
      rw [modify_at hresolve] at h
      refine ⟨place, rfl, ?_⟩
      split at h
      · rename_i hnode
        split_ifs at h
        cases h
        rw [hnode]
        exact ⟨nofun, .inr ⟨_, rfl, nofun⟩⟩
      · rename_i content hnode
        cases h
        rw [hnode]
        exact ⟨nofun, .inr ⟨content, rfl, fun found hfound => by cases hfound; rfl⟩⟩
      · cases h
      · rename_i hnode
        cases h
        rw [hnode]
        exact ⟨nofun, .inr ⟨_, rfl, nofun⟩⟩
      · rename_i hnode
        cases h
        rw [hnode]
        exact ⟨nofun, .inl rfl⟩

/-- Changing a file keeps the directories and every other file; where nothing is changed in the
file, every file. -/
theorem modify_keeps {f : ByteArray → ByteArray} (h : t.modify cwd path f = .ok u) :
    t.KeepsDirectories u ∧ ∀ other content, t.node? other = some (.file content) →
      f content = content ∨ t.resolve cwd path ≠ .ok other →
      u.node? other = some (.file content) := by
  obtain ⟨place, hresolve, hplace, rfl | ⟨content, rfl, hcontent⟩⟩ := modify_eq_ok h
  · exact ⟨keepsDirectories_refl _, fun _ _ hother _ => hother⟩
  · refine ⟨keepsDirectories_put hplace _, fun other found hother hsame => ?_⟩
    rw [node?_put (ne_nil_of_node? hplace)]
    by_cases heq : place = other
    · subst heq
      obtain rfl := hcontent found hother
      rcases hsame with hsame | hne
      · rw [if_pos rfl, hsame]
      · exact absurd hresolve hne
    · rw [if_neg heq, hother]

/-- A file is written where its path leads to one. -/
theorem write_file {content : ByteArray} (hresolve : t.resolve cwd path = .ok place)
    (hnode : t.node? place = some (.file content)) (written : ByteArray) :
    t.write cwd path written = .ok (t.put place (.file written)) := by
  rw [write, modify_at hresolve, hnode]

/-- What is removed stands where the path leads, and is no directory. -/
theorem remove_eq_ok (h : t.remove cwd path = .ok u) :
    ∃ place, t.resolve cwd path = .ok place ∧ t.node? place ≠ some .directory ∧
      u = t.erase place := by
  cases hresolve : t.resolve cwd path with
  | error fault =>
      rw [remove, lookup_error hresolve] at h
      cases h
  | ok place =>
      refine ⟨place, rfl, ?_⟩
      rw [remove, lookup_at hresolve] at h
      cases hnode : t.node? place with
      | none =>
          rw [hnode] at h
          cases h
      | some node =>
          rw [hnode] at h
          cases node with
          | directory => cases h
          | file | program | nullDevice =>
              cases h
              exact ⟨by simp, rfl⟩

/-- Removing a file keeps the directories and every other file. -/
theorem remove_keeps (h : t.remove cwd path = .ok u) :
    t.KeepsDirectories u ∧ ∀ other content, t.node? other = some (.file content) →
      t.resolve cwd path ≠ .ok other → u.node? other = some (.file content) := by
  obtain ⟨place, hresolve, hplace, rfl⟩ := remove_eq_ok h
  refine ⟨keepsDirectories_erase hplace, fun other content hother hne => ?_⟩
  rw [node?_erase, if_neg, hother]
  rintro ⟨rfl, -⟩
  exact hne hresolve

end ScriptHost.FileTree
