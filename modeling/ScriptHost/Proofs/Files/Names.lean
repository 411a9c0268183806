import Mathlib.Tactic.SplitIfs
import ScriptHost.FileTree

/-!
# Names on a path

What a path says before any tree is asked: whether it starts from the root, and the names on it from
left to right. Joining a directory and a relative path keeps where the directory starts from and
puts the names behind one another, `names_joinPath`; an entry of a directory has one name more than
the directory, `IsEntryName.names_joinPath`, and the path of what is above a file has all names but
the last, `parentPath?_append`.
-/

namespace ScriptHost

/-! ## Slashes -/

theorem startsWith_slash_iff {path : String} :
    path.startsWith "/" = true ↔ path.toList.head? = some '/' := by
  rw [String.startsWith_string_iff]
  cases path.toList <;> simp [eq_comm]

theorem startsWith_slash (path : String) :
    path.startsWith "/" = decide (path.toList.head? = some '/') := by
  rw [Bool.eq_iff_iff, startsWith_slash_iff, decide_eq_true_iff]

theorem endsWith_slash_iff {path : String} :
    path.endsWith "/" = true ↔ path.toList.getLast? = some '/' := by
  rw [String.endsWith, String.Slice.endsWith_string_iff, String.copy_toSlice]
  constructor
  · rintro ⟨front, hfront⟩
    rw [← hfront]
    simp
  · intro hlast
    obtain ⟨front, hfront⟩ := List.getLast?_eq_some_iff.mp hlast
    exact ⟨front, hfront.symm⟩

/-- What a relative path is put behind, so that it is below the directory. -/
def directoryFront (directory : String) : String :=
  if directory = "" ∨ directory.toList.getLast? = some '/' then directory else directory ++ "/"

theorem joinPath_relative {file : String} (h : file.toList.head? ≠ some '/') (directory : String) :
    joinPath directory file = directoryFront directory ++ file := by
  rw [joinPath, directoryFront, if_neg (by rwa [startsWith_slash_iff])]
  simp only [Bool.or_eq_true, decide_eq_true_eq, endsWith_slash_iff]
  split_ifs <;> rfl

/-- A directory is the front of what is below it. -/
theorem prefix_directoryFront (directory : String) :
    directory.toList <+: (directoryFront directory).toList := by
  rw [directoryFront]
  split_ifs
  · exact List.prefix_rfl
  · rw [String.toList_append]
    exact List.prefix_append _ _

theorem directoryFront_ends (directory : String) :
    (directoryFront directory).toList = [] ∨
      (directoryFront directory).toList.getLast? = some '/' := by
  rw [directoryFront]
  split_ifs with h
  · exact h.imp_left fun hempty => by rw [hempty]; rfl
  · exact .inr (by simp)

/-- Nothing but a slash is put behind a directory, and only if there is one. -/
theorem head?_directoryFront (directory : String) :
    (directoryFront directory).toList.head? = directory.toList.head? := by
  rw [directoryFront]
  split_ifs with h
  · rfl
  · obtain ⟨c, rest, hchars⟩ := List.exists_cons_of_ne_nil
      (show directory.toList ≠ [] by simpa using fun hempty => h (.inl hempty))
    simp [hchars]

/-- What is below a directory starts from where the directory starts from. -/
theorem startsWith_joinPath {file : String} (h : file.toList.head? ≠ some '/')
    (directory : String) : (joinPath directory file).startsWith "/" = directory.startsWith "/" := by
  rw [joinPath_relative h, startsWith_slash, startsWith_slash, String.toList_append,
    List.head?_append, head?_directoryFront]
  cases directory.toList.head? with
  | none => simp [h]
  | some c => simp

namespace FileTree

/-! ## Names -/

/-- Where a path starts from: the root directory, or else the working directory. -/
def origin (cwd : List String) (path : String) : List String :=
  if path.startsWith "/" then [] else cwd

/-- The names in a text, from left to right: what stands between its slashes. -/
def namesIn (text : List Char) : List String :=
  ((text.splitOn '/').map String.ofList).filter (· != "")

/-- The names on a path. -/
def names (path : String) : List String :=
  namesIn path.toList

/-- A path is walked along its names, and along a dot where it ends with a slash. -/
theorem steps_eq_names (path : String) :
    steps path = if path.toList.getLast? = some '/' then names path ++ ["."] else names path := by
  rw [steps, names, namesIn]

/-- The names around a slash are those before it and those after it. -/
theorem namesIn_append_slash (before after : List Char) :
    namesIn (before ++ '/' :: after) = namesIn before ++ namesIn after := by
  simp only [namesIn, List.splitOn_append_cons_self, List.map_append, List.filter_append]

theorem namesIn_nil : namesIn [] = [] := by
  decide

/-- A text without slashes is one name. -/
theorem namesIn_single {name : List Char} (hne : name ≠ []) (h : '/' ∉ name) :
    namesIn name = [.ofList name] := by
  rw [namesIn, List.splitOn_eq_singleton h]
  simp [hne]

/-- Names behind a text that ends with a slash are put behind its names. -/
theorem namesIn_append {before : List Char} (h : before = [] ∨ before.getLast? = some '/')
    (after : List Char) : namesIn (before ++ after) = namesIn before ++ namesIn after := by
  rcases h with rfl | hlast
  · rw [namesIn_nil, List.nil_append, List.nil_append]
  · obtain ⟨front, rfl⟩ := List.getLast?_eq_some_iff.mp hlast
    rw [List.append_assoc, List.singleton_append, namesIn_append_slash, namesIn_append_slash,
      namesIn_nil, List.append_nil]

/-- Slashes at the end of a text add no name. -/
theorem namesIn_append_slashes (text : List Char) {slashes : List Char}
    (h : ∀ c ∈ slashes, c = '/') : namesIn (text ++ slashes) = namesIn text := by
  induction slashes generalizing text with
  | nil => rw [List.append_nil]
  | cons c slashes ih =>
      have hc : c = '/' := h c List.mem_cons_self
      rw [List.append_cons, ih _ fun d hd => h d (List.mem_cons_of_mem c hd), hc,
        namesIn_append_slash, namesIn_nil, List.append_nil]

/-- The names on a relative path are put behind those of the directory. -/
theorem names_joinPath {file : String} (h : file.toList.head? ≠ some '/') (directory : String) :
    names (joinPath directory file) = names directory ++ names file := by
  rw [joinPath_relative h, names, String.toList_append,
    namesIn_append (directoryFront_ends directory), ← names]
  congr 1
  rw [directoryFront]
  split_ifs
  · rfl
  · rw [names, String.toList_append]
    exact namesIn_append_slashes _ (by simp)

/-! ## Names of entries -/

/-- A name that an entry of a directory can have: it is not empty, is neither of the two names that
lead elsewhere, and has no slash in it. -/
structure IsEntryName (name : String) : Prop where
  ne_empty : name ≠ ""
  ne_dot : name ≠ "."
  ne_dots : name ≠ ".."
  no_slash : '/' ∉ name.toList

namespace IsEntryName

variable {name : String}

theorem head?_ne (h : IsEntryName name) : name.toList.head? ≠ some '/' := fun hhead =>
  h.no_slash (List.mem_of_head? hhead)

/-- The name of an entry is the one name on it. -/
theorem names_eq (h : IsEntryName name) : names name = [name] := by
  rw [names, namesIn_single (by simpa using h.ne_empty) h.no_slash, String.ofList_toList]

/-- What ends with the name of an entry does not end with a slash. -/
theorem getLast?_append_ne (h : IsEntryName name) (front : List Char) :
    (front ++ name.toList).getLast? ≠ some '/' := by
  have hne : name.toList ≠ [] := by simpa using h.ne_empty
  rw [List.getLast?_append, List.getLast?_eq_some_getLast hne, Option.some_or]
  exact fun hlast => h.no_slash (Option.some.inj hlast ▸ List.getLast_mem hne)

/-- The path of an entry has one name more than that of its directory. -/
theorem names_joinPath (h : IsEntryName name) (directory : String) :
    names (joinPath directory name) = names directory ++ [name] := by
  rw [FileTree.names_joinPath h.head?_ne, h.names_eq]

/-- An entry is reached along the names of its directory and then its own. -/
theorem steps_joinPath (h : IsEntryName name) (directory : String) :
    steps (joinPath directory name) = names directory ++ [name] := by
  rw [steps_eq_names, if_neg, h.names_joinPath]
  rw [joinPath_relative h.head?_ne, String.toList_append]
  exact h.getLast?_append_ne _

end IsEntryName

/-! ## Parents -/

/-- A text is what comes before the slashes at its end, and those slashes. -/
theorem exists_append_slashes (text : List Char) : ∃ before slashes,
    text = before ++ slashes ∧ (∀ c ∈ slashes, c = '/') ∧ before.getLast? ≠ some '/' ∧
      text.reverse.dropWhile (· == '/') = before.reverse := by
  refine ⟨(text.reverse.dropWhile (· == '/')).reverse, (text.reverse.takeWhile (· == '/')).reverse,
    ?_, fun c hc => ?_, ?_, (List.reverse_reverse _).symm⟩
  · rw [← List.reverse_append, List.takeWhile_append_dropWhile, List.reverse_reverse]
  · have hslash := List.all_takeWhile (p := (· == '/')) (l := text.reverse)
    simpa using List.all_eq_true.mp hslash c (List.mem_reverse.mp hc)
  · rw [List.getLast?_reverse]
    intro hhead
    have hnot := List.head?_dropWhile_not (· == '/') text.reverse
    rw [hhead] at hnot
    simp at hnot

/-- The path of what is above a file: it has the names before the file's, starts from the same
place, and ends with a slash only if it has no name at all. -/
theorem parentPath?_append {path : String} {front last : List Char}
    (hpath : path.toList = front ++ last) (hfront : front = [] ∨ front.getLast? = some '/')
    (hne : last ≠ []) (hlast : '/' ∉ last) :
    ∃ parent, parentPath? path = some parent ∧ names parent = namesIn front ∧
      parent.startsWith "/" = path.startsWith "/" ∧
      (parent.toList.getLast? = some '/' → names parent = []) ∧ parent.toList <+: front := by
  have hslash (c : Char) (hc : c ∈ last.reverse) : c ≠ '/' := by
    rintro rfl
    exact hlast (List.mem_reverse.mp hc)
  have htrimmed : path.toList.reverse.dropWhile (· == '/') = last.reverse ++ front.reverse := by
    obtain ⟨c, rest, hrest⟩ := List.exists_cons_of_ne_nil (List.reverse_ne_nil_iff.mpr hne)
    rw [hpath, List.reverse_append, hrest, List.cons_append, List.dropWhile_cons_of_neg]
    simpa using hslash c (hrest ▸ List.mem_cons_self)
  have habove : (last.reverse ++ front.reverse).dropWhile (· != '/') = front.reverse := by
    rw [List.dropWhile_append_of_pos (by simpa using hslash)]
    rcases hfront with rfl | hend
    · rfl
    · obtain ⟨before, rfl⟩ := List.getLast?_eq_some_iff.mp hend
      simp
  obtain ⟨before, slashes, hsplit, hslashes, hbefore, hdrop⟩ := exists_append_slashes front
  have hnil : (last.reverse ++ front.reverse).isEmpty = false := by simp [hne]
  rw [parentPath?, htrimmed]
  simp only [hnil, habove, hdrop, Bool.false_eq_true, if_false]
  refine ⟨_, rfl, ?_⟩
  subst hsplit
  have hnames : namesIn (before ++ slashes) = namesIn before :=
    namesIn_append_slashes before hslashes
  rw [startsWith_slash, startsWith_slash, names, hpath, hnames, String.toList_ofList]
  cases before with
  | nil =>
      cases slashes with
      | nil =>
          -- the path is a single name, and what is above it has none
          obtain ⟨c, rest, rfl⟩ := List.exists_cons_of_ne_nil hne
          have hc : c ≠ '/' := fun hc => hlast (hc ▸ List.mem_cons_self)
          simp [hc]
      | cons c slashes =>
          -- what is above it is the root
          obtain rfl : c = '/' := hslashes c List.mem_cons_self
          have hroot : namesIn ['/'] = [] := by decide
          simp [hroot, namesIn_nil]
  | cons c before =>
      simp [hbefore]

end FileTree

end ScriptHost
