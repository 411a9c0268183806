import Mathlib.Data.List.Induction
import Mathlib.Tactic.ByContra
import ScriptHost.Proofs.Files.Names
import ScriptHost.Proofs.Files.Tree

/-!
# Directories in a file tree

How a tree is walked, and directories are made in it, where nothing but directories can stand in the
way: `walk_below` and `makeDirectories_below`. A path is `Fresh` when a directory is at it or can be
made there, with nothing below it; one that leads to nothing, or to an empty directory, is so,
`fresh_of_free`.
-/

namespace ScriptHost.FileTree

variable {t u : FileTree} {place next top : List String} {names rest : List String}

/-! ## What a path may be -/

/-- No name is a dot or two dots, or longer than the limits allow. -/
def Plain (t : FileTree) (names : List String) : Prop :=
  ∀ name ∈ names, name ≠ "." ∧ name ≠ ".." ∧ t.nameTooLong name = false

theorem KeepsDirectories.plain (h : t.KeepsDirectories u) (hplain : t.Plain names) :
    u.Plain names := by
  intro name hname
  rw [h.nameTooLong]
  exact hplain name hname

/-- A path has characters and lengths that the tree allows. -/
structure Admits (t : FileTree) (path : String) : Prop where
  no_nul : '\x00' ∉ path.toList
  path_length : t.pathTooLong path = false
  name_length : ∀ name ∈ FileTree.names path, t.nameTooLong name = false

theorem KeepsDirectories.admits (h : t.KeepsDirectories u) {path : String} (hpath : t.Admits path) :
    u.Admits path where
  no_nul := hpath.no_nul
  path_length := (h.pathTooLong path).trans hpath.path_length
  name_length := fun name hname => (h.nameTooLong name).trans (hpath.name_length name hname)

/-- A tree without limits allows every path without a null character. -/
theorem admits_of_no_limits (h : t.limits = none) {path : String} (hpath : '\x00' ∉ path.toList) :
    t.Admits path where
  no_nul := hpath
  path_length := by rw [pathTooLong, h, Option.any_none]
  name_length := fun name _ => by rw [nameTooLong, h, Option.any_none]

/-- A path that a tree allows leads where its names do. -/
theorem Admits.resolve {path : String} (h : t.Admits path) (hne : path ≠ "") (cwd : List String) :
    t.resolve cwd path = t.walk (origin cwd path) (steps path) := by
  have hnul : ¬ path.contains '\x00' = true := by
    rw [String.contains_char_eq, decide_eq_true_iff]
    exact h.no_nul
  rw [FileTree.resolve, if_neg hnul, if_neg hne, if_neg (Bool.eq_false_iff.mp h.path_length),
    origin]

/-- Directories on the front of a path that a tree allows are made for its names. -/
theorem Admits.makeDirectoryPath {path parent : String} (h : t.Admits path)
    (hbegin : parent.toList <+: path.toList) (cwd : List String) :
    t.makeDirectoryPath cwd parent = t.makeDirectories (origin cwd parent) (steps parent) := by
  obtain ⟨rest, hrest⟩ := hbegin
  have hpath : path = parent ++ .ofList rest := by
    rw [← String.toList_inj, String.toList_append, String.toList_ofList, hrest]
  have hnul : ¬ parent.contains '\x00' = true := by
    rw [String.contains_char_eq, decide_eq_true_iff]
    exact fun hmem => h.no_nul (hrest ▸ List.mem_append_left rest hmem)
  have hlong : ¬ t.pathTooLong parent = true := by
    have hpathLength := h.path_length
    rw [pathTooLong, hpath] at hpathLength
    rw [pathTooLong]
    cases ht : t.limits with
    | none => exact Bool.false_ne_true
    | some limits =>
        rw [ht] at hpathLength
        simp only [Option.any_some, decide_eq_false_iff_not, decide_eq_true_eq,
          String.utf8ByteSize_append] at hpathLength ⊢
        omega
  rw [FileTree.makeDirectoryPath, if_neg hnul, if_neg hlong, origin]

/-! ## Walks between directories -/

/-- From a directory a name leads below it, or a dot to it. -/
theorem walk_directory {name : String} (hplace : t.node? place = some .directory)
    (hdots : name ≠ "..") (hshort : t.nameTooLong name = false) :
    t.walk place [name] = .ok (if name = "." then place else place ++ [name]) := by
  rw [walk, hplace]
  simp only [if_neg hdots, hshort, Bool.false_eq_true, if_false, walk]
  split_ifs <;> rfl

/-- From a directory a plain name leads below it. -/
theorem Plain.walk_head {name : String} (h : t.Plain (name :: names))
    (hplace : t.node? place = some .directory) :
    t.walk place [name] = .ok (place ++ [name]) := by
  obtain ⟨hdot, hdots, hshort⟩ := h name List.mem_cons_self
  rw [walk_directory hplace hdots hshort, if_neg hdot]

/-- Where only directories stand above the last name, a walk goes down to the last name, or ends
because nothing stands somewhere above it. -/
theorem walk_below (hplain : t.Plain names)
    (hopen : ∀ above, above <+: names → above ≠ names →
      t.node? (place ++ above) = none ∨ t.node? (place ++ above) = some .directory) :
    t.walk place names = .ok (place ++ names) ∨
      t.walk place names = .error .notFound ∧
        ∃ above, above <+: names ∧ above ≠ names ∧ t.node? (place ++ above) = none := by
  induction names generalizing place with
  | nil => exact .inl (by rw [walk, List.append_nil])
  | cons name rest ih =>
      have hplace := hopen [] List.nil_prefix (List.cons_ne_nil name rest).symm
      rw [List.append_nil] at hplace
      rcases hplace with hnone | hdirectory
      · refine .inr ⟨?_, [], List.nil_prefix, (List.cons_ne_nil name rest).symm, ?_⟩
        · rw [walk, hnone]
        · rw [List.append_nil, hnone]
      · have hopenRest (above : List String) (habove : above <+: rest) (hne : above ≠ rest) :
            t.node? (place ++ [name] ++ above) = none ∨
              t.node? (place ++ [name] ++ above) = some .directory := by
          rw [List.append_assoc]
          exact hopen (name :: above) (List.cons_prefix_cons.mpr ⟨rfl, habove⟩) (by simpa using hne)
        have hrest := ih (fun other hother => hplain other (List.mem_cons_of_mem name hother))
          hopenRest
        rw [walk_cons, hplain.walk_head hdirectory]
        rcases hrest with hok | ⟨herror, above, habove, hne, hnone⟩
        · exact .inl (hok.trans (by rw [List.append_assoc, List.singleton_append]))
        · refine .inr ⟨herror, name :: above, List.cons_prefix_cons.mpr ⟨rfl, habove⟩,
            by simpa using hne, ?_⟩
          rw [← hnone, List.append_assoc, List.singleton_append]

/-! ## Making directories -/

/-- Directories along names and more names are made along the names, and from there along the
others. -/
theorem makeDirectories_append (hmakes : t.makeDirectories place names = (u, none))
    (hleads : u.walk place names = .ok next) (more : List String) :
    t.makeDirectories place (names ++ more) = u.makeDirectories next more := by
  induction names generalizing t place with
  | nil =>
      cases hmakes
      cases hleads
      rfl
  | cons name names ih =>
      have hkeeps := (makeDirectories_made hmakes).1
      obtain ⟨mid, hwalk, ⟨hnone, hrest⟩ | ⟨hdirectory, hrest⟩⟩ := makeDirectories_cons hmakes
      · rw [walk_cons, hkeeps.walk hwalk] at hleads
        rw [List.cons_append, makeDirectories_cons_none hwalk hnone]
        exact ih hrest hleads
      · rw [walk_cons, hkeeps.walk hwalk] at hleads
        rw [List.cons_append, makeDirectories_cons_directory hwalk hdirectory]
        exact ih hrest hleads

/-- Directories are made along the names on a path, where a slash at its end means the place that is
started from, if anything. -/
theorem makeDirectories_steps {path : String}
    (hend : path.toList.getLast? = some '/' → FileTree.names path = [])
    (hplace : FileTree.names path = [] → t.node? place = some .directory) :
    t.makeDirectories place (steps path) = t.makeDirectories place (FileTree.names path) := by
  rw [steps_eq_names]
  split_ifs with hslash
  · have hnil := hend hslash
    have hdot : t.walk place ["."] = .ok place := by
      rw [walk, hplace hnil]
      rfl
    rw [hnil, List.nil_append, makeDirectories_cons_directory hdot (hplace hnil)]
  · rfl

/-- Making directories leaves everything that is there. -/
theorem makeDirectories_node? (hmakes : t.makeDirectories place names = (u, none))
    {other : List String} {node : Node} (h : t.node? other = some node) :
    u.node? other = some node := by
  induction names generalizing t place with
  | nil =>
      cases hmakes
      exact h
  | cons name names ih =>
      obtain ⟨mid, -, ⟨hnone, hrest⟩ | ⟨-, hrest⟩⟩ := makeDirectories_cons hmakes
      · have hmid : mid ≠ other := by
          rintro rfl
          rw [h] at hnone
          cases hnone
        have hne : mid ≠ [] := ne_nil_of_node? (t := t) (by simp [hnone])
        exact ih hrest (by rw [node?_put hne, if_neg hmid, h])
      · exact ih hrest h

/-- Directories that can be made lead somewhere then, and before they are made lead there or to
nothing. -/
theorem makeDirectories_walk (hmakes : t.makeDirectories place names = (u, none)) :
    ∃ next, u.walk place names = .ok next ∧
      (t.walk place names = .ok next ∨ t.walk place names = .error .notFound) := by
  induction names generalizing t place with
  | nil => exact ⟨place, rfl, .inl rfl⟩
  | cons name names ih =>
      have hkeeps := (makeDirectories_made hmakes).1
      obtain ⟨mid, hwalk, ⟨hnone, hrest⟩ | ⟨-, hrest⟩⟩ := makeDirectories_cons hmakes
      · rw [walk_cons, hkeeps.walk hwalk, walk_cons t, hwalk]
        obtain ⟨next, hnext, -⟩ := ih hrest
        refine ⟨next, hnext, ?_⟩
        cases names with
        | nil =>
            cases hnext
            exact .inl rfl
        | cons name names => exact .inr (by simp only [Except.bind, walk, hnone])
      · rw [walk_cons, hkeeps.walk hwalk, walk_cons t, hwalk]
        exact ih hrest

/-- Below a directory, directories can be made along names where nothing but directories stands.
Then there is a directory at each of the names, and everything else is as before. -/
theorem makeDirectories_below (hplain : t.Plain names)
    (hplace : t.node? place = some .directory)
    (hopen : ∀ above, above <+: names → above ≠ [] →
      t.node? (place ++ above) = none ∨ t.node? (place ++ above) = some .directory) :
    ∃ u, t.makeDirectories place names = (u, none) ∧
      (∀ above, above <+: names → u.node? (place ++ above) = some .directory) ∧
      ∀ other, (∀ above, above <+: names → above ≠ [] → other ≠ place ++ above) →
        u.node? other = t.node? other := by
  induction names generalizing t place with
  | nil =>
      refine ⟨t, rfl, fun above habove => ?_, fun other _ => rfl⟩
      rw [List.prefix_nil.mp habove, List.append_nil, hplace]
  | cons name names ih =>
      have hwalk := hplain.walk_head hplace
      have hbelow (above : List String) : (place ++ [name]) ++ above = place ++ name :: above := by
        rw [List.append_assoc, List.singleton_append]
      have hrest (above : List String) (habove : above <+: names) :
          name :: above <+: name :: names :=
        List.cons_prefix_cons.mpr ⟨rfl, habove⟩
      -- below the first name, from a tree that has a directory there and else is the same
      have hbelowFirst : ∀ v, t.KeepsDirectories v → v.node? (place ++ [name]) = some .directory →
          (∀ other, other ≠ place ++ [name] → v.node? other = t.node? other) →
          ∃ u, v.makeDirectories (place ++ [name]) names = (u, none) ∧
            (∀ above, above <+: name :: names → u.node? (place ++ above) = some .directory) ∧
            ∀ other, (∀ above, above <+: name :: names → above ≠ [] → other ≠ place ++ above) →
              u.node? other = t.node? other := by
        intro v hkeeps hmid hsame
        obtain ⟨u, hmakes, hmade, hframe⟩ := ih
          (hkeeps.plain fun other hother => hplain other (List.mem_cons_of_mem name hother)) hmid
          fun above habove hne => by
            rw [hbelow, hsame _ (by simpa using hne)]
            exact hopen (name :: above) (hrest above habove) (List.cons_ne_nil name above)
        refine ⟨u, hmakes, fun above habove => ?_, fun other hother => ?_⟩
        · cases above with
          | nil =>
              rw [List.append_nil]
              exact (hkeeps.trans (makeDirectories_made hmakes).1).directory place hplace
          | cons first above =>
              obtain ⟨rfl, htail⟩ := List.cons_prefix_cons.mp habove
              rw [← hbelow]
              exact hmade above htail
        · rw [hframe other fun above habove hne => ?_, hsame other ?_]
          · exact hother [name] (hrest [] List.nil_prefix) (List.cons_ne_nil name [])
          · rw [hbelow]
            exact hother (name :: above) (hrest above habove) (List.cons_ne_nil name above)
      rcases hopen [name] (hrest [] List.nil_prefix) (List.cons_ne_nil name []) with
        hnone | hdirectory
      · have hne : place ++ [name] ≠ [] := by simp
        rw [makeDirectories_cons_none hwalk hnone]
        refine hbelowFirst _ (keepsDirectories_put (by simp [hnone]) _) ?_ fun other hother => ?_
        · rw [node?_put hne, if_pos rfl]
        · rw [node?_put hne, if_neg hother.symm]
      · rw [makeDirectories_cons_directory hwalk hdirectory]
        exact hbelowFirst t (keepsDirectories_refl t) hdirectory fun _ _ => rfl

/-! ## Fresh paths -/

/-- A directory is at a place, and nothing is below it. -/
structure EmptyDirectory (t : FileTree) (place : List String) : Prop where
  directory : t.node? place = some .directory
  empty : ∀ below, below ≠ [] → t.node? (place ++ below) = none

/-- A directory can be made along names from a place, or is there, and nothing is below it then. -/
structure MakesEmpty (t : FileTree) (place names : List String) (made : FileTree)
    (top : List String) : Prop extends made.EmptyDirectory top where
  makes : t.makeDirectories place names = (made, none)
  leads : made.walk place names = .ok top

/-- A directory can be made at a path, or is there, and nothing is below it then. -/
def Fresh (t : FileTree) (cwd : List String) (path : String) : Prop :=
  ∃ made top, t.MakesEmpty (origin cwd path) (FileTree.names path) made top

/-- Everything stands in a directory. -/
def Closed (t : FileTree) : Prop :=
  ∀ place name, t.node? (place ++ [name]) ≠ none → t.node? place = some .directory

theorem closed_empty (limits : Option NameLimits) : Closed ⟨.empty, limits⟩ := by
  intro place name hname
  have hnone : node? ⟨.empty, limits⟩ (place ++ [name]) = none := by
    cases place <;> simp [node?]
  exact absurd hnone hname

/-- Nothing is below a place where nothing is. -/
theorem Closed.below_eq_none (h : t.Closed) (hplace : t.node? place = none) (below : List String) :
    t.node? (place ++ below) = none := by
  induction below using List.reverseRecOn with
  | nil => rw [List.append_nil, hplace]
  | append_singleton below name ih =>
      by_contra hname
      rw [← List.append_assoc] at hname
      rw [h _ _ hname] at ih
      cases ih

/-- A directory that is put where nothing is below is empty. -/
theorem emptyDirectory_put (hne : place ≠ [])
    (hempty : ∀ below, below ≠ [] → t.node? (place ++ below) = none) :
    (t.put place .directory).EmptyDirectory place where
  directory := by rw [node?_put hne, if_pos rfl]
  empty below hbelow := by
    rw [node?_put hne, if_neg (by simpa using hbelow)]
    exact hempty below hbelow

theorem MakesEmpty.cons_directory {name : String} {made : FileTree}
    (hwalk : t.walk place [name] = .ok next) (hnode : t.node? next = some .directory)
    (h : t.MakesEmpty next rest made top) : t.MakesEmpty place (name :: rest) made top where
  toEmptyDirectory := h.toEmptyDirectory
  makes := (makeDirectories_cons_directory hwalk hnode rest).trans h.makes
  leads := by
    rw [walk_cons, (makeDirectories_made h.makes).1.walk hwalk]
    exact h.leads

theorem MakesEmpty.cons_none {name : String} {made : FileTree}
    (hwalk : t.walk place [name] = .ok next) (hnode : t.node? next = none)
    (h : (t.put next .directory).MakesEmpty next rest made top) :
    t.MakesEmpty place (name :: rest) made top where
  toEmptyDirectory := h.toEmptyDirectory
  makes := (makeDirectories_cons_none hwalk hnode rest).trans h.makes
  leads := by
    have hnext : t.node? next ≠ some .directory := by simp [hnode]
    have hput := keepsDirectories_put hnext .directory
    rw [walk_cons, (hput.trans (makeDirectories_made h.makes).1).walk hwalk]
    exact h.leads

/-- Below an empty directory, an empty directory can be made along any names without two dots. -/
theorem makesEmpty_of_empty (hnames : ∀ name ∈ names, name ≠ ".." ∧ t.nameTooLong name = false)
    (hplace : t.EmptyDirectory place) : ∃ made top, t.MakesEmpty place names made top := by
  induction names generalizing t place with
  | nil => exact ⟨t, place, hplace, rfl, rfl⟩
  | cons name names ih =>
      have hrest : ∀ other ∈ names, other ≠ ".." ∧ t.nameTooLong other = false :=
        fun other hother => hnames other (List.mem_cons_of_mem name hother)
      obtain ⟨hdots, hshort⟩ := hnames name List.mem_cons_self
      have hwalk := walk_directory hplace.directory hdots hshort
      split_ifs at hwalk with hdot
      · obtain ⟨made, top, hmade⟩ := ih hrest hplace
        exact ⟨made, top, .cons_directory hwalk hplace.directory hmade⟩
      · have hput : (t.put (place ++ [name]) .directory).EmptyDirectory (place ++ [name]) :=
          emptyDirectory_put (by simp) fun below _ => by
            rw [List.append_assoc]
            exact hplace.empty _ (List.cons_ne_nil name below)
        obtain ⟨made, top, hmade⟩ := ih (t := t.put (place ++ [name]) .directory) hrest hput
        exact ⟨made, top, .cons_none hwalk (hplace.empty [name] (List.cons_ne_nil name [])) hmade⟩

/-- A path is fresh if it leads to nothing or to an empty directory, and two dots are not on it. -/
theorem fresh_of_free {cwd : List String} {path : String} (hclosed : t.Closed)
    (hnames : ∀ name ∈ FileTree.names path, name ≠ ".." ∧ t.nameTooLong name = false)
    (horigin : t.node? (origin cwd path) = some .directory)
    (hfree : t.walk (origin cwd path) (FileTree.names path) = .error .notFound ∨
      ∃ top, t.walk (origin cwd path) (FileTree.names path) = .ok top ∧
        (t.node? top = none ∨ t.EmptyDirectory top)) :
    t.Fresh cwd path := by
  rw [Fresh]
  generalize origin cwd path = place at horigin hfree ⊢
  generalize FileTree.names path = names at hnames hfree ⊢
  induction names generalizing place with
  | nil =>
      obtain hwalk | ⟨top, hwalk, hnone | hempty⟩ := hfree
      · cases hwalk
      · cases hwalk
        rw [horigin] at hnone
        cases hnone
      · cases hwalk
        exact makesEmpty_of_empty (List.forall_mem_nil _) hempty
  | cons name names ih =>
      have hrest : ∀ other ∈ names, other ≠ ".." ∧ t.nameTooLong other = false :=
        fun other hother => hnames other (List.mem_cons_of_mem name hother)
      obtain ⟨hdots, hshort⟩ := hnames name List.mem_cons_self
      have hwalk := walk_directory horigin hdots hshort
      rw [walk_cons, hwalk] at hfree
      split_ifs at hwalk hfree with hdot
      · obtain ⟨made, top, hmade⟩ := ih place horigin hrest hfree
        exact ⟨made, top, .cons_directory hwalk horigin hmade⟩
      · cases hnode : t.node? (place ++ [name]) with
        | none =>
            have hput : (t.put (place ++ [name]) .directory).EmptyDirectory (place ++ [name]) :=
              emptyDirectory_put (by simp) fun below _ => hclosed.below_eq_none hnode below
            obtain ⟨made, top, hmade⟩ := makesEmpty_of_empty
              (t := t.put (place ++ [name]) .directory) hrest hput
            exact ⟨made, top, .cons_none hwalk hnode hmade⟩
        | some node =>
            cases node with
            | directory =>
                obtain ⟨made, top, hmade⟩ := ih _ hnode hrest hfree
                exact ⟨made, top, .cons_directory hwalk hnode hmade⟩
            | file | program | nullDevice =>
                have hnot : ¬ t.EmptyDirectory (place ++ [name]) := fun hempty => by
                  rw [hempty.directory] at hnode
                  cases hnode
                -- the walk would end here, or the last name leads to something else
                cases names <;> simp [Except.bind, walk, hnode, hnot] at hfree

end ScriptHost.FileTree
