import ScriptHost.Proofs.Files.Names
import ScriptHost.Proofs.Files.Tree
import ScriptHost.Proofs.Resource.Spelling
import ScriptHost.Resource.Store

/-!
# Confinement of resource paths

A text is a resource path exactly when, of the pieces between its slashes and backslashes, none is a
double dot and some piece counts; its normal spelling is a slash before each piece that counts,
`key_eq`. The file of a resource below a root directory then has the names of the root and behind
them those pieces, `names_fileOf`, so that it lies strictly below the root, whatever the path was:
`keys_canonical_and_confined`.
-/

namespace ScriptHost

namespace ResourcePath

/-! ## Pieces -/

/-- The pieces of a text between its slashes and backslashes, the empty ones included. -/
def pieces (text : String) : List String :=
  (text.toList.splitOnP isSeparator).map String.ofList

/-- The pieces of a text that count: those that are neither empty nor a single dot. -/
def remaining (text : String) : List String :=
  (pieces text).filter fun s => s ≠ "" ∧ s ≠ "."

theorem partsFrom_eq_splitOnP (current text : List Char) :
    partsFrom current text =
      ((text.splitOnP isSeparator).modifyHead (current.reverse ++ ·)).map String.ofList := by
  induction text generalizing current with
  | nil => simp [partsFrom]
  | cons c text ih =>
      rw [partsFrom, List.splitOnP_cons_eq_if_modifyHead]
      split_ifs with hc
      · have hnil : (fun rest : List Char => [].reverse ++ rest) = id := rfl
        rw [ih, hnil, List.modifyHead_id, id, List.modifyHead_cons, List.map_cons, List.append_nil]
      · have hmore : (fun rest => (c :: current).reverse ++ rest) =
            (fun rest => current.reverse ++ rest) ∘ List.cons c := by
          funext rest
          simp
        rw [ih, hmore, List.modifyHead_modifyHead]

/-- The parts of a text are its pieces. -/
theorem parts_eq_pieces (text : String) : parts text = pieces text := by
  have hnil : (fun rest : List Char => [].reverse ++ rest) = id := rfl
  rw [parts, partsFrom_eq_splitOnP, hnil, List.modifyHead_id, id, pieces]

/-- The names in a text are its pieces that count. -/
theorem names_eq_remaining (text : String) : names text = remaining text := by
  rw [names, remaining, parts_eq_pieces]
  refine List.filter_congr fun piece _ => ?_
  rw [Bool.eq_iff_iff]
  simp

theorem no_separator_of_mem_splitOnP {text piece : List Char}
    (h : piece ∈ text.splitOnP isSeparator) : ∀ c ∈ piece, isSeparator c = false := by
  induction text generalizing piece with
  | nil => simp_all
  | cons d text ih =>
      rw [List.splitOnP_cons_eq_if_modifyHead] at h
      split_ifs at h with hd
      · rcases List.mem_cons.mp h with rfl | h
        · simp
        · exact ih h
      · obtain ⟨first, rest, hsplit⟩ := List.exists_cons_of_ne_nil
          (List.splitOnP_ne_nil isSeparator text)
        rw [hsplit, List.modifyHead_cons] at h
        rcases List.mem_cons.mp h with rfl | h
        · intro c hc
          rcases List.mem_cons.mp hc with rfl | hc
          · simpa using hd
          · exact ih (hsplit ▸ List.mem_cons_self) c hc
        · exact ih (hsplit ▸ List.mem_cons_of_mem _ h)

/-- A piece that counts is a segment unless it is a double dot. -/
theorem isSegment_of_mem_remaining {text piece : String} (h : piece ∈ remaining text)
    (hdots : piece ≠ "..") : IsSegment piece := by
  obtain ⟨hpiece, hcounts⟩ := List.mem_filter.mp h
  obtain ⟨hempty, hdot⟩ := of_decide_eq_true hcounts
  obtain ⟨chars, hchars, rfl⟩ := List.mem_map.mp hpiece
  refine ⟨hempty, hdot, hdots, ?_⟩
  rw [String.toList_ofList]
  exact no_separator_of_mem_splitOnP hchars

/-- The texts that name a path are those with a piece that counts and without a double dot. -/
theorem ofText?_eq_some_iff {text : String} {path : ResourcePath} :
    ofText? text = some path ↔ ".." ∉ pieces text ∧ path.segments = remaining text := by
  have hdots : ".." ∈ pieces text ↔ ".." ∈ remaining text := by
    simp [remaining]
  rw [hdots, ofText?]
  simp only [names_eq_remaining]
  constructor
  · intro h
    split_ifs at h with hvalid
    cases h
    exact ⟨fun hmem => (hvalid.2 _ hmem).2.2.1 rfl, rfl⟩
  · rintro ⟨hnone, hsegments⟩
    have hvalid : remaining text ≠ [] ∧ ∀ piece ∈ remaining text, IsSegment piece :=
      ⟨hsegments ▸ path.ne_nil, fun piece hpiece =>
        isSegment_of_mem_remaining hpiece fun heq => hnone (heq ▸ hpiece)⟩
    rw [dif_pos hvalid]
    cases path
    simp_all

/-- The normal spelling of a path has a slash in front of its segments and between them. -/
theorem join_eq_intercalate {segments : List String} (h : segments ≠ []) :
    join segments = "/" ++ "/".intercalate segments := by
  induction segments with
  | nil => exact absurd rfl h
  | cons first rest ih =>
      cases rest with
      | nil => simp [join]
      | cons second rest =>
          have htail := ih (List.cons_ne_nil second rest)
          rw [String.intercalate_cons_cons, String.append_assoc, ← htail]
          simp [join, String.append_assoc]

/-- No segment holds a slash. -/
theorem slash_not_mem_segment {segment : String} (h : IsSegment segment) :
    '/' ∉ segment.toList := fun hmem =>
  absurd (h.2.2.2 '/' hmem) (by decide)

/-- Every segment is the name of an entry. -/
theorem isEntryName_of_isSegment {segment : String} (h : IsSegment segment) :
    FileTree.IsEntryName segment :=
  ⟨h.1, h.2.1, h.2.2.1, slash_not_mem_segment h⟩

/-- Segments joined by slashes are read as those names. -/
theorem names_intercalate {segments : List String} (h : ∀ s ∈ segments, IsSegment s) :
    FileTree.names ("/".intercalate segments) = segments := by
  induction segments with
  | nil => decide
  | cons first rest ih =>
      have hfirst := h first List.mem_cons_self
      have hsingle := (isEntryName_of_isSegment hfirst).names_eq
      cases rest with
      | nil => rwa [String.intercalate_singleton]
      | cons second rest =>
          have hrest := ih fun s hs => h s (List.mem_cons_of_mem first hs)
          rw [String.intercalate_cons_cons, FileTree.names, String.toList_append,
            String.toList_append, List.append_assoc]
          show FileTree.namesIn
            (first.toList ++ '/' :: ("/".intercalate (second :: rest)).toList) = _
          rw [FileTree.namesIn_append_slash, ← FileTree.names, hsingle, ← FileTree.names, hrest]
          rfl

/-- What is joined with a last segment has a slash behind every other one. -/
theorem intercalate_concat (front : List String) (last : String) :
    "/".intercalate (front ++ [last]) = .join (front.map (· ++ "/")) ++ last := by
  induction front with
  | nil => simp
  | cons first front ih =>
      rw [List.cons_append, String.intercalate_cons_of_ne_nil (by simp), ih]
      simp [String.append_assoc]

/-- Segments joined by slashes do not start with a slash. -/
theorem head?_intercalate {segments : List String} (h : ∀ s ∈ segments, IsSegment s) :
    ("/".intercalate segments).toList.head? ≠ some '/' := by
  cases segments with
  | nil => simp
  | cons first rest =>
      have hfirst := h first List.mem_cons_self
      obtain ⟨c, chars, hchars⟩ :=
        List.exists_cons_of_ne_nil (show first.toList ≠ [] by simpa using hfirst.1)
      have hc : c ≠ '/' := fun hc =>
        slash_not_mem_segment hfirst (hchars ▸ hc ▸ List.mem_cons_self)
      cases rest with
      | nil => simp [hchars, hc]
      | cons second rest => simp [hchars, hc, String.intercalate_cons_cons]

end ResourcePath

namespace ResourceStore

open ResourcePath

/-- The normal spelling of a text, or its refusal. -/
theorem key_eq (text : String) :
    key text = if ".." ∉ pieces text ∧ remaining text ≠ [] then
      .ok ("/" ++ "/".intercalate (remaining text)) else .error (.invalidPath text) := by
  rw [key, normalize?]
  cases hpath : ofText? text with
  | none =>
      rw [if_neg]
      · rfl
      · rintro ⟨hdots, hne⟩
        have hvalid : ∀ piece ∈ remaining text, IsSegment piece := fun piece hpiece =>
          isSegment_of_mem_remaining hpiece fun heq =>
            hdots (heq ▸ (List.mem_filter.mp hpiece).1)
        have hsome : ofText? text = some ⟨remaining text, hne, hvalid⟩ :=
          ofText?_eq_some_iff.mpr ⟨hdots, rfl⟩
        rw [hsome] at hpath
        cases hpath
  | some path =>
      obtain ⟨hdots, hsegments⟩ := ofText?_eq_some_iff.mp hpath
      have hne : remaining text ≠ [] := hsegments ▸ path.ne_nil
      rw [if_pos ⟨hdots, hne⟩, ← hsegments, ← join_eq_intercalate path.ne_nil]
      rfl

/-- The file of a path is the segments joined by slashes, below the root. -/
theorem fileOf_text (root : String) (path : ResourcePath) :
    fileOf root path.text = joinPath root ("/".intercalate path.segments) := by
  have hhead := head?_intercalate path.valid
  rw [fileOf, ResourcePath.text, join_eq_intercalate path.ne_nil, String.toList_append]
  congr 1
  rw [← String.toList_inj, String.toList_ofList]
  generalize ("/".intercalate path.segments).toList = chars at hhead
  cases chars with
  | nil => rfl
  | cons c chars =>
      have hc : c ≠ '/' := by simpa using hhead
      simp [hc]

/-- The names of a file are those of the root and then the segments of its path. -/
theorem names_fileOf (root : String) (path : ResourcePath) :
    FileTree.names (fileOf root path.text) = FileTree.names root ++ path.segments := by
  rw [fileOf_text, FileTree.names_joinPath (head?_intercalate path.valid),
    names_intercalate path.valid]

/-- The file of a path ends with the last segment, and the names in front of it are those of the
root and the other segments. -/
theorem fileOf_split (root : String) (path : ResourcePath) : ∃ front,
    (fileOf root path.text).toList = front ++ path.fileName.toList ∧
      (front = [] ∨ front.getLast? = some '/') ∧
      FileTree.namesIn front = FileTree.names root ++ path.segments.dropLast := by
  have hsegments : path.segments.dropLast ++ [path.fileName] = path.segments :=
    List.dropLast_concat_getLast path.ne_nil
  have hname := path.valid path.fileName (List.getLast_mem path.ne_nil)
  have hfile : (fileOf root path.text).toList = ((directoryFront root).toList ++
      (String.join (path.segments.dropLast.map (· ++ "/"))).toList) ++ path.fileName.toList := by
    rw [fileOf_text, joinPath_relative (head?_intercalate path.valid), ← hsegments,
      intercalate_concat, String.toList_append, String.toList_append, List.append_assoc]
    simp
  have hfront : (directoryFront root).toList ++
      (String.join (path.segments.dropLast.map (· ++ "/"))).toList = [] ∨
      ((directoryFront root).toList ++
        (String.join (path.segments.dropLast.map (· ++ "/"))).toList).getLast? = some '/' := by
    rcases List.eq_nil_or_concat path.segments.dropLast with hnil | ⟨before, last, hlast⟩
    · simpa [hnil] using directoryFront_ends root
    · rw [hlast]
      simp
  refine ⟨_, hfile, hfront, ?_⟩
  have hnames := names_fileOf root path
  rw [FileTree.names, hfile, FileTree.namesIn_append hfront, ← FileTree.names.eq_1 path.fileName,
    (isEntryName_of_isSegment hname).names_eq, ← hsegments, ← List.append_assoc,
    hsegments] at hnames
  exact List.append_cancel_right hnames

/-- A file is reached along the names of the root and then the segments of its path. -/
theorem steps_fileOf (root : String) (path : ResourcePath) :
    FileTree.steps (fileOf root path.text) = FileTree.names root ++ path.segments := by
  obtain ⟨front, hfile, -, -⟩ := fileOf_split root path
  have hname := path.valid path.fileName (List.getLast_mem path.ne_nil)
  rw [FileTree.steps_eq_names, if_neg, names_fileOf]
  rw [hfile]
  exact (isEntryName_of_isSegment hname).getLast?_append_ne front

/-- A file starts from where its root starts from. -/
theorem startsWith_fileOf (root : String) (path : ResourcePath) :
    (fileOf root path.text).startsWith "/" = root.startsWith "/" := by
  rw [fileOf_text, startsWith_joinPath (head?_intercalate path.valid)]

theorem origin_fileOf (cwd : List String) (root : String) (path : ResourcePath) :
    FileTree.origin cwd (fileOf root path.text) = FileTree.origin cwd root := by
  rw [FileTree.origin, startsWith_fileOf, FileTree.origin]

/-! ## Confinement -/

/-- A file lies below a root at some names: it starts from where the root starts from, has the names
of the root and then those, and in every tree it leads to the place that those names have below the
place of the root. -/
structure Below (root : String) (below : List String) (file : String) : Prop where
  start : file.startsWith "/" = root.startsWith "/"
  names : FileTree.names file = FileTree.names root ++ below
  place : ∀ (t : FileTree) (cwd place : List String), t.resolve cwd file = .ok place →
    ∃ top, t.walk (FileTree.origin cwd root) (FileTree.names root) = .ok top ∧ place = top ++ below

/-- A file that is reached along the names of a root and then names without dots lies below it. -/
theorem Below.of_steps {root file : String} {below : List String}
    (hstart : file.startsWith "/" = root.startsWith "/")
    (hnames : FileTree.names file = FileTree.names root ++ below)
    (hsteps : FileTree.steps file = FileTree.names root ++ below)
    (hplain : ∀ name ∈ below, name ≠ "." ∧ name ≠ "..") : Below root below file where
  start := hstart
  names := hnames
  place := by
    intro t cwd place hresolve
    obtain ⟨-, hwalk⟩ := FileTree.resolve_eq_ok hresolve
    rw [hstart, ← FileTree.origin, hsteps, FileTree.walk_append] at hwalk
    cases hroot : t.walk (FileTree.origin cwd root) (FileTree.names root) with
    | error fault =>
        rw [hroot] at hwalk
        cases hwalk
    | ok top =>
        rw [hroot] at hwalk
        exact ⟨top, rfl, FileTree.walk_plain hplain hwalk⟩

theorem below_fileOf (root : String) (path : ResourcePath) :
    Below root path.segments (fileOf root path.text) := by
  refine .of_steps (startsWith_fileOf root path) (names_fileOf root path) (steps_fileOf root path)
    fun name hname => ?_
  have hsegment := path.valid name hname
  exact ⟨hsegment.2.1, hsegment.2.2.1⟩

/-- An entry of a directory lies below it at its name. -/
theorem below_joinPath {name : String} (h : FileTree.IsEntryName name) (directory : String) :
    Below directory [name] (joinPath directory name) := by
  refine .of_steps (startsWith_joinPath h.head?_ne directory) (h.names_joinPath directory)
    (h.steps_joinPath directory) ?_
  simpa using ⟨h.ne_dot, h.ne_dots⟩

/-- Of two files below the same root, one leads to a place at or below that of the other only if its
names below the root begin with the names of the other. -/
theorem Below.prefix_of_place {root file otherFile : String} {below otherBelow : List String}
    (h : Below root below file) (hother : Below root otherBelow otherFile) {t : FileTree}
    {cwd place otherPlace : List String} (hplace : t.resolve cwd file = .ok place)
    (hotherPlace : t.resolve cwd otherFile = .ok otherPlace) (hwithin : place <+: otherPlace) :
    below <+: otherBelow := by
  obtain ⟨top, htop, rfl⟩ := h.place t cwd place hplace
  obtain ⟨otherTop, hotherTop, rfl⟩ := hother.place t cwd otherPlace hotherPlace
  obtain rfl : top = otherTop := Except.ok.inj (htop.symm.trans hotherTop)
  exact (List.prefix_append_right_inj top).mp hwithin

/-- A normal spelling comes from a path that has the pieces of the text that count. -/
theorem path_of_key {text normal : String} (h : key text = .ok normal) :
    ∃ path : ResourcePath, path.segments = remaining text ∧ normal = path.text := by
  rw [key, normalize?] at h
  cases hpath : ofText? text with
  | none =>
      rw [hpath] at h
      cases h
  | some path =>
      rw [hpath] at h
      cases h
      exact ⟨path, (ofText?_eq_some_iff.mp hpath).2, rfl⟩

/-- A text is accepted exactly if none of its pieces is a double dot and some piece counts. Its
normal spelling is then a slash before each piece that counts, which is its own normal spelling; and
below every root its file has those pieces, none of which is empty, a dot or two, or holds a
separator, behind the names of the root. Two accepted texts have the same normal spelling exactly if
the same pieces count in them, and the same file below a root, be it in spelling or by names,
exactly if they have the same normal spelling. -/
theorem keys_canonical_and_confined :
    (∀ text, (∃ normal, key text = .ok normal) ↔
      ".." ∉ pieces text ∧ ∃ piece ∈ pieces text, piece ≠ "" ∧ piece ≠ ".") ∧
    (∀ text normal, key text = .ok normal →
      normal = "/" ++ "/".intercalate (remaining text) ∧ key normal = .ok normal ∧
      remaining text ≠ [] ∧ (∀ piece ∈ remaining text, IsSegment piece) ∧
      ∀ root, Below root (remaining text) (fileOf root normal)) ∧
    ∀ text other normal otherNormal, key text = .ok normal → key other = .ok otherNormal →
      (normal = otherNormal ↔ remaining text = remaining other) ∧
      ∀ root, (fileOf root normal = fileOf root otherNormal ↔ normal = otherNormal) ∧
        (FileTree.names (fileOf root normal) = FileTree.names (fileOf root otherNormal) ↔
          normal = otherNormal) := by
  refine ⟨fun text => ?_, fun text normal h => ?_, fun text other normal otherNormal h hother => ?_⟩
  · rw [key_eq]
    have hsome : remaining text ≠ [] ↔ ∃ piece ∈ pieces text, piece ≠ "" ∧ piece ≠ "." := by
      simp [remaining, List.filter_eq_nil_iff]
    rw [← hsome]
    split_ifs with hvalid
    · exact iff_of_true ⟨_, rfl⟩ hvalid
    · exact iff_of_false (fun ⟨_, h⟩ => by cases h) hvalid
  · obtain ⟨path, hsegments, rfl⟩ := path_of_key h
    refine ⟨?_, ?_, hsegments ▸ path.ne_nil, hsegments ▸ path.valid, fun root => ?_⟩
    · rw [← hsegments, ← join_eq_intercalate path.ne_nil, ResourcePath.text]
    · rw [key, normalize?_text]
    · rw [← hsegments]
      exact below_fileOf root path
  · obtain ⟨path, hsegments, rfl⟩ := path_of_key h
    obtain ⟨otherPath, hotherSegments, rfl⟩ := path_of_key hother
    have hsame : path.text = otherPath.text ↔ path.segments = otherPath.segments := by
      refine ⟨fun htext => congrArg segments (text_injective htext), fun hsegments => ?_⟩
      rw [ResourcePath.text, hsegments, ResourcePath.text]
    have hnames (root : String) : FileTree.names (fileOf root path.text) =
        FileTree.names (fileOf root otherPath.text) ↔ path.text = otherPath.text := by
      rw [names_fileOf, names_fileOf, List.append_cancel_left_eq, hsame]
    rw [← hsegments, ← hotherSegments]
    exact ⟨hsame, fun root => ⟨⟨fun hfile => (hnames root).mp (congrArg _ hfile),
      fun htext => congrArg _ htext⟩, hnames root⟩⟩

/-- Repeated separators of both kinds and a dot are skipped, below a root that is a relative path,
and a double dot is refused. -/
theorem keys_canonical_and_confined_mixed :
    key "a//b\\.\\c" = .ok "/a/b/c" ∧ Below "scripts" ["a", "b", "c"] "scripts/a/b/c" ∧
      ¬ ∃ normal, key "a/../b" = .ok normal := by
  have hnormal : normalize? "a//b\\.\\c" = some "/a/b/c" := by decide +kernel
  have hremaining : remaining "a//b\\.\\c" = ["a", "b", "c"] := by decide +kernel
  have hfile : fileOf "scripts" "/a/b/c" = "scripts/a/b/c" := by decide +kernel
  have hdots : ".." ∈ pieces "a/../b" := by decide +kernel
  have hkey : key "a//b\\.\\c" = .ok "/a/b/c" := by rw [key, hnormal]
  have hbelow := (keys_canonical_and_confined.2.1 _ _ hkey).2.2.2.2 "scripts"
  rw [hremaining, hfile] at hbelow
  exact ⟨hkey, hbelow, fun haccepted => ((keys_canonical_and_confined.1 _).mp haccepted).1 hdots⟩

end ResourceStore

end ScriptHost
