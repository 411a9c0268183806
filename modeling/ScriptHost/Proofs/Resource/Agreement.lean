import ScriptHost.Proofs.Files.Directories
import ScriptHost.Proofs.Resource.Confinement
import ScriptHost.Resource.Call

/-!
# The two kinds of resource stores

A store in the files below a fresh root answers every sequence of calls as an empty store in memory
does, as long as none of the paths is above another: `replies_directory_eq_memory`. What carries
over from call to call is `Mirrors`: at the place of each path stands a file with the entry in
memory or nothing, and above it nothing but directories. One lemma says what a path then leads to,
`Mirrors.lookup`, and one what a change at a single place keeps, `Mirrors.change`.
-/

namespace ScriptHost

namespace ResourceStore

open ResourcePath

/-- The paths that calls name. -/
def pathsOf (calls : List StoreCall) : List ResourcePath :=
  calls.filterMap fun c => ofText? c.path

/-- No path is above another. -/
def Unnested (paths : List ResourcePath) : Prop :=
  ∀ path ∈ paths, ∀ other ∈ paths, path.segments <+: other.segments → path = other

instance (paths : List ResourcePath) : Decidable (Unnested paths) :=
  inferInstanceAs (Decidable (∀ path ∈ paths, ∀ other ∈ paths, _ → path = other))

/-- The normal spelling of a text that names a path. -/
theorem key_of_ofText? {text : String} {path : ResourcePath} (h : ofText? text = some path) :
    key text = .ok path.text := by
  rw [key, normalize?, h, Option.map_some]

/-- A text that names no path has no normal spelling. -/
theorem key_of_ofText?_none {text : String} (h : ofText? text = none) :
    key text = .error (.invalidPath text) := by
  rw [key, normalize?, h, Option.map_none]

/-- What every store answers where the text of a call names no path. -/
def refusal : StoreCall → StoreReply
  | .contains _ => .ok (.flag false)
  | .read text | .write text _ | .delete text => .error (.invalidPath text)

/-- A call on a text that names no path is refused, and changes nothing. -/
theorem call_refused {c : StoreCall} (h : ofText? c.path = none) (s : ResourceStore)
    (v : FileView) : s.call v c = (refusal c, s, v) := by
  cases c with
  | read text =>
      have hkey : key text = .error (.invalidPath text) := key_of_ofText?_none h
      rw [call, read, hkey]
      rfl
  | contains text =>
      have hkey : key text = .error (.invalidPath text) := key_of_ofText?_none h
      rw [call]
      unfold contains
      rw [hkey]
      rfl
  | write text content =>
      have hkey : key text = .error (.invalidPath text) := key_of_ofText?_none h
      rw [call]
      unfold write
      rw [hkey]
      rfl
  | delete text =>
      have hkey : key text = .error (.invalidPath text) := key_of_ofText?_none h
      rw [call]
      unfold delete
      rw [hkey]
      rfl

/-- Whether there is a resource at a path with a normal spelling. -/
theorem contains_of_key {text normal : String} (h : key text = .ok normal) (s : ResourceStore)
    (v : FileView) : s.contains v text = match s with
      | memory entries => entries.contains normal
      | directory root => v.tree.isFile v.cwd (fileOf root normal) := by
  unfold contains
  rw [h]
  cases s <;> rfl

/-- A resource is written in memory, or to a file after the directories above it are made. -/
theorem write_of_key {text normal : String} (h : key text = .ok normal) (s : ResourceStore)
    (v : FileView) (content : ByteArray) : s.write v text content = match s with
      | memory entries => (.ok (), memory (entries.insert normal content), v)
      | directory root =>
        let file := fileOf root normal
        let (tree, fault) := v.tree.makeDirectoryPath v.cwd ((parentPath? file).getD "")
        match fault with
        | some fault => (.error (.io normal fault), s, v.withTree tree)
        | none =>
          match tree.write v.cwd file content with
          | .error fault => (.error (.io normal fault), s, v.withTree tree)
          | .ok tree => (.ok (), s, v.withTree tree) := by
  unfold write
  rw [h]
  cases s <;> rfl

/-- A resource is deleted in memory, or with its file. -/
theorem delete_of_key {text normal : String} (h : key text = .ok normal) (s : ResourceStore)
    (v : FileView) : s.delete v text = match s with
      | memory entries => (.ok (entries.contains normal), memory (entries.erase normal), v)
      | directory root =>
        match v.tree.remove v.cwd (fileOf root normal) with
        | .ok tree => (.ok true, s, v.withTree tree)
        | .error .notFound => (.ok false, s, v)
        | .error fault => (.error (.io normal fault), s, v) := by
  unfold delete
  rw [h]
  cases s <;> rfl

/-- A file that is below a root has a name. -/
theorem fileOf_ne_empty (root : String) (path : ResourcePath) : fileOf root path.text ≠ "" := by
  intro hempty
  have hnames := names_fileOf root path
  rw [hempty] at hnames
  exact path.ne_nil (List.append_eq_nil_iff.mp hnames.symm).2

/-- A proper beginning of the segments of a path is one of all segments but the last. -/
theorem prefix_dropLast_iff {path : ResourcePath} {above : List String} :
    above <+: path.segments.dropLast ↔ above <+: path.segments ∧ above ≠ path.segments := by
  have hsegments : path.segments.dropLast ++ [path.fileName] = path.segments :=
    List.dropLast_concat_getLast path.ne_nil
  constructor
  · intro hbegin
    refine ⟨hbegin.trans (List.dropLast_prefix _), ?_⟩
    rintro rfl
    have hlength := hbegin.length_le
    rw [List.length_dropLast] at hlength
    have hpos := List.length_pos_iff.mpr path.ne_nil
    omega
  · rintro ⟨hbegin, hne⟩
    rw [← hsegments] at hbegin hne
    exact (List.prefix_concat_iff.mp hbegin).resolve_left hne

/-! ## Entries in files -/

/-- The files of a tree below a root hold some entries, as far as the given paths go. The root leads
to `top` in `made`, and is not there yet or stays there. At the place of a path stands a file with
its entry, or nothing; above it there are only directories; and everything below the root stands in
a directory. -/
structure Mirrors (before made : FileTree) (top : List String) (paths : List ResourcePath)
    (entries : Std.TreeMap String ByteArray) (t : FileTree) : Prop where
  root : t = before ∨ made.KeepsDirectories t
  node : ∀ path ∈ paths, t.node? (top ++ path.segments) = entries[path.text]?.map Node.file
  above : ∀ path ∈ paths, ∀ above, above <+: path.segments.dropLast →
    t.node? (top ++ above) = none ∨ t.node? (top ++ above) = some .directory
  closed : ∀ below name, t.node? (top ++ (below ++ [name])) ≠ none →
    t.node? (top ++ below) = some .directory

/-- A root that is fresh, with paths that can be used below it: the tree allows their files, and
none is above another. -/
structure Site (before : FileTree) (cwd : List String) (root : String) (paths : List ResourcePath)
    (made : FileTree) (top : List String) : Prop where
  fresh : before.MakesEmpty (FileTree.origin cwd root) (FileTree.names root) made top
  admits : ∀ path ∈ paths, before.Admits (fileOf root path.text)
  unnested : Unnested paths

section

variable {before made t u : FileTree} {cwd top : List String} {root : String}
  {paths : List ResourcePath} {entries after : Std.TreeMap String ByteArray} {path : ResourcePath}

/-- Nothing is below a fresh root before it is made. -/
theorem Site.before_below (h : Site before cwd root paths made top) {below : List String}
    (hne : below ≠ []) : before.node? (top ++ below) = none := by
  cases hnode : before.node? (top ++ below) with
  | none => rfl
  | some node =>
      have hmade := FileTree.makeDirectories_node? h.fresh.makes hnode
      rw [h.fresh.empty below hne] at hmade
      cases hmade

/-- Before it is made, a fresh root is a directory or nothing. -/
theorem Site.before_top (h : Site before cwd root paths made top) :
    before.node? top = none ∨ before.node? top = some .directory := by
  cases hnode : before.node? top with
  | none => exact .inl rfl
  | some node =>
      have hmade := FileTree.makeDirectories_node? h.fresh.makes hnode
      rw [h.fresh.directory] at hmade
      exact .inr hmade.symm

/-- Where nothing is below the root, no entries are held. -/
theorem mirrors_of_empty (hroot : t = before ∨ made.KeepsDirectories t)
    (htop : t.node? top = none ∨ t.node? top = some .directory)
    (hempty : ∀ below, below ≠ [] → t.node? (top ++ below) = none)
    (hentries : ∀ path ∈ paths, entries[path.text]? = none) :
    Mirrors before made top paths entries t where
  root := hroot
  node path hpath := by rw [hempty _ path.ne_nil, hentries path hpath, Option.map_none]
  above path _ above _ := by
    cases above with
    | nil => rwa [List.append_nil]
    | cons name above => exact .inl (hempty _ (List.cons_ne_nil name above))
  closed below name hname := absurd (hempty _ (by simp)) hname

/-- The directories of the tree that the root was put into stay. -/
theorem Site.keeps (h : Site before cwd root paths made top)
    (hroot : t = before ∨ made.KeepsDirectories t) : before.KeepsDirectories t := by
  rcases hroot with rfl | hkeeps
  · exact FileTree.keepsDirectories_refl t
  · exact (FileTree.makeDirectories_made h.fresh.makes).1.trans hkeeps

/-- The path of the root leads to its place, or to nothing before the root is made. -/
theorem Site.walk_root (h : Site before cwd root paths made top)
    (hroot : t = before ∨ made.KeepsDirectories t) :
    t.walk (FileTree.origin cwd root) (FileTree.names root) = .ok top ∨
      t = before ∧
        t.walk (FileTree.origin cwd root) (FileTree.names root) = .error .notFound := by
  rcases hroot with rfl | hmade
  · obtain ⟨next, hnext, hwalk⟩ := FileTree.makeDirectories_walk h.fresh.makes
    obtain rfl := Except.ok.inj (hnext.symm.trans h.fresh.leads)
    exact hwalk.imp_right fun herror => ⟨rfl, herror⟩
  · exact .inl (hmade.walk h.fresh.leads)

/-- The segments of a path are plain. -/
theorem Site.plain (h : Site before cwd root paths made top) (hkeeps : before.KeepsDirectories t)
    (hpath : path ∈ paths) : t.Plain path.segments := by
  intro name hname
  have hsegment := path.valid name hname
  refine ⟨hsegment.2.1, hsegment.2.2.1, (hkeeps.admits (h.admits path hpath)).name_length name ?_⟩
  rw [names_fileOf]
  exact List.mem_append_right _ hname

/-- A file below the root is reached from the place of the root along the segments of its path. -/
theorem Site.resolve (h : Site before cwd root paths made top) (hkeeps : before.KeepsDirectories t)
    (hpath : path ∈ paths) : t.resolve cwd (fileOf root path.text) =
      (t.walk (FileTree.origin cwd root) (FileTree.names root)).bind
        fun next => t.walk next path.segments := by
  rw [(hkeeps.admits (h.admits path hpath)).resolve (fileOf_ne_empty root path), origin_fileOf,
    steps_fileOf, FileTree.walk_append]

/-- The directory of a file below the root has the names of the root and the segments of the path
but the last. -/
theorem Site.parentPath (h : Site before cwd root paths made top)
    (hkeeps : before.KeepsDirectories t) (hpath : path ∈ paths) :
    ∃ parent, parentPath? (fileOf root path.text) = some parent ∧
      t.makeDirectoryPath cwd parent = t.makeDirectories (FileTree.origin cwd root)
        (FileTree.names root ++ path.segments.dropLast) := by
  obtain ⟨front, hfile, hfront, hnames⟩ := fileOf_split root path
  have hname := path.valid path.fileName (List.getLast_mem path.ne_nil)
  obtain ⟨parent, hparent, hparentNames, hstart, hend, hbegin⟩ :=
    FileTree.parentPath?_append hfile hfront (by simpa using hname.1) (slash_not_mem_segment hname)
  have hfileBegin : parent.toList <+: (fileOf root path.text).toList :=
    hbegin.trans (hfile ▸ List.prefix_append _ _)
  have horigin : FileTree.origin cwd parent = FileTree.origin cwd root := by
    rw [FileTree.origin, hstart, ← FileTree.origin, origin_fileOf]
  -- without any names the root is where its path starts from
  have hplace (hnil : FileTree.names parent = []) :
      t.node? (FileTree.origin cwd root) = some .directory := by
    rw [hparentNames, hnames] at hnil
    have hmakes := h.fresh.makes
    have hleads := h.fresh.leads
    rw [(List.append_eq_nil_iff.mp hnil).1] at hmakes hleads
    cases hmakes
    cases hleads
    exact hkeeps.directory _ h.fresh.directory
  refine ⟨parent, hparent, ?_⟩
  rw [(hkeeps.admits (h.admits path hpath)).makeDirectoryPath hfileBegin, horigin,
    FileTree.makeDirectories_steps hend hplace, hparentNames, hnames]

namespace Mirrors

/-- The directories above something below the root are there. -/
theorem directory_above (h : Mirrors before made top paths entries t) {above more : List String}
    (hmore : more ≠ []) (hnode : t.node? (top ++ (above ++ more)) ≠ none) :
    t.node? (top ++ above) = some .directory := by
  induction more using List.reverseRecOn with
  | nil => exact absurd rfl hmore
  | append_singleton more name ih =>
      rw [← List.append_assoc above] at hnode
      have hbelow := h.closed (above ++ more) name hnode
      cases more with
      | nil => rwa [List.append_nil] at hbelow
      | cons first more => exact ih (List.cons_ne_nil first more) (by simp [hbelow])

/-- A path whose file is missing has no entry. -/
theorem entry_of_missing (h : Mirrors before made top paths entries t) (hpath : path ∈ paths)
    (hmissing : t.node? (top ++ path.segments) = none) : entries[path.text]? = none := by
  have hnode := h.node path hpath
  rw [hmissing] at hnode
  exact Option.map_eq_none_iff.mp hnode.symm

/-- What the file of a path leads to is its entry. -/
theorem lookup (h : Mirrors before made top paths entries t)
    (hsite : Site before cwd root paths made top) (hpath : path ∈ paths) :
    t.lookup cwd (fileOf root path.text) = match entries[path.text]? with
      | some content => .ok (top ++ path.segments, .file content)
      | none => .error .notFound := by
  have hkeeps := hsite.keeps h.root
  have hnode := h.node path hpath
  have hresolve := hsite.resolve hkeeps hpath
  rcases hsite.walk_root h.root with htop | ⟨rfl, herror⟩
  · rw [htop] at hresolve
    rcases FileTree.walk_below (hsite.plain hkeeps hpath) (fun above habove hne =>
      h.above path hpath above (prefix_dropLast_iff.mpr ⟨habove, hne⟩)) with
      hwalk | ⟨hwalk, above, habove, hne, hnone⟩
    · rw [FileTree.lookup_at (hresolve.trans hwalk), hnode]
      cases entries[path.text]? <;> rfl
    · -- nothing stands below a place where nothing stands
      obtain ⟨more, hmore⟩ := habove
      have hmissing : t.node? (top ++ path.segments) = none := by
        by_contra hsome
        rw [← hmore] at hsome
        have hdirectory := h.directory_above (fun hnil => hne (by simp [← hmore, hnil])) hsome
        rw [hnone] at hdirectory
        cases hdirectory
      rw [FileTree.lookup_error (hresolve.trans hwalk), h.entry_of_missing hpath hmissing]
  · rw [herror] at hresolve
    rw [FileTree.lookup_error hresolve,
      h.entry_of_missing hpath (hsite.before_below path.ne_nil)]

/-- A change at the place of a path, to its entry afterwards, keeps everything else. -/
theorem change (h : Mirrors before made top paths entries t)
    (hsite : Site before cwd root paths made top) (hpath : path ∈ paths)
    (hroot : u = before ∨ made.KeepsDirectories u) (hkeeps : t.KeepsDirectories u)
    (hsame : ∀ other, other ≠ top ++ path.segments → u.node? other = t.node? other)
    (hnode : u.node? (top ++ path.segments) = after[path.text]?.map Node.file)
    (hentries : ∀ key, key ≠ path.text → after[key]? = entries[key]?)
    (hparent : after[path.text]? ≠ none →
      t.node? (top ++ path.segments.dropLast) = some .directory) :
    Mirrors before made top paths after u where
  root := hroot
  node other hother := by
    by_cases heq : other = path
    · rw [heq, hnode]
    · have hsegments : other.segments ≠ path.segments := fun hsegments =>
        heq (hsite.unnested other hother path hpath (hsegments ▸ List.prefix_rfl))
      rw [hsame _ (by simpa using hsegments), hentries _ fun htext => heq (text_injective htext)]
      exact h.node other hother
  above other hother above habove := by
    rw [hsame]
    · exact h.above other hother above habove
    · intro heq
      -- a path above another one would be the same
      obtain ⟨hbegin, hne⟩ := prefix_dropLast_iff.mp habove
      have hsegments := List.append_cancel_left heq
      have hequal := hsite.unnested path hpath other hother (hsegments ▸ hbegin)
      exact hne (hsegments.trans (congrArg segments hequal))
  closed below name hname := by
    refine hkeeps.directory _ ?_
    by_cases heq : below ++ [name] = path.segments
    · have hbelow : path.segments.dropLast = below := by rw [← heq, List.dropLast_concat]
      rw [← hbelow]
      refine hparent fun hnone => hname ?_
      rw [heq, hnode, hnone, Option.map_none]
    · rw [hsame _ fun hplace => heq (List.append_cancel_left hplace)] at hname
      exact h.closed below name hname

/-- The root can be made, or is there, and holds the same entries then. -/
theorem makeRoot (h : Mirrors before made top paths entries t)
    (hsite : Site before cwd root paths made top) :
    ∃ u, t.makeDirectories (FileTree.origin cwd root) (FileTree.names root) = (u, none) ∧
      made.KeepsDirectories u ∧ Mirrors before made top paths entries u := by
  rcases h.root with rfl | hkeeps
  · have hmade := FileTree.keepsDirectories_refl made
    exact ⟨made, hsite.fresh.makes, hmade, mirrors_of_empty (.inr hmade)
      (.inr hsite.fresh.directory) hsite.fresh.empty fun path hpath =>
        h.entry_of_missing hpath (hsite.before_below path.ne_nil)⟩
  · exact ⟨t, (FileTree.makeDirectories_made hsite.fresh.makes).2 t hkeeps, hkeeps, h⟩

/-- Below a root that is made, the directories above a file can be made, and the same entries are
held then. -/
theorem makeBelow (h : Mirrors before made top paths entries t)
    (hsite : Site before cwd root paths made top) (hmade : made.KeepsDirectories t)
    (hpath : path ∈ paths) :
    ∃ u, t.makeDirectories top path.segments.dropLast = (u, none) ∧ made.KeepsDirectories u ∧
      Mirrors before made top paths entries u ∧
      ∀ above, above <+: path.segments.dropLast → u.node? (top ++ above) = some .directory := by
  have hplain : t.Plain path.segments.dropLast := fun name hmem =>
    hsite.plain (hsite.keeps h.root) hpath name ((List.dropLast_prefix _).subset hmem)
  obtain ⟨u, hmakes, hthere, hframe⟩ := FileTree.makeDirectories_below hplain
    (hmade.directory top hsite.fresh.directory) fun above habove _ =>
      h.above path hpath above habove
  have hkeeps := (FileTree.makeDirectories_made hmakes).1
  have hsame (names : List String) (hnames : ¬ names <+: path.segments.dropLast) :
      u.node? (top ++ names) = t.node? (top ++ names) :=
    hframe _ fun above habove _ heq => hnames (List.append_cancel_left heq ▸ habove)
  refine ⟨u, hmakes, hmade.trans hkeeps, ⟨.inr (hmade.trans hkeeps), fun other hother => ?_,
    fun other hother above habove => ?_, fun below name hname => ?_⟩, hthere⟩
  · rw [hsame, h.node other hother]
    -- a path above another one would be the same
    intro habove
    obtain ⟨hbegin, hne⟩ := prefix_dropLast_iff.mp habove
    exact hne (congrArg segments (hsite.unnested other hother path hpath hbegin))
  · by_cases hmadeAbove : above <+: path.segments.dropLast
    · exact .inr (hthere above hmadeAbove)
    · rw [hsame above hmadeAbove]
      exact h.above other hother above habove
  · by_cases hmadeName : below ++ [name] <+: path.segments.dropLast
    · exact hthere below ((List.prefix_append below [name]).trans hmadeName)
    · rw [hsame _ hmadeName] at hname
      exact hkeeps.directory _ (h.closed below name hname)

/-- The directory of a file below the root can be made, and the same entries are held then. -/
theorem makeParent (h : Mirrors before made top paths entries t)
    (hsite : Site before cwd root paths made top) (hpath : path ∈ paths) :
    ∃ u parent, parentPath? (fileOf root path.text) = some parent ∧
      t.makeDirectoryPath cwd parent = (u, none) ∧ made.KeepsDirectories u ∧
      Mirrors before made top paths entries u ∧
      ∀ above, above <+: path.segments.dropLast → u.node? (top ++ above) = some .directory := by
  obtain ⟨parent, hparent, hmake⟩ := hsite.parentPath (hsite.keeps h.root) hpath
  obtain ⟨v, hroot, hv, hmirrors⟩ := h.makeRoot hsite
  obtain ⟨u, hbelow, hu⟩ := hmirrors.makeBelow hsite hv hpath
  have hmakes := FileTree.makeDirectories_append hroot (hv.walk hsite.fresh.leads)
    path.segments.dropLast
  exact ⟨u, parent, hparent, hmake.trans (hmakes.trans hbelow), hu⟩

/-- A file below the root is written where its path leads. -/
theorem write (h : Mirrors before made top paths entries t)
    (hsite : Site before cwd root paths made top) (hpath : path ∈ paths)
    (hmade : made.KeepsDirectories t)
    (hparent : ∀ above, above <+: path.segments.dropLast →
      t.node? (top ++ above) = some .directory) (content : ByteArray) :
    ∃ u, t.write cwd (fileOf root path.text) content = .ok u ∧
      Mirrors before made top paths (entries.insert path.text content) u := by
  have hkeeps := hsite.keeps h.root
  have hwalk : t.walk top path.segments = .ok (top ++ path.segments) := by
    refine (FileTree.walk_below (hsite.plain hkeeps hpath) fun above habove hne =>
      .inr (hparent above (prefix_dropLast_iff.mpr ⟨habove, hne⟩))).resolve_right ?_
    rintro ⟨-, above, habove, hne, hnone⟩
    rw [hparent above (prefix_dropLast_iff.mpr ⟨habove, hne⟩)] at hnone
    cases hnone
  have hresolve : t.resolve cwd (fileOf root path.text) = .ok (top ++ path.segments) := by
    rw [hsite.resolve hkeeps hpath, hmade.walk hsite.fresh.leads]
    exact hwalk
  have hnode := h.node path hpath
  have hne : top ++ path.segments ≠ [] := by simp [path.ne_nil]
  have hwrite : t.write cwd (fileOf root path.text) content =
      .ok (t.put (top ++ path.segments) (.file content)) := by
    have hdirectory : t.isDirectoryAt (top ++ path.segments).dropLast = true := by
      rw [List.dropLast_append_of_ne_nil path.ne_nil, FileTree.isDirectoryAt,
        hparent _ List.prefix_rfl]
    rw [FileTree.write, FileTree.modify_at hresolve, hnode]
    cases entries[path.text]? with
    | none => simp only [Option.map_none, hdirectory, if_true]
    | some found => rfl
  have hnot : t.node? (top ++ path.segments) ≠ some .directory := by
    rw [hnode]
    cases entries[path.text]? <;> simp
  have hput := FileTree.keepsDirectories_put hnot (.file content)
  refine ⟨_, hwrite, h.change hsite hpath (.inr (hmade.trans hput)) hput (fun other hother => ?_) ?_
    (fun key hkey => ?_) fun _ => hparent _ List.prefix_rfl⟩
  · rw [FileTree.node?_put hne, if_neg hother.symm]
  · rw [FileTree.node?_put hne, if_pos rfl, Std.TreeMap.getElem?_insert_self]
    rfl
  · rw [Std.TreeMap.getElem?_insert, if_neg]
    simpa using hkey.symm

/-- The file of an entry is removed where its path leads. -/
theorem remove (h : Mirrors before made top paths entries t)
    (hsite : Site before cwd root paths made top) (hpath : path ∈ paths) {content : ByteArray}
    (hentry : entries[path.text]? = some content) :
    ∃ u, t.remove cwd (fileOf root path.text) = .ok u ∧
      Mirrors before made top paths (entries.erase path.text) u := by
  have hlookup := h.lookup hsite hpath
  have hnode := h.node path hpath
  rw [hentry] at hlookup hnode
  have hremove : t.remove cwd (fileOf root path.text) = .ok (t.erase (top ++ path.segments)) := by
    rw [FileTree.remove, hlookup]
    rfl
  have hnot : t.node? (top ++ path.segments) ≠ some .directory := by
    rw [hnode]
    simp
  have herase := FileTree.keepsDirectories_erase hnot
  have hmade : made.KeepsDirectories t := by
    refine h.root.resolve_left ?_
    rintro rfl
    rw [hsite.before_below path.ne_nil] at hnode
    cases hnode
  refine ⟨_, hremove, h.change hsite hpath (.inr (hmade.trans herase)) herase
    (fun other hother => ?_) ?_ (fun key hkey => ?_) fun hsome => ?_⟩
  · rw [FileTree.node?_erase, if_neg fun heq => hother heq.1.symm]
  · rw [FileTree.node?_erase, if_pos ⟨rfl, by simp [path.ne_nil]⟩,
      Std.TreeMap.getElem?_erase_self]
    rfl
  · rw [Std.TreeMap.getElem?_erase, if_neg]
    simpa using hkey.symm
  · exact absurd Std.TreeMap.getElem?_erase_self hsome

/-- Without an entry there is nothing to forget. -/
theorem forget (h : Mirrors before made top paths entries t)
    (hentry : entries[path.text]? = none) :
    Mirrors before made top paths (entries.erase path.text) t := by
  have hsame (key : String) : (entries.erase path.text)[key]? = entries[key]? := by
    rw [Std.TreeMap.getElem?_erase]
    split_ifs with hkey
    · rw [← Std.LawfulEqCmp.eq_of_compare hkey, hentry]
    · rfl
  exact ⟨h.root, fun other hother => by rw [hsame, h.node other hother], h.above, h.closed⟩

/-- Both stores answer a call on a path alike, and hold the same entries then. -/
theorem call_answered (h : Mirrors before made top paths entries t)
    (hsite : Site before cwd root paths made top) (hpath : path ∈ paths) {c : StoreCall}
    (hc : ofText? c.path = some path) (w : FileView) :
    ∃ reply u after, (directory root).call ⟨t, cwd⟩ c = (reply, directory root, ⟨u, cwd⟩) ∧
      (memory entries).call w c = (reply, memory after, w) ∧
      Mirrors before made top paths after u := by
  have hlookup := h.lookup hsite hpath
  cases c with
  | read text =>
      have hkey : key text = .ok path.text := key_of_ofText? hc
      have hread : t.read cwd (fileOf root path.text) = match entries[path.text]? with
          | some content => .ok content
          | none => .error .notFound := by
        rw [FileTree.read, hlookup]
        cases entries[path.text]? <;> rfl
      refine ⟨((memory entries).call w (.read text)).1, t, entries, ?_, rfl, h⟩
      simp only [call, ResourceStore.read, hkey, bind, Except.bind, hread]
      cases entries[path.text]? <;> rfl
  | contains text =>
      have hkey : key text = .ok path.text := key_of_ofText? hc
      have hfile : t.isFile cwd (fileOf root path.text) = entries.contains path.text := by
        rw [FileTree.isFile, hlookup, Std.TreeMap.contains_eq_isSome_getElem?]
        cases entries[path.text]? <;> rfl
      refine ⟨.ok (.flag (entries.contains path.text)), t, entries, ?_, ?_, h⟩
      · simp only [call, contains_of_key hkey, hfile]
      · rw [call, contains_of_key hkey]
  | write text content =>
      have hkey : key text = .ok path.text := key_of_ofText? hc
      obtain ⟨v, parent, hparent, hmake, hmade, hmirrors, hdirectories⟩ := h.makeParent hsite hpath
      obtain ⟨u, hwrite, hwritten⟩ := hmirrors.write hsite hpath hmade hdirectories content
      refine ⟨.ok .done, u, entries.insert path.text content, ?_, ?_, hwritten⟩
      · simp only [call, write_of_key hkey, hparent, Option.getD_some, hmake, hwrite]
        rfl
      · simp only [call, write_of_key hkey]
        rfl
  | delete text =>
      have hkey : key text = .ok path.text := key_of_ofText? hc
      cases hentry : entries[path.text]? with
      | none =>
          have hcontains : entries.contains path.text = false := by
            rw [Std.TreeMap.contains_eq_isSome_getElem?, hentry, Option.isSome_none]
          have hremove : t.remove cwd (fileOf root path.text) = .error .notFound := by
            rw [FileTree.remove, hlookup, hentry]
            rfl
          refine ⟨.ok (.flag false), t, entries.erase path.text, ?_, ?_, h.forget hentry⟩
          · simp only [call, delete_of_key hkey, hremove]
            rfl
          · simp only [call, delete_of_key hkey, hcontains]
            rfl
      | some content =>
          have hcontains : entries.contains path.text = true := by
            rw [Std.TreeMap.contains_eq_isSome_getElem?, hentry, Option.isSome_some]
          obtain ⟨u, hremove, hremoved⟩ := h.remove hsite hpath hentry
          refine ⟨.ok (.flag true), u, entries.erase path.text, ?_, ?_, hremoved⟩
          · simp only [call, delete_of_key hkey, hremove]
            rfl
          · simp only [call, delete_of_key hkey, hcontains]
            rfl

/-- Both stores answer calls on paths alike, one after the other. -/
theorem calls (h : Mirrors before made top paths entries t)
    (hsite : Site before cwd root paths made top) (w : FileView) {cs : List StoreCall}
    (hpaths : pathsOf cs ⊆ paths) :
    ((directory root).calls ⟨t, cwd⟩ cs).1 = ((memory entries).calls w cs).1 := by
  induction cs generalizing t entries with
  | nil => rfl
  | cons c cs ih =>
      have hrest : pathsOf cs ⊆ paths := fun path hpath =>
        hpaths ((List.sublist_cons_self c cs).filterMap _ |>.subset hpath)
      obtain ⟨reply, u, after, hfiles, hmemory, hmirrors⟩ :
          ∃ reply u after, (directory root).call ⟨t, cwd⟩ c = (reply, directory root, ⟨u, cwd⟩) ∧
            (memory entries).call w c = (reply, memory after, w) ∧
            Mirrors before made top paths after u := by
        cases hc : ofText? c.path with
        | none => exact ⟨refusal c, t, entries, call_refused hc _ _, call_refused hc _ _, h⟩
        | some path =>
            have hmem : path ∈ pathsOf (c :: cs) :=
              List.mem_filterMap.mpr ⟨c, List.mem_cons_self, hc⟩
            exact h.call_answered hsite (hpaths hmem) hc w
      simp only [ResourceStore.calls, hfiles, hmemory]
      rw [ih hmirrors hrest]

end Mirrors

end

/-- A store in the files below a fresh root answers calls as an empty store in memory does, if the
tree allows the paths that are called and none of them is above another. -/
theorem replies_directory_eq_memory (root : String) (v w : FileView) (cs : List StoreCall)
    (hroot : v.tree.Fresh v.cwd root)
    (hadmits : ∀ path ∈ pathsOf cs, v.tree.Admits (fileOf root path.text))
    (hunnested : Unnested (pathsOf cs)) :
    ((directory root).calls v cs).1 = (empty.calls w cs).1 := by
  obtain ⟨made, top, hmade⟩ := hroot
  have hsite : Site v.tree v.cwd root (pathsOf cs) made top := ⟨hmade, hadmits, hunnested⟩
  have hmirrors : Mirrors v.tree made top (pathsOf cs) ∅ v.tree :=
    mirrors_of_empty (.inl rfl) hsite.before_top (fun _ hne => hsite.before_below hne)
      fun _ _ => Std.TreeMap.getElem?_emptyc
  exact hmirrors.calls hsite w (List.Subset.refl _)

/-- Two resources in one directory, one of them read, replaced and deleted in several spellings. -/
def sampleCalls : List StoreCall :=
  [.read "a/b", .write "a//b" "x".toUTF8, .contains "\\a\\b", .write "/a/c" .empty,
    .write "a/b" "y".toUTF8, .read "./a/b", .delete "a/b", .read "a/b", .read "../b"]

/-- Below a relative root that is not there yet. -/
theorem replies_directory_eq_memory_sample :
    ((directory "scripts").calls ⟨⟨.empty, none⟩, []⟩ sampleCalls).1 =
      (empty.calls ⟨.empty, []⟩ sampleCalls).1 := by
  have hroot : FileTree.Fresh ⟨.empty, none⟩ [] "scripts" := by
    have hnames : FileTree.names "scripts" = ["scripts"] := by decide +kernel
    have horigin : FileTree.origin [] "scripts" = [] := by decide +kernel
    refine FileTree.fresh_of_free (FileTree.closed_empty none) (by decide +kernel) ?_ ?_
    · rw [horigin, FileTree.node?]
    · rw [horigin, hnames]
      exact .inr ⟨["scripts"], rfl, .inl rfl⟩
  have hnul : ∀ path ∈ pathsOf sampleCalls, '\x00' ∉ (fileOf "scripts" path.text).toList := by
    decide +kernel
  have hunnested : Unnested (pathsOf sampleCalls) := by decide +kernel
  exact replies_directory_eq_memory "scripts" _ _ sampleCalls hroot
    (fun path hpath => FileTree.admits_of_no_limits rfl (hnul path hpath)) hunnested

end ResourceStore

end ScriptHost
