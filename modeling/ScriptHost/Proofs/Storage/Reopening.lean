import ScriptHost.Proofs.Files.Tree
import ScriptHost.Proofs.Storage.Mirror
import ScriptHost.Proofs.Storage.WrittenForm
import ScriptHost.Storage.Session

/-!
# Closing a database and opening it again

A storage in a database file answers like one in memory, also when it is closed and opened again in
between, except that it lists nothing below a path with a NUL: `StorageSession.answers_sqlite`.
`DatabaseFile` says that a file is where a database looks for it. Opening a database leaves such a
file, closing the database writes it, and opening it again reads what was written.
-/

namespace ScriptHost

/-- A path leads to a file with some content, and the directory of the path is there. -/
structure DatabaseFile (files : FileTree) (cwd : List String) (path : String) (place : List String)
    (content : ByteArray) : Prop where
  parent : Storage.makeParent files cwd path = (files, none)
  resolve : files.resolve cwd path = .ok place
  node : files.node? place = some (.file content)

/-- The directory of a path stays made. -/
theorem Storage.makeParent_made {files made : FileTree} {cwd : List String} {path : String}
    (h : makeParent files cwd path = (made, none)) : files.KeepsDirectories made ∧
      ∀ other, made.KeepsDirectories other → makeParent other cwd path = (other, none) := by
  rw [makeParent] at h
  cases hparent : parentPath? path with
  | none =>
      rw [hparent] at h
      cases h
      exact ⟨FileTree.keepsDirectories_refl _, fun other _ => by rw [makeParent, hparent]⟩
  | some parent =>
      simp only [hparent] at h
      by_cases hempty : parent = ""
      · rw [if_pos hempty] at h
        cases h
        refine ⟨FileTree.keepsDirectories_refl _, fun other _ => ?_⟩
        simp only [makeParent, hparent, if_pos hempty]
      · rw [if_neg hempty] at h
        obtain ⟨hkeeps, hagain⟩ := FileTree.makeDirectoryPath_made h
        refine ⟨hkeeps, fun other hother => ?_⟩
        simp only [makeParent, hparent, if_neg hempty, hagain other hother]

namespace DatabaseFile

variable {files other : FileTree} {cwd place : List String} {path : String} {content : ByteArray}

/-- The file is still there when directories are kept, whatever is in it then. -/
theorem of_keeps (h : DatabaseFile files cwd path place content)
    (hkeeps : files.KeepsDirectories other) {after : ByteArray}
    (hnode : other.node? place = some (.file after)) :
    DatabaseFile other cwd path place after where
  parent := (Storage.makeParent_made h.parent).2 other hkeeps
  resolve := hkeeps.resolve h.resolve
  node := hnode

/-- The files beside a database are made without touching it. -/
theorem openSides (h : DatabaseFile files cwd path place content) (sides : List String) :
    DatabaseFile (sides.foldl (fun files side => (files.modify cwd side id).toOption.getD files) files)
      cwd path place content := by
  induction sides generalizing files with
  | nil => exact h
  | cons side sides ih =>
      refine ih ?_
      show DatabaseFile ((files.modify cwd side id).toOption.getD files) cwd path place content
      cases hmodify : files.modify cwd side id with
      | error fault => exact h
      | ok made =>
          obtain ⟨hkeeps, hfiles⟩ := FileTree.modify_keeps hmodify
          exact h.of_keeps hkeeps (hfiles place content h.node (.inl rfl))

/-- The files beside a database are removed without touching it: they have other names. -/
theorem removeSides (h : DatabaseFile files cwd path place content) {sides : List String}
    (hsides : ∀ side ∈ sides, ∃ suffix : String, side = path ++ suffix ∧ 2 < suffix.length ∧
      '/' ∉ suffix.toList) :
    DatabaseFile (sides.foldl (fun files side => (files.remove cwd side).toOption.getD files) files)
      cwd path place content := by
  induction sides generalizing files with
  | nil => exact h
  | cons side sides ih =>
      refine ih ?_ fun other hother => hsides other (List.mem_cons_of_mem _ hother)
      show DatabaseFile ((files.remove cwd side).toOption.getD files) cwd path place content
      cases hremove : files.remove cwd side with
      | error fault => exact h
      | ok removed =>
          obtain ⟨suffix, rfl, hlength, hslash⟩ := hsides side List.mem_cons_self
          obtain ⟨hkeeps, hfiles⟩ := FileTree.remove_keeps hremove
          refine h.of_keeps hkeeps (hfiles place content h.node fun hside => ?_)
          exact FileTree.resolve_append_ne hlength hslash h.resolve hside rfl

end DatabaseFile

namespace Storage

variable {files opened : FileTree} {cwd place : List String} {path : String} {content : ByteArray}

/-- Both files beside a database have its name with something behind it. -/
theorem sideFiles_suffix (path : String) : ∀ side ∈ sideFiles path, ∃ suffix : String,
    side = path ++ suffix ∧ 2 < suffix.length ∧ '/' ∉ suffix.toList := by
  intro side hside
  rw [sideFiles, List.mem_cons, List.mem_singleton] at hside
  rcases hside with rfl | rfl
  · exact ⟨"-shm", rfl, by decide, by decide⟩
  · exact ⟨"-wal", rfl, by decide, by decide⟩

/-- What could be opened is a file, if only a new one. -/
theorem databaseFile?_eq_some (h : databaseFile? files cwd path = some (content, opened))
    (hparent : makeParent files cwd path = (files, none)) :
    ∃ place, DatabaseFile opened cwd path place content := by
  rw [databaseFile?] at h
  cases hresolve : files.resolve cwd path with
  | error fault =>
      rw [hresolve] at h
      cases h
  | ok place =>
      simp only [hresolve] at h
      split at h
      · rename_i found hnode
        cases h
        exact ⟨place, hparent, hresolve, hnode⟩
      · cases h
      · rename_i hnode
        split_ifs at h
        cases h
        have hplace : files.node? place ≠ some .directory := by simp [hnode]
        have hkeeps := FileTree.keepsDirectories_put hplace (.file .empty)
        refine ⟨place, (makeParent_made hparent).2 _ hkeeps, hkeeps.resolve hresolve, ?_⟩
        rw [FileTree.node?_put (FileTree.ne_nil_of_node? hplace), if_pos rfl]

/-- A database that could be opened lies in a file. -/
theorem openFile_ok {s : Storage} (h : openFile files cwd path = (.ok s, opened)) :
    ∃ place content rows, DatabaseFile opened cwd path place content ∧
      s = ⟨.database rows (some path), maxStoredBytes⟩ := by
  rw [openFile] at h
  rcases hparent : makeParent files cwd path with ⟨made, _ | fault⟩
  · simp only [hparent] at h
    cases hfile : databaseFile? made cwd path with
    | none =>
        rw [hfile] at h
        cases h
    | some found =>
        obtain ⟨content, withFile⟩ := found
        simp only [hfile] at h
        cases hread : Database.read? content with
        | none =>
            rw [hread] at h
            cases h
        | some rows =>
            rw [hread] at h
            cases h
            have hmade := (makeParent_made hparent).2 made (FileTree.keepsDirectories_refl made)
            obtain ⟨place, hplace⟩ := databaseFile?_eq_some hfile hmade
            exact ⟨place, content, rows, hplace.openSides _, rfl⟩
  · rw [hparent] at h
    cases h

/-- A database file can be opened, and holds what is read from it. -/
theorem openFile_of (h : DatabaseFile files cwd path place content) {rows : Database}
    (hread : Database.read? content = some rows) :
    ∃ opened, openFile files cwd path = (.ok ⟨.database rows (some path), maxStoredBytes⟩, opened) ∧
      DatabaseFile opened cwd path place content := by
  refine ⟨_, ?_, h.openSides (sideFiles path)⟩
  have hfile : databaseFile? files cwd path = some (content, files) := by
    simp only [databaseFile?, h.resolve, h.node]
  simp only [openFile, h.parent, hfile, hread]

/-- Closing a database writes it into its file. -/
theorem save_file (h : DatabaseFile files cwd path place content) {s : Storage} {rows : Database}
    (hs : s.backend = .database rows (some path)) :
    DatabaseFile (s.save files cwd) cwd path place rows.write := by
  rw [save, hs]
  simp only [FileTree.write_file h.resolve h.node, Except.toOption, Option.getD_some]
  refine DatabaseFile.removeSides ?_ (sideFiles_suffix path)
  have hplace : files.node? place ≠ some .directory := by simp [h.node]
  refine h.of_keeps (FileTree.keepsDirectories_put hplace _) ?_
  rw [FileTree.node?_put (FileTree.ne_nil_of_node? hplace), if_pos rfl]

end Storage

/-! ## Sessions -/

/-- What a session with a database answers to a step that a storage in memory answers in some way. -/
def StorageStep.inDatabase : StorageStep → StorageReply → StorageReply
  | .call c, reply => Storage.replyInDatabase c reply
  | .reopen, reply => reply

namespace Storage

/-- Do a step with a storage that closing and opening leave as it is. -/
def keptStep (t : Storage) : StorageStep → StorageReply × Storage
  | .call c => t.call c
  | .reopen => (.ok .done, t)

/-- What a storage answers to steps in order when closing and opening leave it as it is. -/
def keptSteps (t : Storage) : List StorageStep → List StorageReply
  | [] => []
  | step :: rest => (t.keptStep step).1 :: (t.keptStep step).2.keptSteps rest

end Storage

namespace StorageSession

variable {path : String} {maxFileSize : Nat} {s : StorageSession} {t : Storage}

/-- A session with a database file mirrors a storage in memory. -/
structure Mirrors (path : String) (maxFileSize : Nat) (s : StorageSession) (t : Storage) : Prop where
  settings : s.settings = ⟨.sqlite, some path, maxFileSize⟩
  storage : s.storage.Mirrors (some path) (min maxFileSize maxStoredBytes) t
  file : ∃ place content, DatabaseFile s.files s.cwd path place content

/-- A step is answered alike, but for what the database does not list. -/
theorem Mirrors.step (h : s.Mirrors path maxFileSize t) (step : StorageStep) :
    (s.step step).1 = step.inDatabase (t.keptStep step).1 ∧
      (s.step step).2.Mirrors path maxFileSize (t.keptStep step).2 := by
  cases step with
  | call c =>
      obtain ⟨hreply, hafter⟩ := h.storage.call c
      exact ⟨hreply, h.settings, hafter, h.file⟩
  | reopen =>
      obtain ⟨rows, entries, hbackend, hmemory, hmirrors⟩ := h.storage.backend
      obtain ⟨place, content, hfile⟩ := h.file
      obtain ⟨opened, hopen, hopened⟩ :=
        Storage.openFile_of (Storage.save_file hfile hbackend) rows.read?_write
      have hreopen : Storage.ofSettings (s.storage.save s.files s.cwd) s.cwd s.settings =
          (.ok ⟨.database rows (some path), min maxFileSize maxStoredBytes⟩, opened) := by
        rw [h.settings]
        simp only [Storage.ofSettings, hopen]
        rfl
      simp only [StorageSession.step, hreopen]
      exact ⟨rfl, h.settings, ⟨⟨rows, entries, rfl, hmemory, hmirrors⟩, rfl,
        h.storage.maxSize_memory⟩, place, rows.write, hopened⟩

/-- Steps are answered alike, but for what the database does not list. -/
theorem Mirrors.steps (h : s.Mirrors path maxFileSize t) (steps : List StorageStep) :
    (s.steps steps).1 = List.zipWith StorageStep.inDatabase steps (t.keptSteps steps) := by
  induction steps generalizing s t with
  | nil => rfl
  | cons step steps ih =>
      obtain ⟨hreply, hafter⟩ := h.step step
      show (s.step step).1 :: ((s.step step).2.steps steps).1 = _
      rw [hreply, ih hafter]
      rfl

/-- A session that starts with an empty database mirrors an empty storage in memory. -/
theorem mirrors_start {cwd : List String} {files : FileTree}
    (hstart : start ⟨.sqlite, some path, maxFileSize⟩ cwd files = .ok s)
    (hempty : s.storage.backend = .database .empty (some path)) :
    s.Mirrors path maxFileSize (Storage.inMemory.withMaxSize maxFileSize) := by
  rcases hopen : Storage.openFile files cwd path with ⟨_ | storage, opened⟩
  · simp only [start, Storage.ofSettings, hopen] at hstart
    cases hstart
  · simp only [start, Storage.ofSettings, hopen] at hstart
    cases hstart
    obtain ⟨place, content, rows, hfile, rfl⟩ := Storage.openFile_ok hopen
    cases hempty
    exact ⟨rfl, ⟨⟨_, _, rfl, rfl, Database.mirrors_empty⟩, rfl, rfl⟩, place, content, hfile⟩

/-- A session with a database whose file is still missing starts with an empty database. -/
theorem start_missing {cwd place : List String} {files made : FileTree}
    (hparent : Storage.makeParent files cwd path = (made, none))
    (hresolve : made.resolve cwd path = .ok place) (hnode : made.node? place = none)
    (habove : made.isDirectoryAt place.dropLast = true) :
    ∃ s, start ⟨.sqlite, some path, maxFileSize⟩ cwd files = .ok s ∧
      s.storage.backend = .database .empty (some path) := by
  have hfile : Storage.databaseFile? made cwd path =
      some (.empty, made.put place (.file .empty)) := by
    simp only [Storage.databaseFile?, hresolve, hnode, habove, if_true]
  have hread : Database.read? .empty = some .empty := rfl
  simp only [start, Storage.ofSettings, Storage.openFile, hparent, hfile, hread]
  exact ⟨_, rfl, rfl⟩

/-- Steps that list nothing below a path with a NUL are answered alike. -/
theorem zipWith_inDatabase {steps : List StorageStep}
    (h : ∀ top, .call (.list top) ∈ steps → '\x00' ∉ top.toList) (t : Storage) :
    List.zipWith StorageStep.inDatabase steps (t.keptSteps steps) = t.keptSteps steps := by
  induction steps generalizing t with
  | nil => rfl
  | cons step steps ih =>
      rw [Storage.keptSteps, List.zipWith_cons_cons,
        ih (fun top htop => h top (List.mem_cons_of_mem _ htop))]
      congr 1
      cases step with
      | reopen => rfl
      | call c =>
          cases c with
          | list top =>
              have hnul : '\x00' ∉ top.toList := h top List.mem_cons_self
              show Storage.replyInDatabase (.list top) (t.call (.list top)).1 = _
              cases hreply : (t.call (.list top)).1 with
              | error fault => exact hreply.symm
              | ok answer =>
                  cases answer with
                  | rows rows => simp only [Storage.replyInDatabase, hnul, if_false]; exact hreply.symm
                  | _ => exact hreply.symm
          | _ => rfl

/-- From an empty database file on, every sequence of calls is answered as a storage in memory of the
same limit answers it, however often the file is closed and opened again in between; only what lies
below a path with a NUL is not listed. -/
theorem answers_sqlite {cwd : List String} {files : FileTree}
    (hstart : start ⟨.sqlite, some path, maxFileSize⟩ cwd files = .ok s)
    (hempty : s.storage.backend = .database .empty (some path)) (steps : List StorageStep) :
    (s.steps steps).1 = List.zipWith StorageStep.inDatabase steps
        ((Storage.inMemory.withMaxSize maxFileSize).keptSteps steps) ∧
      ((∀ top, .call (.list top) ∈ steps → '\x00' ∉ top.toList) →
        (s.steps steps).1 = (Storage.inMemory.withMaxSize maxFileSize).keptSteps steps) := by
  have hanswers := (mirrors_start hstart hempty).steps steps
  exact ⟨hanswers, fun hnul => hanswers.trans (zipWith_inDatabase hnul _)⟩

/-- Where nothing lies yet, a session with the database file "db" starts with an empty database. -/
theorem start_db : ∃ s, start ⟨.sqlite, some "db", 8⟩ [] .empty = .ok s ∧
    s.storage.backend = .database .empty (some "db") := by
  have hresolve : FileTree.empty.resolve [] "db" = .ok ["db"] := by
    have hsteps : FileTree.steps "db" = ["db"] := by decide +kernel
    rw [FileTree.resolve, String.contains_char_eq, if_neg (by decide), if_neg (by decide),
      if_neg (by decide +kernel), ite_self, hsteps]
    rfl
  exact start_missing rfl hresolve rfl rfl

/-- What was put before the file was closed is listed after it was opened again. -/
theorem reopened_lists : ∃ s, start ⟨.sqlite, some "db", 8⟩ [] .empty = .ok s ∧
    (s.steps [.call (.put "/a/b" [7].toByteArray), .reopen, .call (.list "a")]).1 =
      [.ok .done, .ok .done, .ok (.rows [("/a/b", 1)])] := by
  obtain ⟨s, hstart, hempty⟩ := start_db
  refine ⟨s, hstart, ((answers_sqlite hstart hempty _).2 ?_).trans rfl⟩
  simp

/-- The two backends differ on a path with a NUL: what is put below it is listed in memory only. -/
theorem nul_hides_entries : ∃ s, start ⟨.sqlite, some "db", 8⟩ [] .empty = .ok s ∧
    (s.steps [.call (.put "/a\x00b/c" [7].toByteArray), .call (.list "/a\x00b")]).1 =
      [.ok .done, .ok (.rows [])] ∧
    (Storage.inMemory.withMaxSize 8).keptSteps
        [.call (.put "/a\x00b/c" [7].toByteArray), .call (.list "/a\x00b")] =
      [.ok .done, .ok (.rows [("/a\x00b/c", 1)])] := by
  obtain ⟨s, hstart, hempty⟩ := start_db
  exact ⟨s, hstart, ((mirrors_start hstart hempty).steps _).trans rfl, rfl⟩

end StorageSession

end ScriptHost
