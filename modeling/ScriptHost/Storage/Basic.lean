import ScriptHost.FileTree
import ScriptHost.Resource.Path
import ScriptHost.Settings.Basic
import ScriptHost.Storage.Database
import ScriptHost.Storage.Memory
import ScriptHost.Text.Utf8

/-!
# Storage

A storage keeps data under paths. Every spelling of a path means its normal spelling, and no data is
longer than the storage's limit, which never exceeds ten mebibytes. The entries live in memory or
in a database; a database may lie in a file, which `Storage.save` writes.
-/

namespace ScriptHost

/-- What keeps the entries of a storage. -/
inductive StorageBackend where
  | memory (entries : MemoryEntries)
  | database (rows : Database) (file : Option String)

namespace StorageBackend

/-- The data under a path. -/
def get? (b : StorageBackend) (path : String) : Option ByteArray :=
  match b with
  | memory entries => entries.get? path
  | database rows _ => rows.get? path

/-- The backend with new data under a path. -/
def put (b : StorageBackend) (path : String) (data : ByteArray) : StorageBackend :=
  match b with
  | memory entries => memory (entries.put path data)
  | database rows file => database (rows.put path data) file

/-- The backend without a path, and whether it was there. -/
def delete (b : StorageBackend) (path : String) : Bool × StorageBackend :=
  match b with
  | memory entries =>
    let (found, entries) := entries.delete path
    (found, memory entries)
  | database rows file =>
    let (found, rows) := rows.delete path
    (found, database rows file)

/-- The backend without entries, and how many there were. -/
def clear (b : StorageBackend) : Nat × StorageBackend :=
  match b with
  | memory entries =>
    let (count, entries) := entries.clear
    (count, memory entries)
  | database rows file =>
    let (count, rows) := rows.clear
    (count, database rows file)

/-- The paths at or below a path in order, each with the length of its data. -/
def list (b : StorageBackend) (top : String) : List (String × Nat) :=
  match b with
  | memory entries => entries.list top
  | database rows _ => rows.list top

end StorageBackend

/-- A storage and the length of the longest data it accepts. -/
structure Storage where
  backend : StorageBackend
  maxSize : Nat

namespace Storage

/-- An empty storage in memory with the largest limit. -/
def inMemory : Storage :=
  ⟨.memory .empty, maxStoredBytes⟩

/-- An empty storage in a database without a file, with the largest limit. -/
def inDatabase : Storage :=
  ⟨.database .empty none, maxStoredBytes⟩

/-- The storage with another limit; a limit beyond the largest one is cut down to it. -/
def withMaxSize (s : Storage) (limit : Nat) : Storage :=
  { s with maxSize := min limit maxStoredBytes }

/-- The normal spelling of a path. -/
def key (path : String) : Except StorageFault String :=
  match ResourcePath.normalize? path with
  | some key => .ok key
  | none => .error (.invalidPath path)

/-- The storage with new data under a path. -/
def put (s : Storage) (path : String) (data : ByteArray) : Except StorageFault Storage := do
  let key ← key path
  if data.size > s.maxSize then throw (.oversize key data.size s.maxSize)
  else return { s with backend := s.backend.put key data }

/-- The storage with a new text under a path. -/
def putText (s : Storage) (path text : String) : Except StorageFault Storage :=
  s.put path text.toUTF8

/-- The data under a path, if there is any. -/
def get (s : Storage) (path : String) : Except StorageFault (Option ByteArray) :=
  (key path).map s.backend.get?

/-- The data under a path as text, if there is any. -/
def getText (s : Storage) (path : String) : Except StorageFault (Option String) :=
  (s.get path).map (·.map Text.lossy)

/-- Whether there is data under a path. -/
def contains (s : Storage) (path : String) : Except StorageFault Bool :=
  (s.get path).map Option.isSome

/-- The storage without a path, and whether it was there. -/
def delete (s : Storage) (path : String) : Except StorageFault (Bool × Storage) := do
  let (found, backend) := s.backend.delete (← key path)
  return (found, { s with backend })

/-- The storage without entries, and how many there were. -/
def clear (s : Storage) : Nat × Storage :=
  let (count, backend) := s.backend.clear
  (count, { s with backend })

/-- The path below which a listing looks: nothing but slashes means everything. -/
def listTop (path : String) : Except StorageFault String :=
  if path.toList.all (· == '/') then .ok "/" else key path

/-- The paths at or below a path in order, each with the length of its data. -/
def list (s : Storage) (path : String) : Except StorageFault (List (String × Nat)) :=
  (listTop path).map s.backend.list

/-- The names of the two files that stand beside an open database file. -/
def sideFiles (path : String) : List String :=
  [path ++ "-shm", path ++ "-wal"]

/-- The content of the database file a path leads to, and the tree with it; it is made when it is
missing. Nothing but a file will do. -/
def databaseFile? (files : FileTree) (cwd : List String) (path : String) :
    Option (ByteArray × FileTree) :=
  match files.resolve cwd path with
  | .error _ => none
  | .ok place =>
    match files.node? place with
    | some (.file content) => some (content, files)
    | some _ => none
    | none =>
      if files.isDirectoryAt place.dropLast then
        some (.empty, files.put place (.file .empty))
      else none

/-- Make the directory of a path when it is missing. -/
def makeParent (files : FileTree) (cwd : List String) (path : String) :
    FileTree × Option FileFault :=
  match parentPath? path with
  | some parent => if parent = "" then (files, none) else files.makeDirectoryPath cwd parent
  | none => (files, none)

/-- Open a database file, making it and its directory when they are missing. -/
def openFile (files : FileTree) (cwd : List String) (path : String) :
    Except StorageFault Storage × FileTree :=
  match makeParent files cwd path with
  | (files, some fault) =>
    (.error (.backend (.directory ((parentPath? path).getD "") fault)), files)
  | (files, none) =>
    match databaseFile? files cwd path with
    | none => (.error (.backend .database), files)
    | some (content, made) =>
      match Database.read? content with
      | none => (.error (.backend .database), made)
      | some rows =>
        let opened := (sideFiles path).foldl
          (fun files side => (files.modify cwd side id).toOption.getD files) made
        (.ok ⟨.database rows (some path), maxStoredBytes⟩, opened)

/-- Open the storage that settings describe. -/
def ofSettings (files : FileTree) (cwd : List String) (s : StorageSettings) :
    Except StorageFault Storage × FileTree :=
  match s.backend, s.path with
  | .memory, _ => (.ok (inMemory.withMaxSize s.maxFileSize), files)
  | .sqlite, none => (.error (.backend .missingPath), files)
  | .sqlite, some path =>
    let (storage, files) := openFile files cwd path
    (storage.map (·.withMaxSize s.maxFileSize), files)

/-- Close a storage: a database in a file is written there, and the files beside it disappear. -/
def save (s : Storage) (files : FileTree) (cwd : List String) : FileTree :=
  match s.backend with
  | .database rows (some path) =>
    let written := (files.write cwd path rows.write).toOption.getD files
    (sideFiles path).foldl (fun files side => (files.remove cwd side).toOption.getD files) written
  | _ => files

end Storage

end ScriptHost
