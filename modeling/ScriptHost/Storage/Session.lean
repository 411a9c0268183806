import ScriptHost.Storage.Call

/-!
# Sessions with a storage

A storage that settings describe is called, and now and then closed and opened again. What is in a
database file is there again afterwards; what is in memory is not.
-/

namespace ScriptHost

/-- What is done in a session: a call, or closing the storage and opening it again. -/
inductive StorageStep where
  | call (c : StorageCall)
  | reopen

/-- A storage in use that settings describe, and the files meanwhile. -/
structure StorageSession where
  settings : StorageSettings
  cwd : List String
  storage : Storage
  files : FileTree

namespace StorageSession

/-- Open the storage of settings. -/
def start (settings : StorageSettings) (cwd : List String) (files : FileTree) :
    Except StorageFault StorageSession :=
  let (opened, files) := Storage.ofSettings files cwd settings
  opened.map fun storage => ⟨settings, cwd, storage, files⟩

/-- Do a step. -/
def step (s : StorageSession) : StorageStep → StorageReply × StorageSession
  | .call c =>
    let (reply, storage) := s.storage.call c
    (reply, { s with storage })
  | .reopen =>
    match Storage.ofSettings (s.storage.save s.files s.cwd) s.cwd s.settings with
    | (.ok storage, files) => (.ok .done, { s with storage, files })
    | (.error fault, files) => (.error fault, { s with files })

/-- Do steps in order. -/
def steps (s : StorageSession) : List StorageStep → List StorageReply × StorageSession
  | [] => ([], s)
  | step :: rest =>
    let (reply, after) := s.step step
    let (replies, final) := after.steps rest
    (reply :: replies, final)

end StorageSession

end ScriptHost
