import ScriptHost.Storage.Basic

/-!
# Calls on a storage

A storage is used by calling it again and again. Each call is answered, and what the storage holds
afterwards is what the next call finds; a call that fails leaves the storage as it was.
-/

namespace ScriptHost

/-- What can be asked of a storage. -/
inductive StorageCall where
  | put (path : String) (data : ByteArray)
  | putText (path text : String)
  | get (path : String)
  | getText (path : String)
  | contains (path : String)
  | delete (path : String)
  | clear
  | list (path : String)

/-- What a storage answers. -/
inductive StorageAnswer where
  | done
  | data (found : Option ByteArray)
  | text (found : Option String)
  | flag (value : Bool)
  | count (entries : Nat)
  | rows (listed : List (String × Nat))

/-- An answer or the fault of a call. -/
abbrev StorageReply := Except StorageFault StorageAnswer

namespace Storage

/-- Answer a call for which a computation gives the storage afterwards. -/
def changed (s : Storage) (result : Except StorageFault (StorageAnswer × Storage)) :
    StorageReply × Storage :=
  match result with
  | .ok (answer, after) => (.ok answer, after)
  | .error fault => (.error fault, s)

/-- Answer a call. -/
def call (s : Storage) : StorageCall → StorageReply × Storage
  | .put path data => s.changed ((s.put path data).map fun after => (.done, after))
  | .putText path text => s.changed ((s.putText path text).map fun after => (.done, after))
  | .get path => ((s.get path).map .data, s)
  | .getText path => ((s.getText path).map .text, s)
  | .contains path => ((s.contains path).map .flag, s)
  | .delete path =>
    s.changed ((s.delete path).map fun (found, after) => (.flag found, after))
  | .clear =>
    let (count, after) := s.clear
    (.ok (.count count), after)
  | .list path => ((s.list path).map .rows, s)

/-- Answer calls in order. -/
def calls (s : Storage) : List StorageCall → List StorageReply × Storage
  | [] => ([], s)
  | c :: rest =>
    let (reply, after) := s.call c
    let (replies, final) := after.calls rest
    (reply :: replies, final)

end Storage

end ScriptHost
