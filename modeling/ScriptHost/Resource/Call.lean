import ScriptHost.Resource.Store

/-!
# Calls on a resource store

A store is used by calling it again and again. What it holds after a call, or what is in the files
below its root, is what the next call finds.
-/

namespace ScriptHost

/-- What can be asked of a resource store. -/
inductive StoreCall where
  | read (path : String)
  | contains (path : String)
  | write (path : String) (content : ByteArray)
  | delete (path : String)

/-- The path that a call is about. -/
def StoreCall.path : StoreCall → String
  | read path | contains path | write path _ | delete path => path

/-- What a resource store answers. -/
inductive StoreAnswer where
  | resource (found : Resource)
  | flag (value : Bool)
  | done

/-- An answer or the fault of a call. -/
abbrev StoreReply := Except StoreFault StoreAnswer

namespace ResourceStore

/-- Answer a call. -/
def call (s : ResourceStore) (v : FileView) : StoreCall → StoreReply × ResourceStore × FileView
  | .read path => ((s.read v path).map .resource, s, v)
  | .contains path => (.ok (.flag (s.contains v path)), s, v)
  | .write path content =>
    let (result, after, view) := s.write v path content
    (result.map fun _ => .done, after, view)
  | .delete path =>
    let (result, after, view) := s.delete v path
    (result.map .flag, after, view)

/-- Answer calls in order. -/
def calls (s : ResourceStore) (v : FileView) :
    List StoreCall → List StoreReply × ResourceStore × FileView
  | [] => ([], s, v)
  | c :: rest =>
    let (reply, after, view) := s.call v c
    let (replies, final) := after.calls view rest
    (reply :: replies, final)

end ResourceStore

end ScriptHost
