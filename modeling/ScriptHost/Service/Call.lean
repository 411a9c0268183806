import ScriptHost.Service.Basic

/-!
# Calls on a service

A service is used by calling it again and again: resources are deployed, deleted and executed. Each
call is answered, and finds the service as the calls before it have left it.
-/

namespace ScriptHost

/-- What can be asked of a service. -/
inductive ServiceCall where
  | deploy (path : String) (content : ByteArray)
  | delete (path : String)
  | execute (request : Request)

/-- What a service answers. -/
inductive ServiceReply where
  | deployed (result : Except StoreFault String)
  | deleted (result : Except StoreFault Bool)
  | executed (result : Except Error Output)

namespace Service

/-- Answer a call. -/
def call (s : Service) : ServiceCall → ServiceReply × Service
  | .deploy path content =>
    let (result, after) := s.deploy path content
    (.deployed result, after)
  | .delete path =>
    let (result, after) := s.delete path
    (.deleted result, after)
  | .execute request =>
    let (result, after) := s.execute request
    (.executed result, after)

/-- Answer calls in order. -/
def calls (s : Service) : List ServiceCall → List ServiceReply × Service
  | [] => ([], s)
  | c :: rest =>
    let (reply, after) := s.call c
    let (replies, final) := after.calls rest
    (reply :: replies, final)

end Service

end ScriptHost
