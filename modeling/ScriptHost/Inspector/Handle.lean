import ScriptHost.Error
import ScriptHost.Inspector.Session

/-!
# The handle of a controller

A controller holds a handle on a debug session. It sees only the latest state the session has
published, and knows whether there will be another one. Waiting for a pause is looking again and again:
each look finds a pause that was not returned before, or that the session is over, or nothing yet.
-/

namespace ScriptHost.Inspector

/-- What a handle sees of its session: the latest state, and whether the session is gone. -/
structure Watched where
  latest : SessionState
  gone : Bool
  deriving DecidableEq, Repr

/-- The handle of a controller with the number of the last pause it has returned. -/
structure Handle where
  session : String
  lastPause : UInt32
  deriving DecidableEq, Repr

/-- What a look at a session finds. -/
inductive Sight where
  | pause (line : UInt32)
  | over
  | nothing
  deriving DecidableEq, Repr

namespace Handle

/-- The handle of a session that has just been attached. -/
def attached (session : String) : Handle :=
  ⟨session, 0⟩

/-- Look at the session once. -/
def look (h : Handle) (w : Watched) : Sight × Handle :=
  let without := if w.gone then Sight.over else .nothing
  match w.latest with
  | .suspended line pause =>
    if h.lastPause < pause then (.pause line, { h with lastPause := pause }) else (without, h)
  | .terminated => (.over, h)
  | .starting | .running => (without, h)

/-- Wait for a pause while the session shows itself in a number of ways, and tell what was found. The
rest is what the handle has not looked at. -/
def waitSuspended (h : Handle) : List Watched → Option (Option UInt32 × Handle × List Watched)
  | [] => none
  | w :: later =>
    match h.look w with
    | (.pause line, h) => some (some line, h, later)
    | (.over, h) => some (none, h, later)
    | (.nothing, h) => h.waitSuspended later

/-- Whether a command can be sent to the session. -/
def send (h : Handle) (w : Watched) : Except Error Unit :=
  if w.gone then .error (.debug (.ended h.session)) else .ok ()

end Handle

end ScriptHost.Inspector
