import ScriptHost.Inspector.Protocol
import ScriptHost.Json.Writer

/-!
# Debug sessions

A debug session stands between the inspector of a running script and a controller. It publishes its
state, holds the script where the inspector reports a pause, and passes the commands of the controller
on. `Session.react` is what it does with one input, `Session.run` with a sequence of them, and
`Session.published` is the sequence of states that a controller can see.

The first pause is the one in which an inspector holds every script before its first line; unless it
hits a breakpoint it is resumed at once. So is every pause once the controller is gone.
-/

namespace ScriptHost.Inspector

/-- The state that a session shows. Lines count from one within 32 bits, and so do pauses. -/
inductive SessionState where
  | starting
  | running
  | suspended (line pause : UInt32)
  | terminated
  deriving DecidableEq, Repr

/-- A command of the controller. -/
inductive Command where
  | resume
  | stepOver
  | terminate
  deriving DecidableEq, Repr

/-- A call to the inspector. -/
inductive Call where
  | enableRuntime
  | enableDebugger
  /-- Set a breakpoint on a line, counted from zero, of the scripts whose URL fits a pattern. -/
  | setBreakpoint (line : UInt32) (pattern : String)
  | runIfWaiting
  | resume
  | stepOver
  deriving DecidableEq, Repr

namespace Call

/-- The method of a call. -/
def method : Call → String
  | enableRuntime => "Runtime.enable"
  | enableDebugger => "Debugger.enable"
  | setBreakpoint .. => "Debugger.setBreakpointByUrl"
  | runIfWaiting => "Runtime.runIfWaitingForDebugger"
  | resume => "Debugger.resume"
  | stepOver => "Debugger.stepOver"

/-- The parameters of a call. -/
def params : Call → List (String × Json.Value)
  | setBreakpoint line pattern =>
    [("lineNumber", .number (.ofNat line.toNat)), ("urlRegex", .string pattern)]
  | _ => []

/-- The message that makes a call under a number. -/
def message (c : Call) (id : Nat) : Json.Value :=
  .object [("id", .number (.ofNat id)), ("method", .string c.method), ("params", .object c.params)]

end Call

/-- The calls that open a session: the breakpoints are set before the script is released. -/
def openingCalls (breakpoints : List UInt32) (fileName : String) : List Call :=
  [.enableRuntime, .enableDebugger]
    ++ breakpoints.map (fun line => .setBreakpoint (line - min line 1) (urlPattern fileName))
    ++ [.runIfWaiting]

/-- What can happen to a session while its script runs. -/
inductive Input where
  /-- The inspector sends a text. -/
  | message (text : String)
  /-- The inspector asks for a sign of life. -/
  | ping (data : ByteArray)
  /-- The inspector sends anything else. -/
  | noise
  /-- The connection to the inspector ends. -/
  | disconnected
  | command (c : Command)
  /-- The controller goes away. -/
  | controllerLost
  /-- The script has run for as long as it may. -/
  | deadline

/-- Why a session stops listening to its inspector. -/
inductive Ending where
  | closed
  | terminated
  | timedOut
  deriving DecidableEq, Repr

/-- What a session does in answer to an input. -/
inductive Effect where
  | call (c : Call)
  | pong (data : ByteArray)
  | publish (state : SessionState)
  /-- Kill the process of the script. -/
  | kill
  /-- Close the connection to the inspector. -/
  | close

/-- A session whose script has been released. -/
structure Session where
  state : SessionState
  pauses : UInt32
  sawPause : Bool
  controllerGone : Bool
  deriving DecidableEq, Repr

/-- What an input makes of a session: what it does, and how it goes on. -/
structure Reaction where
  effects : List Effect
  next : Session ⊕ Ending

namespace Session

/-- The session right after the script has been released. -/
def released : Session :=
  ⟨.running, 0, false, false⟩

/-- Whether the script is held at a pause. -/
def isSuspended (s : Session) : Bool :=
  match s.state with
  | .suspended .. => true
  | _ => false

/-- The reaction of going on in a state that is published. -/
def entering (s : Session) (state : SessionState) (effects : List Effect) : Reaction :=
  ⟨effects ++ [.publish state], .inl { s with state }⟩

/-- A pause: it is resumed at once when nothing can hold it. -/
def pause (s : Session) (line : UInt32) (hitBreakpoint : Bool) : Reaction :=
  let initial := !s.sawPause && !hitBreakpoint
  let s := { s with sawPause := true }
  if initial || s.controllerGone then ⟨[.call .resume], .inl s⟩
  else
    let s := { s with pauses := s.pauses + 1 }
    s.entering (.suspended (line + 1) s.pauses) []

/-- What an event of the inspector makes of a session. -/
def onEvent (s : Session) : Event → Reaction
  | .paused _ line hitBreakpoint => s.pause (.ofNat line) hitBreakpoint
  | .resumed => if s.isSuspended then ⟨[], .inl s⟩ else s.entering .running []
  | .contextDestroyed => ⟨[.close], .inr .closed⟩
  | .response .. | .other _ => ⟨[], .inl s⟩

/-- What a command makes of a session. -/
def onCommand (s : Session) : Command → Reaction
  | .resume => s.entering .running [.call .resume]
  | .stepOver => s.entering .running [.call .stepOver]
  | .terminate => ⟨[.kill], .inr .terminated⟩

/-- Whether a session takes an input: the controller is heard only at a pause, and there the time of
the script stands still. -/
def accepts (s : Session) : Input → Bool
  | .command _ | .controllerLost => s.isSuspended && !s.controllerGone
  | .deadline => !s.isSuspended
  | _ => true

/-- What an input makes of a session that takes it. -/
def react (s : Session) : Input → Reaction
  | .message text =>
    match event? text with
    | some event => s.onEvent event
    | none => ⟨[], .inl s⟩
  | .ping data => ⟨[.pong data], .inl s⟩
  | .noise => ⟨[], .inl s⟩
  | .disconnected => ⟨[], .inr .closed⟩
  | .command c => s.onCommand c
  | .controllerLost => { s with controllerGone := true }.entering .running [.call .resume]
  | .deadline => ⟨[.kill], .inr .timedOut⟩

/-- What a sequence of inputs makes of a session, if it takes each of them in turn. -/
def run (s : Session) : List Input → Option Reaction
  | [] => some ⟨[], .inl s⟩
  | input :: inputs =>
    if s.accepts input then
      let first := s.react input
      match first.next, inputs with
      | .inl s, _ => (s.run inputs).map fun rest => { rest with effects := first.effects ++ rest.effects }
      | .inr _, [] => some first
      | .inr _, _ :: _ => none
    else none

/-- The states that some effects publish. -/
def statesOf (effects : List Effect) : List SessionState :=
  effects.filterMap fun
    | .publish state => some state
    | _ => none

/-- All states that a session publishes from its attachment to its end, given what it did between. -/
def published (effects : List Effect) : List SessionState :=
  [.starting, .running] ++ statesOf effects ++ [.terminated]

end Session

end ScriptHost.Inspector
