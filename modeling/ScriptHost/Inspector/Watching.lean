import ScriptHost.Inspector.Handle

/-!
# Watching a session

A controller waits for pauses while its session goes on. The channel between them keeps the latest
state that the session has published, with the number of publications so far, and tells whether the
session is gone. The handle remembers the number of publications at its last look. A call that waits
for a pause looks; when it finds nothing it waits until something has been published since, and looks
again, or until the session is gone.

`Watching.next` is the next step of a call in progress, `Watching.Step` the relation between the
channel with its handle before and after any event: a publication can come between any two steps of a
call.
-/

namespace ScriptHost.Inspector

/-- How far a call that waits for a pause has come. -/
inductive CallStage where
  /-- There is no call. -/
  | idle
  /-- It is going to look. -/
  | looking
  /-- It has found nothing and waits for a change. -/
  | waiting
  deriving DecidableEq, Repr

/-- The channel of a session, and the handle of its controller. -/
structure Watching where
  latest : SessionState
  /-- How many states have been published. -/
  version : Nat
  gone : Bool
  handle : Handle
  /-- The version of the last look. -/
  seen : Nat
  stage : CallStage
  deriving DecidableEq, Repr

namespace Watching

/-- A session that has just been attached. -/
def attached (session : String) : Watching :=
  ⟨.starting, 0, false, .attached session, 0, .idle⟩

/-- What happens to a channel and to its handle. -/
inductive Event where
  /-- The session publishes a state. -/
  | publish (state : SessionState)
  /-- The session goes away. -/
  | vanish
  /-- The controller calls for the next pause. -/
  | call
  /-- The call looks at the latest state and finds something in it. -/
  | look (state : SessionState) (sight : Sight)
  /-- The call notices that there has been a publication. -/
  | wake
  /-- The call returns since the session is gone. -/
  | leave (state : SessionState)
  /-- The controller gives up its call. -/
  | cancel
  deriving DecidableEq, Repr

/-- What a look finds; it does not tell whether the session is gone. -/
def sight (w : Watching) : Sight :=
  (w.handle.look ⟨w.latest, false⟩).1

/-- The channel and the handle after a look. -/
def looked (w : Watching) : Watching :=
  { w with
    handle := (w.handle.look ⟨w.latest, false⟩).2
    seen := w.version
    stage := if w.sight = .nothing then .waiting else .idle }

/-- The next step of a call, if there is a call and it need not wait. -/
def next (w : Watching) : Option (Event × Watching) :=
  match w.stage with
  | .idle => none
  | .looking => some (.look w.latest w.sight, w.looked)
  | .waiting =>
    if w.seen ≠ w.version then some (.wake, { w with seen := w.version, stage := .looking })
    else if w.gone then some (.leave w.latest, { w with stage := .idle })
    else none

/-- One event. -/
inductive Step : Watching → Event → Watching → Prop where
  | publish {w : Watching} {state : SessionState} (hthere : w.gone = false) :
    Step w (.publish state) { w with latest := state, version := w.version + 1 }
  | vanish {w : Watching} : Step w .vanish { w with gone := true }
  | call {w : Watching} (hidle : w.stage = .idle) : Step w .call { w with stage := .looking }
  | next {w w' : Watching} {event : Event} (hnext : w.next = some (event, w')) : Step w event w'
  | cancel {w : Watching} (hcalled : w.stage ≠ .idle) : Step w .cancel { w with stage := .idle }

/-- A sequence of events. -/
inductive Steps : Watching → List Event → Watching → Prop where
  | refl (w : Watching) : Steps w [] w
  | step {w v u : Watching} {event : Event} {events : List Event} (hstep : Step w event v)
    (hsteps : Steps v events u) : Steps w (event :: events) u

/-- A sequence of steps of a call while nothing else happens. -/
inductive Own : Watching → List Event → Watching → Prop where
  | refl (w : Watching) : Own w [] w
  | step {w v u : Watching} {event : Event} {events : List Event}
    (hnext : w.next = some (event, v)) (hown : Own v events u) : Own w (event :: events) u

end Watching

end ScriptHost.Inspector
