import ScriptHost.Schedule.Worker

/-!
# Loops side by side

The loops of all started tasks share a clock and a token that cancels them. `Fleet.Step` is the
relation between their states before and after one event. A waiting loop may take a tick that is
due, and it may stop once the token is cancelled. Where both are there, either may happen: nothing
says which of the two comes first.
-/

namespace ScriptHost

/-- A loop has nothing to do before an instant: a waiting one has its tick to take, or the
cancellation, and a running one the end of its run. -/
def Worker.IdleUntil (w : Worker) (cancelled : Bool) (later : Nat) : Prop :=
  match w.phase with
  | .waiting => cancelled = false ∧ later ≤ w.due
  | .running ending _ => later ≤ ending
  | .stopped => True

section IdleUntil

variable {w : Worker} {cancelled : Bool} {later : Nat}

theorem Worker.idleUntil_waiting (h : w.phase = .waiting) :
    w.IdleUntil cancelled later ↔ cancelled = false ∧ later ≤ w.due := by
  rw [Worker.IdleUntil, h]

theorem Worker.idleUntil_running {ending : Nat} {outcome : RunOutcome}
    (h : w.phase = .running ending outcome) : w.IdleUntil cancelled later ↔ later ≤ ending := by
  rw [Worker.IdleUntil, h]

theorem Worker.idleUntil_stopped (h : w.phase = .stopped) : w.IdleUntil cancelled later := by
  rw [Worker.IdleUntil, h]
  trivial

end IdleUntil

/-- The loops of all tasks on a clock, and whether they have been cancelled. -/
structure Fleet where
  now : Nat
  workers : List Worker
  cancelled : Bool

namespace Fleet

/-- The loops of tasks that have just been started. -/
def initial (tasks : List StartedTask) : Fleet :=
  ⟨0, tasks.map .initial, false⟩

/-- The loops with one of them replaced. -/
def set (f : Fleet) (i : Nat) (w : Worker) : Fleet :=
  { f with workers := f.workers.set i w }

/-- The loops with the token cancelled. -/
def cancel (f : Fleet) : Fleet :=
  { f with cancelled := true }

/-- What happens: time passes, a loop takes a tick and starts a run, the run in flight of a loop
ends, all loops are cancelled, or a loop stops. -/
inductive Event where
  | pass (later : Nat)
  | tick (i : Nat) (run : TaskRun)
  | finish (i : Nat)
  | cancel
  | stop (i : Nat)
  deriving DecidableEq, Repr

/-- One event, in any order in which events are possible. -/
inductive Step : Fleet → Event → Fleet → Prop
  | pass {f : Fleet} {later : Nat} (hlater : f.now ≤ later) :
    Step f (.pass later) { f with now := later }
  | tick {f : Fleet} {i : Nat} {w : Worker} {run : TaskRun} (hworker : f.workers[i]? = some w)
    (hphase : w.phase = .waiting) (hdue : w.due ≤ f.now) :
    Step f (.tick i run) (f.set i (w.start run f.now))
  | finish {f : Fleet} {i : Nat} {w : Worker} {ending : Nat} {outcome : RunOutcome}
    (hworker : f.workers[i]? = some w) (hphase : w.phase = .running ending outcome)
    (hending : ending ≤ f.now) : Step f (.finish i) (f.set i (w.finish outcome f.now))
  | cancel {f : Fleet} : Step f .cancel f.cancel
  | stop {f : Fleet} {i : Nat} {w : Worker} (hworker : f.workers[i]? = some w)
    (hphase : w.phase = .waiting) (hcancelled : f.cancelled = true) :
    Step f (.stop i) (f.set i w.stop)

/-- Time may pass up to an instant without any loop having something to do before it. -/
def IdleUntil (f : Fleet) (later : Nat) : Prop :=
  ∀ w ∈ f.workers, w.IdleUntil f.cancelled later

/-- One event, where time passes only as long as no loop has something to do. -/
def PromptStep (f : Fleet) (event : Event) (g : Fleet) : Prop :=
  Step f event g ∧ ∀ later, event = .pass later → f.IdleUntil later

/-- A sequence of events. -/
inductive Steps (step : Fleet → Event → Fleet → Prop) : Fleet → List Event → Fleet → Prop
  | refl (f : Fleet) : Steps step f [] f
  | step {f g h : Fleet} {event : Event} {events : List Event} (hstep : step f event g)
    (hsteps : Steps step g events h) : Steps step f (event :: events) h

end Fleet

end ScriptHost
