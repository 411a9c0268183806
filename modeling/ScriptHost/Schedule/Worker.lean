import ScriptHost.Schedule.Status

/-!
# The loop that drives a task

Every started task is driven by a loop of its own: it waits for a tick, starts a run, waits for the
run to end and waits again, until it is told to stop. The clock counts whole milliseconds. A tick
that is taken on time, or at most `Worker.tolerance` late, leaves the following ticks where they
are. After a later one the ticks that were missed are skipped and the following ones stay on the
grid of intervals.
-/

namespace ScriptHost

/-- A task that is started at instant zero: its name, and when its ticks are due. -/
structure StartedTask where
  name : String
  interval : Nat
  delay : Nat
  pos : 0 < interval
  deriving DecidableEq, Repr

/-- What a run of a task does: it takes some milliseconds and ends. -/
structure TaskRun where
  millis : Nat
  outcome : RunOutcome
  deriving DecidableEq, Repr

/-- Where a loop stands. A run in flight ends at an instant. -/
inductive LoopPhase where
  | waiting
  | running (ending : Nat) (outcome : RunOutcome)
  | stopped
  deriving DecidableEq, Repr

/-- A loop with the status it publishes, the instant at which its next tick is due, and the outcomes
of its completed runs, latest first. -/
structure Worker where
  task : StartedTask
  status : TaskStatus
  phase : LoopPhase
  due : Nat
  outcomes : List RunOutcome
  deriving DecidableEq, Repr

namespace Worker

/-- How late a tick may be taken without any tick being skipped. -/
def tolerance : Nat := 5

/-- When the tick after one that was due at `due` and is taken at `now` is due. -/
def nextDue (interval due now : Nat) : Nat :=
  if now ≤ due + tolerance then due + interval
  else now + interval - (now - due) % interval

/-- Ticks come one after the other. -/
theorem lt_nextDue {interval : Nat} (pos : 0 < interval) (due now : Nat) :
    due < nextDue interval due now := by
  unfold nextDue
  split
  · omega
  · have := Nat.mod_lt (now - due) pos
    omega

/-- The loop of a task that has just been started. -/
def initial (task : StartedTask) : Worker :=
  ⟨task, .initial task.name, .waiting, task.delay, []⟩

/-- The loop takes the tick that is due: a run starts. -/
def start (w : Worker) (run : TaskRun) (now : Nat) : Worker :=
  { w with
    status := w.status.started
    phase := .running (now + run.millis) run.outcome
    due := nextDue w.task.interval w.due now }

/-- The run in flight ends. -/
def finish (w : Worker) (outcome : RunOutcome) (now : Nat) : Worker :=
  { w with
    status := w.status.finished outcome now
    phase := .waiting
    outcomes := outcome :: w.outcomes }

/-- The loop stops. -/
def stop (w : Worker) : Worker :=
  { w with phase := .stopped }

/-- How many runs have started. -/
def startedRuns (w : Worker) : Nat :=
  match w.phase with
  | .running _ _ => w.status.runs + 1
  | .waiting | .stopped => w.status.runs

/-- When the loop comes round again: at once, or when the run in flight has ended. -/
def comesRound (w : Worker) (now : Nat) : Nat :=
  match w.phase with
  | .running ending _ => max now ending
  | .waiting | .stopped => now

/-- The loop once the run in flight, if there is one, has ended at an instant. -/
def landed (w : Worker) (now : Nat) : Worker :=
  match w.phase with
  | .running _ outcome => w.finish outcome now
  | .waiting | .stopped => w

section Phases

variable {w : Worker} {ending : Nat} {outcome : RunOutcome}

theorem comesRound_running (h : w.phase = .running ending outcome) (now : Nat) :
    w.comesRound now = max now ending := by
  rw [comesRound, h]

theorem comesRound_waiting (h : w.phase = .waiting) (now : Nat) : w.comesRound now = now := by
  rw [comesRound, h]

theorem comesRound_stopped (h : w.phase = .stopped) (now : Nat) : w.comesRound now = now := by
  rw [comesRound, h]

theorem landed_running (h : w.phase = .running ending outcome) (now : Nat) :
    w.landed now = w.finish outcome now := by
  rw [landed, h]

theorem landed_waiting (h : w.phase = .waiting) (now : Nat) : w.landed now = w := by
  rw [landed, h]

theorem landed_stopped (h : w.phase = .stopped) (now : Nat) : w.landed now = w := by
  rw [landed, h]

/-- A loop that has stopped cannot stop any further. -/
theorem stop_stopped (h : w.phase = .stopped) : w.stop = w := by
  show { w with phase := .stopped } = w
  rw [← h]

end Phases

/-- The run in flight has no say in when the next tick is due. -/
theorem landed_due (w : Worker) (now : Nat) : (w.landed now).due = w.due := by
  unfold landed
  split <;> rfl

end Worker

end ScriptHost
