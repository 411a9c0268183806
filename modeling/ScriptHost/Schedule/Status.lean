import ScriptHost.Schedule.Basic

/-!
# The status of a scheduled task

What can be seen of a task from outside: whether it runs, how often it ran and failed, what its last
failure was and when it last ended. A run may succeed, report a fault or break off; breaking off
carries a payload, of which texts are shown.
-/

namespace ScriptHost

/-- Whether a run is in flight. -/
inductive TaskState where
  | idle
  | running
  deriving DecidableEq, Repr

namespace TaskState

/-- The word for a state. -/
def label : TaskState → String
  | idle => "idle"
  | running => "running"

end TaskState

/-- What a run that breaks off leaves behind. -/
inductive PanicPayload where
  | text (message : String)
  | other
  deriving DecidableEq, Repr

namespace PanicPayload

/-- What is shown of a payload. -/
def message : PanicPayload → String
  | text message => message
  | other => "unknown panic"

end PanicPayload

/-- How a run of a task ends. The fault that a run reports need not name its own task. -/
inductive RunOutcome where
  | success
  | failed (fault : TaskFault)
  | panicked (payload : PanicPayload)
  deriving DecidableEq, Repr

namespace RunOutcome

/-- The fault of a run of a task, if it did not succeed. -/
def fault? (task : String) : RunOutcome → Option TaskFault
  | success => none
  | failed fault => some fault
  | panicked payload => some (.panicked task payload.message)

end RunOutcome

/-- What can be seen of a task. The last run is the instant at which it ended. The runs and failures
are counted in 64 bits, so numbers below `2 ^ 64` are meant. -/
structure TaskStatus where
  name : String
  state : TaskState
  runs : Nat
  failures : Nat
  lastError : Option String
  lastRun : Option Nat
  deriving DecidableEq, Repr

namespace TaskStatus

/-- The status of a task that has never run. -/
def initial (name : String) : TaskStatus :=
  ⟨name, .idle, 0, 0, none, none⟩

/-- The status once a run has started. -/
def started (s : TaskStatus) : TaskStatus :=
  { s with state := .running }

/-- The status once the run has ended at some instant. -/
def finished (s : TaskStatus) (outcome : RunOutcome) (now : Nat) : TaskStatus :=
  let ended := { s with state := .idle, runs := s.runs + 1, lastRun := some now }
  match outcome.fault? s.name with
  | none => ended
  | some fault => { ended with failures := s.failures + 1, lastError := some fault.message }

end TaskStatus

end ScriptHost
