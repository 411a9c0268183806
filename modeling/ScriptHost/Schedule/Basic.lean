import ScriptHost.Error

/-!
# Schedulers

A scheduler collects tasks before they start. Each has a name of its own and a schedule: a first run
after a delay, and then one run per interval, which is never zero.
-/

namespace ScriptHost

/-- When a task runs. -/
structure Schedule where
  interval : Duration
  delay : Duration
  deriving DecidableEq, Repr

namespace Schedule

/-- A run in every interval, beginning at once. -/
def every (interval : Duration) : Schedule :=
  ⟨interval, ⟨0⟩⟩

/-- The schedule with another delay before its first run. -/
def withDelay (s : Schedule) (delay : Duration) : Schedule :=
  { s with delay }

end Schedule

/-- A task with its name and schedule. -/
structure ScheduledTask (α : Type) where
  name : String
  schedule : Schedule
  task : α

/-- Tasks in the order they were registered. -/
structure Scheduler (α : Type) where
  entries : List (ScheduledTask α)

namespace Scheduler

variable {α : Type}

/-- No tasks. -/
def empty : Scheduler α :=
  ⟨[]⟩

/-- Whether a name is taken. -/
def contains (s : Scheduler α) (name : String) : Bool :=
  s.entries.any (·.name == name)

/-- Register a task, unless its name is taken or its interval is zero. -/
def add (s : Scheduler α) (t : ScheduledTask α) : Except Error (Scheduler α) :=
  if s.contains t.name then .error (.duplicateTask t.name)
  else if t.schedule.interval.nanos = 0 then .error (.invalidDefinition t.name .zeroInterval)
  else .ok ⟨s.entries ++ [t]⟩

/-- Register tasks one after the other, up to the first that is refused. -/
def addAll (s : Scheduler α) (ts : List (ScheduledTask α)) : Except Error (Scheduler α) :=
  ts.foldlM add s

/-- The number of tasks. -/
def size (s : Scheduler α) : Nat :=
  s.entries.length

end Scheduler

end ScriptHost
