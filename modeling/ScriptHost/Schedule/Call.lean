import ScriptHost.Schedule.Basic

/-!
# Calls on a scheduler

A scheduler is filled by one call after the other. Registering changes the scheduler in place, once
the name of the task and then its interval have been checked. Each call finds the scheduler as the
calls before it have left it, those that have failed among them.
-/

namespace ScriptHost

namespace Scheduler

variable {α : Type}

/-- Register a task in place. -/
def addInPlace (t : ScheduledTask α) : ExceptT Error (StateM (Scheduler α)) Unit := do
  if (← get).contains t.name then throw (.duplicateTask t.name)
  if t.schedule.interval.nanos = 0 then throw (.invalidDefinition t.name .zeroInterval)
  modify fun s => ⟨s.entries ++ [t]⟩

/-- Register tasks one after the other, whatever becomes of each. -/
def adds (s : Scheduler α) : List (ScheduledTask α) → List (Except Error Unit) × Scheduler α
  | [] => ([], s)
  | t :: ts =>
    let (result, after) := (addInPlace t).run.run s
    let (results, final) := after.adds ts
    (result :: results, final)

end Scheduler

end ScriptHost
