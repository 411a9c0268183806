import ScriptHost.Schedule.Worker

/-!
# Tasks on a clock

One task whose runs are known in advance. `Timeline.advance` lets time pass and everything happen
that is due by then, the new instant included. `Timeline.shutdown` cancels the loop and lets time
pass until it has stopped. Runs of a task never overlap, and tasks do not influence each other.
-/

namespace ScriptHost

/-- A task on the clock: what its runs do in turn, and its loop. -/
structure Timeline where
  runs : List TaskRun
  worker : Worker

namespace Timeline

/-- A task that has just been started. -/
def initial (task : StartedTask) (runs : List TaskRun) : Timeline :=
  ⟨runs, .initial task⟩

/-- What the run that starts next does; the given runs repeat. -/
def nextRun (t : Timeline) : TaskRun :=
  t.runs[t.worker.startedRuns % t.runs.length]?.getD ⟨0, .success⟩

/-- Take the tick that is due, at an instant. -/
def take (t : Timeline) (now : Nat) : Timeline :=
  { t with worker := t.worker.start t.nextRun now }

/-- Let the run in flight end, if there is one. -/
def land (t : Timeline) (now : Nat) : Timeline :=
  { t with worker := t.worker.landed now }

/-- Let everything happen that is due by a horizon, from an instant on. -/
def catchUp (t : Timeline) (now horizon : Nat) : Timeline :=
  let free := t.worker.comesRound now
  let landed := t.land free
  if horizon < free then t
  else if landed.worker.phase = .waiting ∧ landed.worker.due ≤ horizon then
    (landed.take (max landed.worker.due free)).catchUp (max landed.worker.due free) horizon
  else landed
termination_by horizon + 1 - t.worker.due
decreasing_by
  rename_i h
  have hdue : landed.worker.due = t.worker.due := t.worker.landed_due free
  have hnext := Worker.lt_nextDue landed.worker.task.pos landed.worker.due
    (max landed.worker.due free)
  show horizon + 1 - Worker.nextDue landed.worker.task.interval landed.worker.due
    (max landed.worker.due free) < horizon + 1 - t.worker.due
  omega

/-- Let time pass from one instant to another. -/
def advance (t : Timeline) (now later : Nat) : Timeline :=
  t.catchUp now later

/-- Cancel the loop and let time pass until it has stopped. As often as it comes round and a tick is
due, the next of some choices says whether the tick is taken rather than the cancellation. -/
def shutdown (t : Timeline) (now : Nat) : List Bool → Timeline
  | [] => { t with worker := (t.worker.landed (t.worker.comesRound now)).stop }
  | takesTick :: choices =>
    let free := t.worker.comesRound now
    let landed := t.land free
    if takesTick = true ∧ landed.worker.phase = .waiting ∧ landed.worker.due ≤ free then
      (landed.take free).shutdown free choices
    else { landed with worker := landed.worker.stop }

end Timeline

end ScriptHost
