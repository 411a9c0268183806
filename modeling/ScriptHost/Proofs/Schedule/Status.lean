import ScriptHost.Proofs.Schedule.Shutdown

/-!
# Statuses tell the truth

What has happened to a task can be read off the events of the fleet: `Fleet.startedRuns` and
`Fleet.completedRuns` collect its runs, and `Fleet.faults` the faults of the completed ones.
`TaskStatus.Tells` says that a status shows just that. `Fleet.statuses_truthful` says that every
status does so after any events whatsoever, and that no event of one task is noticed by another.
-/

namespace ScriptHost

namespace Fleet

/-- The runs of a task that have started, first to last. -/
def startedRuns (i : Nat) (events : List Event) : List TaskRun :=
  events.filterMap fun
    | .tick j run => if j = i then some run else none
    | _ => none

/-- The number of runs of a task that have ended. -/
def endedRuns (i : Nat) (events : List Event) : Nat :=
  events.count (.finish i)

/-- The runs of a task that are complete: of the started ones, as many as have ended. -/
def completedRuns (i : Nat) (events : List Event) : List TaskRun :=
  (startedRuns i events).take (endedRuns i events)

/-- The faults of the completed runs of a task, first to last. -/
def faults (name : String) (i : Nat) (events : List Event) : List TaskFault :=
  (completedRuns i events).filterMap (·.outcome.fault? name)

/-- The task that an event is about; time passes, and all loops are cancelled, for every task. -/
def Event.task? : Event → Option Nat
  | .tick i _ | .finish i | .stop i => some i
  | .pass _ | .cancel => none

end Fleet

/-- A status shows what has happened to the task with a number: there is a run in flight exactly
when the task is said to be running, and the completed runs and their faults are counted. -/
structure TaskStatus.Tells (s : TaskStatus) (task : StartedTask) (i : Nat)
    (events : List Fleet.Event) : Prop where
  name : s.name = task.name
  inFlight : (Fleet.startedRuns i events).length =
    Fleet.endedRuns i events + if s.state = .running then 1 else 0
  runs : s.runs = (Fleet.completedRuns i events).length
  failures : s.failures = (Fleet.faults task.name i events).length
  lastError : s.lastError = (Fleet.faults task.name i events).getLast?.map (·.message)
  lastRun : s.lastRun.isSome = true ↔ 0 < s.runs

/-- What is published when a run ends, with its fault, if there is one, as the last error. -/
theorem TaskStatus.finished_eq (s : TaskStatus) (outcome : RunOutcome) (now : Nat) :
    s.finished outcome now =
      { s with
        state := .idle
        runs := s.runs + 1
        failures := s.failures + (outcome.fault? s.name).toList.length
        lastError := ((outcome.fault? s.name).map (·.message)).or s.lastError
        lastRun := some now } := by
  rw [finished]
  cases outcome.fault? s.name <;> rfl

namespace Fleet

variable {f g : Fleet} {event : Event} {events before : List Event} {i j : Nat} {name : String}
  {task : StartedTask} {w : Worker}

section History

/-! ## Runs among events -/

theorem startedRuns_append_tick (before : List Event) (i : Nat) (run : TaskRun) :
    startedRuns i (before ++ [.tick i run]) = startedRuns i before ++ [run] := by
  simp [startedRuns]

theorem startedRuns_append (h : ∀ run, event ≠ .tick i run) :
    startedRuns i (before ++ [event]) = startedRuns i before := by
  rw [startedRuns, List.filterMap_append]
  cases event with
  | tick j run =>
      have hij : j ≠ i := fun heq => h run (heq ▸ rfl)
      simp [startedRuns, hij]
  | pass | finish | cancel | stop => simp [startedRuns]

theorem endedRuns_append_finish (before : List Event) (i : Nat) :
    endedRuns i (before ++ [.finish i]) = endedRuns i before + 1 := by
  simp [endedRuns]

theorem endedRuns_append (h : event ≠ .finish i) :
    endedRuns i (before ++ [event]) = endedRuns i before := by
  simp [endedRuns, h]

/-- A run that starts is not complete. -/
theorem completedRuns_append_tick (h : endedRuns i before ≤ (startedRuns i before).length)
    (run : TaskRun) : completedRuns i (before ++ [.tick i run]) = completedRuns i before := by
  rw [completedRuns, startedRuns_append_tick, endedRuns_append (Event.noConfusion),
    List.take_append_of_le_length h, completedRuns]

/-- When the only run in flight ends, all runs that have started are complete. -/
theorem completedRuns_append_finish
    (h : (startedRuns i before).length = endedRuns i before + 1) {run : TaskRun}
    (hlast : (startedRuns i before).getLast? = some run) :
    completedRuns i (before ++ [.finish i]) = completedRuns i before ++ [run] := by
  obtain ⟨earlier, hstarted⟩ := List.getLast?_eq_some_iff.mp hlast
  have hlength : earlier.length = endedRuns i before := by
    rw [hstarted, List.length_append, List.length_singleton] at h
    omega
  rw [completedRuns, startedRuns_append fun _ => Event.noConfusion, endedRuns_append_finish,
    completedRuns, hstarted, ← hlength, List.take_left, List.take_of_length_le (by simp)]

end History

/-- The loop of a task is where the events have brought it: its status tells them, and a run in
flight is the last one that has started. -/
structure Tracks (task : StartedTask) (i : Nat) (events : List Event) (w : Worker) : Prop where
  tells : w.status.Tells task i events
  running_iff : w.status.state = .running ↔ ∃ ending outcome, w.phase = .running ending outcome
  last : ∀ ending outcome, w.phase = .running ending outcome →
    ∃ run, (startedRuns i events).getLast? = some run ∧ run.outcome = outcome

/-- Nothing has happened to a task that has just been started. -/
theorem tracks_initial (task : StartedTask) (i : Nat) : Tracks task i [] (.initial task) where
  tells := ⟨rfl, rfl, rfl, rfl, rfl, by simp [Worker.initial, TaskStatus.initial]⟩
  running_iff := by simp [Worker.initial, TaskStatus.initial]
  last := nofun

namespace Tracks

/-- Where a loop is depends on the runs of its own task only. -/
theorem of_runs (h : Tracks task i before w) {after : List Event}
    (hstarted : startedRuns i after = startedRuns i before)
    (hended : endedRuns i after = endedRuns i before) : Tracks task i after w := by
  have hcompleted : completedRuns i after = completedRuns i before := by
    rw [completedRuns, hstarted, hended, completedRuns]
  have hfaults : faults task.name i after = faults task.name i before := by
    rw [faults, hcompleted, faults]
  obtain ⟨⟨hname, hinFlight, hruns, hfailures, hlastError, hlastRun⟩, hrunning, hlast⟩ := h
  refine ⟨⟨hname, ?_, ?_, ?_, ?_, hlastRun⟩, hrunning, ?_⟩
  · rw [hstarted, hended, hinFlight]
  · rw [hcompleted, hruns]
  · rw [hfaults, hfailures]
  · rw [hfaults, hlastError]
  · rw [hstarted]
    exact hlast

/-- An event of another task, or of none, changes nothing about a task. -/
theorem foreign (h : Tracks task i before w) (hevent : event.task? ≠ some i) :
    Tracks task i (before ++ [event]) w := by
  refine h.of_runs (startedRuns_append fun run heq => ?_) (endedRuns_append fun heq => ?_)
  · exact hevent (heq ▸ rfl)
  · exact hevent (heq ▸ rfl)

/-- A loop that waits has no run in flight. -/
theorem idle (h : Tracks task i before w) (hphase : w.phase = .waiting) :
    w.status.state ≠ .running := by
  rw [Ne, h.running_iff, hphase]
  rintro ⟨_, _, hrunning⟩
  cases hrunning

theorem tick (h : Tracks task i before w) (hphase : w.phase = .waiting) (run : TaskRun)
    (now : Nat) : Tracks task i (before ++ [.tick i run]) (w.start run now) := by
  have hinFlight := h.tells.inFlight
  rw [if_neg (h.idle hphase), Nat.add_zero] at hinFlight
  have hcompleted := completedRuns_append_tick (Nat.le_of_eq hinFlight.symm) run
  refine ⟨⟨h.tells.name, ?_, ?_, ?_, ?_, h.tells.lastRun⟩, ?_, ?_⟩
  · rw [startedRuns_append_tick, endedRuns_append Event.noConfusion, List.length_append, hinFlight]
    rfl
  · rw [hcompleted]
    exact h.tells.runs
  · rw [faults, hcompleted]
    exact h.tells.failures
  · rw [faults, hcompleted]
    exact h.tells.lastError
  · exact iff_of_true rfl ⟨_, _, rfl⟩
  · intro ending outcome hrunning
    cases hrunning
    exact ⟨run, by rw [startedRuns_append_tick, List.getLast?_concat], rfl⟩

theorem finish (h : Tracks task i before w) {ending : Nat} {outcome : RunOutcome}
    (hphase : w.phase = .running ending outcome) (now : Nat) :
    Tracks task i (before ++ [.finish i]) (w.finish outcome now) := by
  obtain ⟨run, hlast, rfl⟩ := h.last ending outcome hphase
  have hinFlight := h.tells.inFlight
  rw [if_pos (h.running_iff.mpr ⟨_, _, hphase⟩)] at hinFlight
  have hcompleted := completedRuns_append_finish hinFlight hlast
  have hfaults : faults task.name i (before ++ [.finish i]) =
      faults task.name i before ++ (run.outcome.fault? task.name).toList := by
    rw [faults, hcompleted, List.filterMap_append, faults]
    cases hfault : run.outcome.fault? task.name <;> simp [hfault]
  refine ⟨?_, ?_, fun _ _ => LoopPhase.noConfusion⟩
  · show (w.status.finished run.outcome now).Tells task i _
    rw [TaskStatus.finished_eq, h.tells.name]
    refine ⟨rfl, ?_, ?_, ?_, ?_, iff_of_true rfl (Nat.succ_pos _)⟩
    · rw [startedRuns_append fun _ => Event.noConfusion, endedRuns_append_finish, hinFlight]
      rfl
    · rw [hcompleted, List.length_append, List.length_singleton, h.tells.runs]
    · rw [hfaults, List.length_append, h.tells.failures]
    · rw [hfaults, h.tells.lastError]
      cases run.outcome.fault? task.name <;> simp
  · refine iff_of_false ?_ fun ⟨_, _, hrunning⟩ => LoopPhase.noConfusion hrunning
    show (w.status.finished run.outcome now).state ≠ .running
    rw [TaskStatus.finished_eq]
    exact TaskState.noConfusion

theorem stop (h : Tracks task i before w) (hphase : w.phase = .waiting) :
    Tracks task i (before ++ [.stop i]) w.stop := by
  have hstopped : Tracks task i (before ++ [.stop i]) w :=
    h.of_runs (startedRuns_append fun _ => Event.noConfusion) (endedRuns_append Event.noConfusion)
  refine ⟨hstopped.tells, ?_, fun _ _ => LoopPhase.noConfusion⟩
  exact iff_of_false (h.idle hphase) fun ⟨_, _, hrunning⟩ => LoopPhase.noConfusion hrunning

end Tracks

/-- One event leaves every loop where the events have brought it. -/
theorem Step.tracks (hstep : Step f event g) (hworker : f.workers[i]? = some w)
    (h : Tracks task i before w) :
    ∃ w', g.workers[i]? = some w' ∧ Tracks task i (before ++ [event]) w' := by
  have hset : ∀ (j : Nat) (v v' : Worker), f.workers[j]? = some v → event.task? = some j →
      (i = j → Tracks task i before v → Tracks task i (before ++ [event]) v') →
      ∃ w', (f.workers.set j v')[i]? = some w' ∧ Tracks task i (before ++ [event]) w' := by
    intro j v v' hv htask hown
    by_cases hij : i = j
    · subst hij
      obtain rfl : v = w := Option.some.inj (hv.symm.trans hworker)
      exact ⟨v', getElem?_set hv v', hown rfl h⟩
    · refine ⟨w, by rw [List.getElem?_set_ne (Ne.symm hij), hworker], h.foreign ?_⟩
      rw [htask, Ne, Option.some.injEq]
      exact Ne.symm hij
  cases hstep with
  | pass | cancel => exact ⟨w, hworker, h.foreign (by simp [Event.task?])⟩
  | tick hv hphase _ =>
      refine hset _ _ _ hv rfl ?_
      rintro rfl hown
      exact hown.tick hphase _ _
  | finish hv hphase _ =>
      refine hset _ _ _ hv rfl ?_
      rintro rfl hown
      exact hown.finish hphase _
  | stop hv hphase _ =>
      refine hset _ _ _ hv rfl ?_
      rintro rfl hown
      exact hown.stop hphase

/-- Any number of events leave every loop where they have brought it. -/
theorem Steps.tracks (hsteps : Steps Step f events g) (hworker : f.workers[i]? = some w)
    (h : Tracks task i before w) :
    ∃ w', g.workers[i]? = some w' ∧ Tracks task i (before ++ events) w' := by
  induction hsteps generalizing before w with
  | refl => exact ⟨w, hworker, by rwa [List.append_nil]⟩
  | step hstep _ ih =>
      obtain ⟨w', hw', hnext⟩ := hstep.tracks hworker h
      obtain ⟨w'', hw'', hlast⟩ := ih hw' hnext
      exact ⟨w'', hw'', by rwa [List.append_assoc, List.singleton_append] at hlast⟩

/-! ## Isolation -/

/-- An event can happen. -/
def Enabled (f : Fleet) (event : Event) : Prop :=
  ∃ g, Step f event g

/-- Whether an event of a task can happen depends on its own loop, the time and the token only. -/
theorem enabled_iff_of_eq (hnow : g.now = f.now) (hcancelled : g.cancelled = f.cancelled)
    (hworker : g.workers[j]? = f.workers[j]?) (hevent : event.task? = some j) :
    g.Enabled event ↔ f.Enabled event := by
  have hone : ∀ {f g : Fleet}, g.now = f.now → g.cancelled = f.cancelled →
      g.workers[j]? = f.workers[j]? → f.Enabled event → g.Enabled event := by
    rintro f g hnow hcancelled hworker ⟨h, hstep⟩
    cases hstep with
    | pass | cancel => cases hevent
    | tick hv hphase hdue =>
        cases hevent
        exact ⟨_, .tick (hworker.trans hv) hphase (hnow ▸ hdue)⟩
    | finish hv hphase hending =>
        cases hevent
        exact ⟨_, .finish (hworker.trans hv) hphase (hnow ▸ hending)⟩
    | stop hv hphase hstop =>
        cases hevent
        exact ⟨_, .stop (hworker.trans hv) hphase (hcancelled.trans hstop)⟩
  exact ⟨hone hnow.symm hcancelled.symm hworker.symm, hone hnow hcancelled hworker⟩

/-- An event of one task changes neither the time, nor the token, nor the loop of another task. -/
theorem Step.others (hstep : Step f event g) (hevent : event.task? = some i) (hij : j ≠ i) :
    g.now = f.now ∧ g.cancelled = f.cancelled ∧ g.workers[j]? = f.workers[j]? := by
  cases hstep with
  | pass | cancel => cases hevent
  | tick | finish | stop =>
      cases hevent
      exact ⟨rfl, rfl, List.getElem?_set_ne (Ne.symm hij)⟩

/-- No task is added or lost. -/
theorem Step.length_workers (hstep : Step f event g) : g.workers.length = f.workers.length := by
  cases hstep with
  | pass | cancel => rfl
  | tick | finish | stop => exact List.length_set

theorem Steps.length_workers (hsteps : Steps Step f events g) :
    g.workers.length = f.workers.length := by
  induction hsteps with
  | refl => rfl
  | step hstep _ ih => rw [ih, hstep.length_workers]

/-- After any events, in any order in which they are possible, every task that was started has a
status that tells what has happened to it: whether its one run is in flight, how many runs are
complete, and how many of them failed, with the message of the last that did. And an event of one
task changes neither the status of another nor what can happen to it. -/
theorem statuses_truthful {tasks : List StartedTask} (hsteps : Steps Step (initial tasks) events f) :
    f.workers.length = tasks.length ∧
    (∀ (i : Nat) (task : StartedTask), tasks[i]? = some task → ∃ w, f.workers[i]? = some w ∧
      w.status.Tells task i events ∧
      w.status.failures ≤ w.status.runs ∧
      (w.status.lastError.isSome = true ↔ 0 < w.status.failures)) ∧
    ∀ event g i, Step f event g → event.task? = some i → ∀ j, j ≠ i →
      g.workers[j]? = f.workers[j]? ∧
      ∀ other : Event, other.task? = some j → (g.Enabled other ↔ f.Enabled other) := by
  refine ⟨?_, fun i task htask => ?_, fun event g i hstep hevent j hij => ?_⟩
  · rw [hsteps.length_workers, initial, List.length_map]
  · have hworker : (initial tasks).workers[i]? = some (.initial task) := by
      rw [initial, List.getElem?_map, htask, Option.map_some]
    obtain ⟨w, hw, htracks⟩ := hsteps.tracks hworker (tracks_initial task i)
    rw [List.nil_append] at htracks
    refine ⟨w, hw, htracks.tells, ?_, ?_⟩
    · rw [htracks.tells.failures, htracks.tells.runs]
      exact List.length_filterMap_le _ _
    · rw [htracks.tells.failures, htracks.tells.lastError, Option.isSome_map,
        List.getLast?_isSome, List.length_pos_iff]
  · obtain ⟨hnow, hcancelled, hworker⟩ := hstep.others hevent hij
    exact ⟨hworker, fun other hother => enabled_iff_of_eq hnow hcancelled hworker hother⟩

/-- A task whose first run comes after a while. -/
def delayed : StartedTask :=
  ⟨"d", 30, 5, by decide⟩

/-- The first task breaks off and then takes the tick that is due when all loops are cancelled; the
second one runs meanwhile. -/
def breakingOff : List Event :=
  [.tick 0 ⟨8, .panicked (.text "boom")⟩, .pass 5, .tick 1 ⟨40, .success⟩, .pass 100, .finish 0,
    .cancel, .tick 0 ⟨10, .failed (.failed "s" "late")⟩, .finish 1, .stop 1]

theorem breakingOff_told : ∃ f, Steps Step (initial [frequent, delayed]) breakingOff f ∧
    ∃ w, f.workers[0]? = some w ∧ w.status.state = .running ∧ w.status.runs = 1 ∧
      w.status.failures = 1 ∧ w.status.lastError = some "Task 's' panicked: boom" := by
  obtain ⟨f, hsteps⟩ : ∃ f, Steps Step (initial [frequent, delayed]) breakingOff f :=
    ⟨_, .step (.tick rfl rfl (by decide)) (.step (.pass (by decide))
      (.step (.tick rfl rfl (by decide)) (.step (.pass (by decide))
      (.step (.finish rfl rfl (by decide)) (.step .cancel (.step (.tick rfl rfl (by decide))
      (.step (.finish rfl rfl (by decide)) (.step (.stop rfl rfl rfl) (.refl _)))))))))⟩
  obtain ⟨w, hw, htells, -⟩ := (statuses_truthful hsteps).2.1 0 frequent rfl
  have hinFlight := htells.inFlight
  refine ⟨f, hsteps, w, hw, ?_, htells.runs, htells.failures, htells.lastError⟩
  refine Decidable.byContradiction fun hidle => ?_
  rw [if_neg hidle] at hinFlight
  exact absurd hinFlight (by decide)

end Fleet

end ScriptHost
