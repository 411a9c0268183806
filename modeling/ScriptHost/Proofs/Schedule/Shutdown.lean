import ScriptHost.Schedule.Fleet

/-!
# Shutting down

What the loops of a fleet do once they are cancelled. A run in flight ends and is recorded, and a
loop that has stopped does nothing more: `Worker.GoesOnTo`. But a loop that comes round when a tick
is due may take the tick instead of stopping. `Fleet.cancelled_runs` says when that cannot happen:
where no loop is late, exactly when every loop comes round before its next tick is due. In
`Fleet.starts_after_cancel` a run starts after the cancellation.
-/

namespace ScriptHost

namespace Worker

/-- What may become of a loop: completed runs are added to its outcomes and counted, a run in flight
is the first of them, and a loop that has stopped stays as it is. -/
structure GoesOnTo (w w' : Worker) : Prop where
  recorded : ∃ more, w'.outcomes = more ++ w.outcomes ∧
    w'.status.runs = w.status.runs + more.length
  running : ∀ ending outcome, w.phase = .running ending outcome →
    w' = w ∨ ∃ more, w'.outcomes = more ++ outcome :: w.outcomes
  stopped : w.phase = .stopped → w' = w

variable {w w' w'' : Worker}

theorem GoesOnTo.refl (w : Worker) : w.GoesOnTo w :=
  ⟨⟨[], rfl, rfl⟩, fun _ _ _ => .inl rfl, fun _ => rfl⟩

theorem GoesOnTo.trans (h : w.GoesOnTo w') (h' : w'.GoesOnTo w'') : w.GoesOnTo w'' := by
  obtain ⟨more, houtcomes, hruns⟩ := h.recorded
  obtain ⟨others, hothers, hmore⟩ := h'.recorded
  refine ⟨⟨others ++ more, ?_, ?_⟩, ?_, ?_⟩
  · rw [hothers, houtcomes, List.append_assoc]
  · rw [hmore, hruns, List.length_append]
    omega
  · intro ending outcome hphase
    rcases h.running ending outcome hphase with rfl | ⟨before, hbefore⟩
    · exact h'.running ending outcome hphase
    · exact .inr ⟨others ++ before, by rw [hothers, hbefore, List.append_assoc]⟩
  · intro hphase
    obtain rfl := h.stopped hphase
    exact h'.stopped hphase

/-- A waiting loop may start a run or stop; neither completes a run. -/
theorem goesOnTo_of_waiting (h : w.phase = .waiting) (houtcomes : w'.outcomes = w.outcomes)
    (hruns : w'.status.runs = w.status.runs) : w.GoesOnTo w' where
  recorded := ⟨[], houtcomes, hruns⟩
  running _ _ hphase := by
    rw [h] at hphase
    cases hphase
  stopped hphase := by
    rw [h] at hphase
    cases hphase

theorem finish_runs (w : Worker) (outcome : RunOutcome) (now : Nat) :
    (w.finish outcome now).status.runs = w.status.runs + 1 := by
  unfold finish TaskStatus.finished
  split <;> rfl

/-- The run in flight is recorded when it ends. -/
theorem goesOnTo_finish {ending : Nat} {outcome : RunOutcome}
    (h : w.phase = .running ending outcome) (now : Nat) :
    w.GoesOnTo (w.finish outcome now) where
  recorded := ⟨[outcome], rfl, w.finish_runs outcome now⟩
  running _ _ hphase := by
    rw [h] at hphase
    cases hphase
    exact .inr ⟨[], rfl⟩
  stopped hphase := by
    rw [h] at hphase
    cases hphase

/-- A loop for which no tick is due when it comes round next, if it ever does. -/
def Quiet (w : Worker) (now : Nat) : Prop :=
  w.phase = .stopped ∨ w.comesRound now < w.due

theorem quiet_waiting (h : w.phase = .waiting) (now : Nat) : w.Quiet now ↔ now < w.due := by
  have hphase : w.phase ≠ .stopped := by rw [h]; nofun
  rw [Quiet, or_iff_right hphase, comesRound_waiting h]

theorem quiet_running {ending : Nat} {outcome : RunOutcome} (h : w.phase = .running ending outcome)
    (now : Nat) : w.Quiet now ↔ now < w.due ∧ ending < w.due := by
  have hphase : w.phase ≠ .stopped := by rw [h]; nofun
  rw [Quiet, or_iff_right hphase, comesRound_running h, Nat.max_lt]

/-- What becomes of a cancelled loop that takes no tick, before a horizon: a waiting one stops, and
a running one stops when its run has ended. -/
def drained (w : Worker) (now horizon : Nat) : Worker :=
  match w.phase with
  | .waiting => w.stop
  | .running ending outcome =>
    if max now ending < horizon then (w.finish outcome (max now ending)).stop else w
  | .stopped => w

theorem drained_waiting (h : w.phase = .waiting) (now horizon : Nat) :
    w.drained now horizon = w.stop := by
  rw [drained, h]

theorem drained_running {ending : Nat} {outcome : RunOutcome}
    (h : w.phase = .running ending outcome) (now horizon : Nat) :
    w.drained now horizon =
      if max now ending < horizon then (w.finish outcome (max now ending)).stop else w := by
  rw [drained, h]

theorem drained_stopped (h : w.phase = .stopped) (now horizon : Nat) :
    w.drained now horizon = w := by
  rw [drained, h]

/-- A loop may be drained instant by instant. -/
theorem drained_drained (w : Worker) {now horizon : Nat} (h : now < horizon) :
    (w.drained now (now + 1)).drained (now + 1) horizon = w.drained now horizon := by
  cases hphase : w.phase with
  | waiting =>
      rw [drained_waiting hphase, drained_waiting hphase]
      exact drained_stopped rfl _ _
  | stopped => rw [drained_stopped hphase, drained_stopped hphase, drained_stopped hphase]
  | running ending outcome =>
      rw [drained_running hphase, drained_running hphase]
      by_cases hending : ending ≤ now
      · rw [Nat.max_eq_left hending, if_pos (Nat.lt_succ_self now), if_pos h]
        exact drained_stopped rfl _ _
      · rw [if_neg (by omega), drained_running hphase, Nat.max_eq_right (by omega),
          Nat.max_eq_right (by omega)]

/-- A cancelled loop that is drained of the present instant has nothing to do before the next. -/
theorem drained_idleUntil (w : Worker) (now : Nat) :
    (w.drained now (now + 1)).IdleUntil true (now + 1) := by
  cases hphase : w.phase with
  | waiting =>
      rw [drained_waiting hphase]
      exact idleUntil_stopped rfl
  | stopped =>
      rw [drained_stopped hphase]
      exact idleUntil_stopped hphase
  | running ending outcome =>
      rw [drained_running hphase]
      by_cases hending : ending ≤ now
      · rw [if_pos (by omega)]
        exact idleUntil_stopped rfl
      · rw [if_neg (by omega)]
        exact (idleUntil_running hphase).mpr (Nat.lt_of_not_le hending)

/-- A loop that is drained for long enough ends its run and stops. -/
theorem drained_of_lt {now horizon : Nat} (h : w.comesRound now < horizon) :
    w.drained now horizon = (w.landed (w.comesRound now)).stop := by
  cases hphase : w.phase with
  | waiting => rw [drained_waiting hphase, landed_waiting hphase]
  | running ending outcome =>
      rw [comesRound_running hphase] at h ⊢
      rw [drained_running hphase, if_pos h, landed_running hphase]
  | stopped => rw [drained_stopped hphase, landed_stopped hphase, stop_stopped hphase]

end Worker

namespace Fleet

variable {f g h : Fleet} {event : Event} {events more : List Event}
  {step : Fleet → Event → Fleet → Prop}

/-- Among some events no run starts. -/
def NoStart (events : List Event) : Prop :=
  ∀ i run, Event.tick i run ∉ events

theorem noStart_nil : NoStart [] :=
  fun _ _ => List.not_mem_nil

theorem NoStart.append (hevents : NoStart events) (hmore : NoStart more) :
    NoStart (events ++ more) := by
  intro i run hmem
  rcases List.mem_append.mp hmem with hmem | hmem
  · exact hevents i run hmem
  · exact hmore i run hmem

theorem NoStart.cons (hevent : ∀ i run, event ≠ .tick i run) (hevents : NoStart events) :
    NoStart (event :: events) := by
  intro i run hmem
  rcases List.mem_cons.mp hmem with heq | hmem
  · exact hevent i run heq.symm
  · exact hevents i run hmem

/-- Only the passing of time is bound to be prompt. -/
theorem Step.prompt (h : Step f event g) (hevent : ∀ later, event ≠ .pass later) :
    PromptStep f event g :=
  ⟨h, fun later heq => absurd heq (hevent later)⟩

theorem Steps.append (hsteps : Steps step f events g) (hmore : Steps step g more h) :
    Steps step f (events ++ more) h := by
  induction hsteps with
  | refl => exact hmore
  | step hstep _ ih => exact .step hstep (ih hmore)

/-- A loop that is put in the place of another one is found there. -/
theorem getElem?_set {i : Nat} {w : Worker} (hworker : f.workers[i]? = some w) (v : Worker) :
    (f.set i v).workers[i]? = some v :=
  List.getElem?_set_self (List.getElem?_eq_some_iff.mp hworker).1

/-- What one event makes of each loop. -/
theorem Step.goesOnTo (hstep : Step f event g) {i : Nat} {w : Worker}
    (hworker : f.workers[i]? = some w) : ∃ w', g.workers[i]? = some w' ∧ w.GoesOnTo w' := by
  have hset : ∀ (j : Nat) (v v' : Worker), f.workers[j]? = some v → v.GoesOnTo v' →
      ∃ w', (f.workers.set j v')[i]? = some w' ∧ w.GoesOnTo w' := by
    intro j v v' hv hgoes
    by_cases hij : j = i
    · subst hij
      obtain rfl : v = w := Option.some.inj (hv.symm.trans hworker)
      exact ⟨v', getElem?_set hv v', hgoes⟩
    · exact ⟨w, by rw [List.getElem?_set_ne hij, hworker], .refl w⟩
  cases hstep with
  | pass | cancel => exact ⟨w, hworker, .refl w⟩
  | tick hv hphase _ => exact hset _ _ _ hv (Worker.goesOnTo_of_waiting hphase rfl rfl)
  | finish hv hphase _ => exact hset _ _ _ hv (Worker.goesOnTo_finish hphase _)
  | stop hv hphase _ => exact hset _ _ _ hv (Worker.goesOnTo_of_waiting hphase rfl rfl)

/-- What any number of events make of each loop. -/
theorem Steps.goesOnTo (hsteps : Steps Step f events g) {i : Nat} {w : Worker}
    (hworker : f.workers[i]? = some w) : ∃ w', g.workers[i]? = some w' ∧ w.GoesOnTo w' := by
  induction hsteps generalizing w with
  | refl => exact ⟨w, hworker, .refl w⟩
  | step hstep _ ih =>
      obtain ⟨w', hw', hgoes⟩ := hstep.goesOnTo hworker
      obtain ⟨w'', hw'', hmore⟩ := ih hw'
      exact ⟨w'', hw'', hgoes.trans hmore⟩

/-- Cancelled loops in a fleet for which no tick will be due take none, and none will be due. -/
theorem PromptStep.quiet (hstep : PromptStep f event g) (hcancelled : f.cancelled = true)
    (hquiet : ∀ w ∈ f.workers, w.Quiet f.now) :
    g.cancelled = true ∧ (∀ w ∈ g.workers, w.Quiet g.now) ∧ ∀ i run, event ≠ .tick i run := by
  obtain ⟨hstep, hprompt⟩ := hstep
  cases hstep with
  | @pass later hlater =>
      refine ⟨hcancelled, fun w hw => ?_, nofun⟩
      have hidle := hprompt later rfl w hw
      cases hphase : w.phase with
      | waiting =>
          rw [Worker.idleUntil_waiting hphase, hcancelled] at hidle
          cases hidle.1
      | running ending outcome =>
          rw [Worker.idleUntil_running hphase] at hidle
          rw [Worker.quiet_running hphase]
          have hdue := (Worker.quiet_running hphase f.now).mp (hquiet w hw)
          exact ⟨Nat.lt_of_le_of_lt hidle hdue.2, hdue.2⟩
      | stopped => exact .inl hphase
  | @tick i w run hworker hphase hdue =>
      have hlater := (Worker.quiet_waiting hphase f.now).mp
        (hquiet w (List.mem_of_getElem? hworker))
      omega
  | @finish i w ending outcome hworker hphase hending =>
      refine ⟨hcancelled, fun v hv => ?_, nofun⟩
      rcases List.mem_or_eq_of_mem_set hv with hv | rfl
      · exact hquiet v hv
      · have hdue := (Worker.quiet_running hphase f.now).mp
          (hquiet w (List.mem_of_getElem? hworker))
        exact (Worker.quiet_waiting rfl f.now).mpr hdue.1
  | cancel => exact ⟨rfl, hquiet, nofun⟩
  | @stop i w hworker hphase _ =>
      refine ⟨hcancelled, fun v hv => ?_, nofun⟩
      rcases List.mem_or_eq_of_mem_set hv with hv | rfl
      · exact hquiet v hv
      · exact .inl rfl

theorem Steps.quiet (hsteps : Steps PromptStep f events g) (hcancelled : f.cancelled = true)
    (hquiet : ∀ w ∈ f.workers, w.Quiet f.now) : NoStart events := by
  induction hsteps with
  | refl => exact noStart_nil
  | step hstep _ ih =>
      obtain ⟨hcancelled, hquiet, hevent⟩ := hstep.quiet hcancelled hquiet
      exact (ih hcancelled hquiet).cons hevent

section Draining

/-- One cancelled loop is drained, as far as the present instant goes. -/
theorem steps_drained (hcancelled : f.cancelled = true) {i : Nat} {w : Worker}
    (hworker : f.workers[i]? = some w) {horizon : Nat} (hhorizon : horizon ≤ f.now + 1) :
    ∃ events, NoStart events ∧
      Steps PromptStep f events (f.set i (w.drained f.now horizon)) := by
  have hkeep : f.set i w = f := by
    obtain ⟨hlength, rfl⟩ := List.getElem?_eq_some_iff.mp hworker
    rw [set, List.set_getElem_self]
  cases hphase : w.phase with
  | waiting =>
      rw [Worker.drained_waiting hphase]
      exact ⟨[.stop i], noStart_nil.cons nofun,
        .step ((Step.stop hworker hphase hcancelled).prompt nofun) (.refl _)⟩
  | running ending outcome =>
      rw [Worker.drained_running hphase]
      by_cases hending : max f.now ending < horizon
      · rw [if_pos hending, Nat.max_eq_left (by omega)]
        have hfinish : Step f (.finish i) (f.set i (w.finish outcome f.now)) :=
          .finish hworker hphase (by omega)
        have hstop := Step.stop (getElem?_set hworker (w.finish outcome f.now)) rfl hcancelled
        rw [set, set, List.set_set] at hstop
        have hlast : NoStart [.stop i] := noStart_nil.cons nofun
        exact ⟨[.finish i, .stop i], hlast.cons nofun,
          .step (hfinish.prompt nofun) (.step (hstop.prompt nofun) (.refl _))⟩
      · rw [if_neg hending, hkeep]
        exact ⟨[], noStart_nil, .refl _⟩
  | stopped =>
      rw [Worker.drained_stopped hphase, hkeep]
      exact ⟨[], noStart_nil, .refl _⟩

/-- All cancelled loops are drained, as far as the present instant goes. -/
theorem steps_drained_all (hcancelled : f.cancelled = true) {horizon : Nat}
    (hhorizon : horizon ≤ f.now + 1) :
    ∃ events, NoStart events ∧ Steps PromptStep f events
      { f with workers := f.workers.map (·.drained f.now horizon) } := by
  -- The loops are drained from the first to the last; `before` are those that are done.
  suffices hsuffix : ∀ (rest before : List Worker), ∃ events, NoStart events ∧
      Steps PromptStep { f with workers := before ++ rest } events
        { f with workers := before ++ rest.map (·.drained f.now horizon) } from
    hsuffix f.workers []
  intro rest
  induction rest with
  | nil => exact fun before => ⟨[], noStart_nil, .refl _⟩
  | cons w rest ih =>
      intro before
      let f₀ : Fleet := { f with workers := before ++ w :: rest }
      have hworker : f₀.workers[before.length]? = some w := by simp [f₀]
      obtain ⟨events, hevents, hsteps⟩ := steps_drained (f := f₀) hcancelled hworker hhorizon
      have hset : f₀.set before.length (w.drained f.now horizon) =
          { f with workers := (before ++ [w.drained f.now horizon]) ++ rest } := by
        simp [f₀, set]
      obtain ⟨more, hnone, hmore⟩ := ih (before ++ [w.drained f.now horizon])
      rw [← hset, List.append_assoc] at hmore
      exact ⟨events ++ more, hevents.append hnone, hsteps.append hmore⟩

/-- Cancelled loops may all be drained up to a horizon, without a tick being taken. -/
theorem steps_drain (hcancelled : f.cancelled = true) (horizon : Nat) :
    ∃ events, NoStart events ∧ Steps PromptStep f events
      ⟨max f.now horizon, f.workers.map (·.drained f.now horizon), true⟩ := by
  obtain ⟨n, hn⟩ : ∃ n, n = horizon - f.now := ⟨_, rfl⟩
  induction n generalizing f with
  | zero =>
      obtain ⟨events, hevents, hsteps⟩ :=
        steps_drained_all hcancelled (show horizon ≤ f.now + 1 by omega)
      rw [Nat.max_eq_left (by omega)]
      obtain ⟨now, workers, cancelled⟩ := f
      obtain rfl : cancelled = true := hcancelled
      exact ⟨events, hevents, hsteps⟩
  | succ n ih =>
      obtain ⟨events, hevents, hsteps⟩ := steps_drained_all hcancelled (Nat.le_refl (f.now + 1))
      let g : Fleet := { f with workers := f.workers.map (·.drained f.now (f.now + 1)) }
      have hpass : PromptStep g (.pass (f.now + 1)) { g with now := f.now + 1 } := by
        refine ⟨.pass (Nat.le_succ f.now), fun later hlater => ?_⟩
        cases hlater
        intro w' hw'
        obtain ⟨w, _, rfl⟩ := List.mem_map.mp hw'
        exact hcancelled ▸ w.drained_idleUntil f.now
      obtain ⟨more, hnone, hmore⟩ := ih (f := { g with now := f.now + 1 }) hcancelled
        (show n = horizon - (f.now + 1) by omega)
      have hworkers : g.workers.map (·.drained (f.now + 1) horizon) =
          f.workers.map (·.drained f.now horizon) := by
        rw [List.map_map]
        exact List.map_congr_left fun w _ => w.drained_drained (by omega)
      refine ⟨events ++ .pass (f.now + 1) :: more,
        hevents.append (hnone.cons fun _ _ heq => by cases heq),
        hsteps.append (.step hpass ?_)⟩
      rw [← hworkers, show max f.now horizon = max (f.now + 1) horizon by omega]
      exact hmore

end Draining

/-- A loop whose run in flight ends when its next tick is due may take the tick. -/
theorem Step.finish_tick {i : Nat} {w : Worker} {ending : Nat} {outcome : RunOutcome}
    (hworker : f.workers[i]? = some w) (hphase : w.phase = .running ending outcome)
    (hending : ending ≤ f.now) (hdue : w.due ≤ f.now) (run : TaskRun) :
    ∃ g h, Step f (.finish i) g ∧ Step g (.tick i run) h :=
  ⟨_, _, .finish hworker hphase hending,
    .tick (getElem?_set hworker (w.finish outcome f.now)) rfl hdue⟩

/-- A cancelled loop for which a tick is due when it comes round may start a run, though no loop is
late. -/
theorem exists_prompt_start (hcancelled : f.cancelled = true) {w : Worker} (hworker : w ∈ f.workers)
    (hphase : w.phase ≠ .stopped) (hdue : w.due ≤ w.comesRound f.now) :
    ∃ events g, ¬ NoStart events ∧ Steps PromptStep f events g := by
  obtain ⟨i, hi⟩ := List.mem_iff_getElem?.mp hworker
  let run : TaskRun := ⟨0, .success⟩
  cases hrun : w.phase with
  | waiting =>
      rw [Worker.comesRound_waiting hrun] at hdue
      have htick : Step f (.tick i run) (f.set i (w.start run f.now)) := .tick hi hrun hdue
      exact ⟨_, _, fun hno => hno i run List.mem_cons_self, .step (htick.prompt nofun) (.refl _)⟩
  | running ending outcome =>
      -- The other loops are drained until the run ends; then it ends, and the tick is taken.
      rw [Worker.comesRound_running hrun] at hdue
      obtain ⟨events, -, hsteps⟩ := steps_drain hcancelled (max f.now ending)
      rw [Nat.max_eq_right (Nat.le_max_left _ _)] at hsteps
      have hkept : (f.workers.map (·.drained f.now (max f.now ending)))[i]? = some w := by
        rw [List.getElem?_map, hi, Option.map_some, Worker.drained_running hrun,
          if_neg (Nat.lt_irrefl _)]
      obtain ⟨g, h, hfinish, htick⟩ :=
        Step.finish_tick (f := ⟨max f.now ending, _, true⟩) hkept hrun (Nat.le_max_right _ _) hdue
          run
      exact ⟨_, h, fun hno => hno i run (by simp), hsteps.append
        (.step (hfinish.prompt nofun) (.step (htick.prompt nofun) (.refl _)))⟩
  | stopped => exact absurd hrun hphase

/-- If events may come in any order, a loop that has not stopped may start a run. -/
theorem exists_start {w : Worker} (hworker : w ∈ f.workers) (hphase : w.phase ≠ .stopped) :
    ∃ events g, ¬ NoStart events ∧ Steps Step f events g := by
  obtain ⟨i, hi⟩ := List.mem_iff_getElem?.mp hworker
  let run : TaskRun := ⟨0, .success⟩
  -- Time passes until the tick is due and the run in flight, if there is one, has taken its time.
  let later : Nat := max (w.comesRound f.now) w.due
  cases hrun : w.phase with
  | waiting =>
      have hlater : later = max f.now w.due := by rw [← Worker.comesRound_waiting hrun f.now]
      have hpass : Step f (.pass later) { f with now := later } := .pass (by omega)
      have htick : Step { f with now := later } (.tick i run) _ :=
        .tick hi hrun (show w.due ≤ later by omega)
      exact ⟨_, _, fun hno => hno i run (by simp), .step hpass (.step htick (.refl _))⟩
  | running ending outcome =>
      have hlater : later = max (max f.now ending) w.due := by
        rw [← Worker.comesRound_running hrun f.now]
      have hpass : Step f (.pass later) { f with now := later } := .pass (by omega)
      obtain ⟨g, h, hfinish, htick⟩ := Step.finish_tick (f := { f with now := later }) hi hrun
        (show ending ≤ later by omega) (show w.due ≤ later by omega) run
      exact ⟨_, h, fun hno => hno i run (by simp),
        .step hpass (.step hfinish (.step htick (.refl _)))⟩
  | stopped => exact absurd hrun hphase

/-- Nothing happens to loops that have all stopped. -/
theorem Step.all_stopped (hstep : Step f event g) (hall : ∀ w ∈ f.workers, w.phase = .stopped) :
    (∀ w ∈ g.workers, w.phase = .stopped) ∧ ∀ i run, event ≠ .tick i run := by
  cases hstep with
  | pass | cancel => exact ⟨hall, nofun⟩
  | tick hworker hphase _ | finish hworker hphase _ | stop hworker hphase _ =>
      have hstopped := hall _ (List.mem_of_getElem? hworker)
      rw [hphase] at hstopped
      cases hstopped

theorem Steps.all_stopped (hsteps : Steps Step f events g)
    (hall : ∀ w ∈ f.workers, w.phase = .stopped) : NoStart events := by
  induction hsteps with
  | refl => exact noStart_nil
  | step hstep _ ih =>
      obtain ⟨hall, hevent⟩ := hstep.all_stopped hall
      exact (ih hall).cons hevent

/-- There is an instant by which all loops have come round. -/
theorem exists_comesRound_lt (workers : List Worker) (now : Nat) :
    ∃ horizon, ∀ w ∈ workers, w.comesRound now < horizon := by
  induction workers with
  | nil => exact ⟨0, fun _ hw => absurd hw List.not_mem_nil⟩
  | cons w workers ih =>
      obtain ⟨horizon, hhorizon⟩ := ih
      refine ⟨max horizon (w.comesRound now + 1), fun v hv => ?_⟩
      rcases List.mem_cons.mp hv with rfl | hv
      · omega
      · have := hhorizon v hv
        omega

/-- What may happen once the loops are cancelled. If events may come in any order, a run may start
unless all loops have stopped. If no loop lets time pass while it has something to do, a run may
start unless every loop comes round before its next tick is due. In any case a run in flight is
recorded when it ends, before its loop does anything else, and a loop that has stopped stays as it
is. And the loops can all stop, each as soon as it comes round, without a run being started. -/
theorem cancelled_runs (f : Fleet) :
    ((∀ events g, Steps Step f.cancel events g → NoStart events) ↔
      ∀ w ∈ f.workers, w.phase = .stopped) ∧
    ((∀ events g, Steps PromptStep f.cancel events g → NoStart events) ↔
      ∀ w ∈ f.workers, w.phase = .stopped ∨ w.comesRound f.now < w.due) ∧
    (∀ events g, Steps Step f.cancel events g → ∀ (i : Nat) w, f.workers[i]? = some w →
      ∃ w', g.workers[i]? = some w' ∧ w.GoesOnTo w') ∧
    ∃ events later, NoStart events ∧ Steps PromptStep f.cancel events
      ⟨later, f.workers.map fun w => (w.landed (w.comesRound f.now)).stop, true⟩ := by
  refine ⟨⟨fun hno w hw => ?_, fun hall events g hsteps => hsteps.all_stopped hall⟩,
    ⟨fun hno w hw => ?_, fun hquiet events g hsteps => hsteps.quiet rfl hquiet⟩,
    fun events g hsteps i w hworker => hsteps.goesOnTo hworker, ?_⟩
  · refine Decidable.byContradiction fun hphase => ?_
    obtain ⟨events, g, hstart, hsteps⟩ := exists_start (f := f.cancel) hw hphase
    exact hstart (hno events g hsteps)
  · by_cases hphase : w.phase = .stopped
    · exact .inl hphase
    · refine .inr (Nat.lt_of_not_le fun hdue => ?_)
      obtain ⟨events, g, hstart, hsteps⟩ :=
        exists_prompt_start (f := f.cancel) rfl hw hphase hdue
      exact hstart (hno events g hsteps)
  · obtain ⟨horizon, hhorizon⟩ := exists_comesRound_lt f.workers f.now
    obtain ⟨events, hevents, hsteps⟩ := steps_drain (f := f.cancel) rfl horizon
    refine ⟨events, max f.now horizon, hevents, ?_⟩
    have hworkers : f.workers.map (·.drained f.now horizon) =
        f.workers.map fun w => (w.landed (w.comesRound f.now)).stop :=
      List.map_congr_left fun w hw => Worker.drained_of_lt (hhorizon w hw)
    rw [← hworkers]
    exact hsteps

/-- A task with a run every tenth of a second. -/
def frequent : StartedTask :=
  ⟨"s", 100, 0, by decide⟩

/-- Time may pass for a single loop. -/
theorem PromptStep.pass_single {now later : Nat} {w : Worker} {cancelled : Bool}
    (hlater : now ≤ later) (hidle : w.IdleUntil cancelled later) :
    PromptStep ⟨now, [w], cancelled⟩ (.pass later) ⟨later, [w], cancelled⟩ := by
  refine ⟨.pass hlater, fun instant heq v hv => ?_⟩
  cases heq
  obtain rfl := List.mem_singleton.mp hv
  exact hidle

/-- A run takes two and a half intervals and the loop is cancelled meanwhile. When the run ends, a
tick is due, and another run starts. -/
theorem starts_after_cancel : ∃ f g,
    Steps PromptStep (initial [frequent]) [.tick 0 ⟨250, .success⟩, .pass 120] f ∧
    f.workers.map (·.startedRuns) = [1] ∧
    Steps PromptStep f.cancel [.pass 250, .finish 0, .tick 0 ⟨0, .success⟩] g ∧
    g.workers.map (·.startedRuns) = [2] := by
  let first := (Worker.initial frequent).start ⟨250, .success⟩ 0
  let second := (first.finish .success 250).start ⟨0, .success⟩ 250
  have hfirst : PromptStep (initial [frequent]) (.tick 0 ⟨250, .success⟩) ⟨0, [first], false⟩ :=
    (Step.tick rfl rfl (Nat.le_refl 0)).prompt nofun
  have hfinish : PromptStep ⟨250, [first], true⟩ (.finish 0)
      ⟨250, [first.finish .success 250], true⟩ :=
    (Step.finish rfl rfl (Nat.le_refl 250)).prompt nofun
  have hsecond : PromptStep ⟨250, [first.finish .success 250], true⟩ (.tick 0 ⟨0, .success⟩)
      ⟨250, [second], true⟩ :=
    (Step.tick rfl rfl (show first.due ≤ 250 by decide)).prompt nofun
  refine ⟨⟨120, [first], false⟩, ⟨250, [second], true⟩, ?_, rfl, ?_, rfl⟩
  · exact .step hfirst (.step (.pass_single (by decide) (show 120 ≤ 250 by decide)) (.refl _))
  · exact .step (.pass_single (by decide) (show 250 ≤ 250 by decide))
      (.step hfinish (.step hsecond (.refl _)))

end Fleet

end ScriptHost
