import ScriptHost.Proofs.Schedule.Shutdown
import ScriptHost.Schedule.Timeline

/-!
# The clock keeps to the rules

What happens to a single task on the clock is a sequence of events that the loops allow, and time
passes only as long as the loop has nothing to do: `Timeline.steps_advance` while it is let run, and
`Timeline.steps_shutdown` once it is cancelled, whichever way the choices go.
-/

namespace ScriptHost

open Fleet

/-- A loop that has come round is not running. -/
theorem Worker.landed_phase (w : Worker) (now : Nat) :
    (w.landed now).phase = .waiting ∨ (w.landed now).phase = .stopped := by
  cases hphase : w.phase with
  | waiting => exact .inl (by rw [landed_waiting hphase, hphase])
  | running ending outcome => exact .inl (by rw [landed_running hphase]; rfl)
  | stopped => exact .inr (by rw [landed_stopped hphase, hphase])

/-- The run in flight of a single loop ends, after the time that it still takes. -/
theorem Fleet.steps_landed (w : Worker) (now : Nat) (cancelled : Bool) :
    ∃ events, Steps PromptStep ⟨now, [w], cancelled⟩ events
      ⟨w.comesRound now, [w.landed (w.comesRound now)], cancelled⟩ := by
  cases hphase : w.phase with
  | waiting =>
      rw [Worker.comesRound_waiting hphase, Worker.landed_waiting hphase]
      exact ⟨[], .refl _⟩
  | stopped =>
      rw [Worker.comesRound_stopped hphase, Worker.landed_stopped hphase]
      exact ⟨[], .refl _⟩
  | running ending outcome =>
      rw [Worker.comesRound_running hphase, Worker.landed_running hphase]
      have hfinish : ∀ later, ending ≤ later → PromptStep ⟨later, [w], cancelled⟩ (.finish 0)
          ⟨later, [w.finish outcome later], cancelled⟩ := fun later hlater =>
        (Step.finish rfl hphase hlater).prompt nofun
      by_cases hending : ending ≤ now
      · rw [Nat.max_eq_left hending]
        exact ⟨[.finish 0], .step (hfinish now hending) (.refl _)⟩
      · rw [Nat.max_eq_right (by omega)]
        have hidle : w.IdleUntil cancelled ending :=
          (Worker.idleUntil_running hphase).mpr (Nat.le_refl ending)
        exact ⟨[.pass ending, .finish 0], .step (.pass_single (by omega) hidle)
          (.step (hfinish ending (Nat.le_refl ending)) (.refl _))⟩

/-- A single loop that has come round and is cancelled stops. -/
theorem Fleet.steps_stop (w : Worker) (now : Nat) : ∃ events,
    Steps PromptStep ⟨now, [w.landed now], true⟩ events ⟨now, [(w.landed now).stop], true⟩ := by
  rcases w.landed_phase now with hphase | hphase
  · exact ⟨[.stop 0], .step ((Step.stop rfl hphase rfl).prompt nofun) (.refl _)⟩
  · rw [Worker.stop_stopped hphase]
    exact ⟨[], .refl _⟩

/-- A single waiting loop takes a tick as soon as it is due. -/
theorem Fleet.steps_tick {w : Worker} (hphase : w.phase = .waiting) (now : Nat) (run : TaskRun) :
    ∃ events, Steps PromptStep ⟨now, [w], false⟩ events
      ⟨max w.due now, [w.start run (max w.due now)], false⟩ := by
  have htick : ∀ later, w.due ≤ later → PromptStep ⟨later, [w], false⟩ (.tick 0 run)
      ⟨later, [w.start run later], false⟩ := fun later hlater =>
    (Step.tick rfl hphase hlater).prompt nofun
  by_cases hdue : w.due ≤ now
  · rw [Nat.max_eq_right hdue]
    exact ⟨[.tick 0 run], .step (htick now hdue) (.refl _)⟩
  · rw [Nat.max_eq_left (by omega)]
    have hidle : w.IdleUntil false w.due :=
      (Worker.idleUntil_waiting hphase).mpr ⟨rfl, Nat.le_refl w.due⟩
    exact ⟨[.pass w.due, .tick 0 run], .step (.pass_single (by omega) hidle)
      (.step (htick w.due (Nat.le_refl w.due)) (.refl _))⟩

namespace Timeline

/-- Letting time pass is a sequence of events. -/
theorem steps_advance (t : Timeline) {now later : Nat} (h : now ≤ later) :
    ∃ events, Steps PromptStep ⟨now, [t.worker], false⟩ events
      ⟨later, [(t.advance now later).worker], false⟩ := by
  rw [advance]
  fun_induction catchUp t now later with
  | case1 t now free hfree =>
      -- The run in flight takes longer than the time that passes.
      have hidle : t.worker.IdleUntil false later := by
        cases hphase : t.worker.phase with
        | waiting =>
            rw [show free = now from Worker.comesRound_waiting hphase now] at hfree
            exact absurd h (Nat.not_le.mpr hfree)
        | running ending outcome =>
            rw [show free = max now ending from Worker.comesRound_running hphase now] at hfree
            exact (Worker.idleUntil_running hphase).mpr (by omega)
        | stopped => exact Worker.idleUntil_stopped hphase
      exact ⟨[.pass later], .step (.pass_single h hidle) (.refl _)⟩
  | case2 t now free landed hfree hdue ih =>
      obtain ⟨events, hlanded⟩ := steps_landed t.worker now false
      obtain ⟨more, htick⟩ := steps_tick hdue.1 free landed.nextRun
      obtain ⟨others, hrest⟩ := ih (by omega)
      exact ⟨_, (hlanded.append htick).append hrest⟩
  | case3 t now free landed hfree hdue =>
      obtain ⟨events, hlanded⟩ := steps_landed t.worker now false
      have hidle : landed.worker.IdleUntil false later := by
        rcases t.worker.landed_phase free with hphase | hphase
        · exact (Worker.idleUntil_waiting hphase).mpr
            ⟨rfl, Nat.le_of_not_le fun hlate => hdue ⟨hphase, hlate⟩⟩
        · exact Worker.idleUntil_stopped hphase
      exact ⟨_, hlanded.append (.step (.pass_single (by omega) hidle) (.refl _))⟩

/-- Shutting down is a sequence of events, whatever the choices are. -/
theorem steps_shutdown (t : Timeline) (now : Nat) (choices : List Bool) :
    ∃ events later, Steps PromptStep ⟨now, [t.worker], true⟩ events
      ⟨later, [(t.shutdown now choices).worker], true⟩ := by
  induction choices generalizing t now with
  | nil =>
      obtain ⟨events, hlanded⟩ := steps_landed t.worker now true
      obtain ⟨more, hstop⟩ := steps_stop t.worker (t.worker.comesRound now)
      exact ⟨_, _, hlanded.append hstop⟩
  | cons takesTick choices ih =>
      obtain ⟨events, hlanded⟩ := steps_landed t.worker now true
      rw [shutdown]
      split
      · rename_i htakes
        obtain ⟨-, hphase, hdue⟩ := htakes
        have htick : PromptStep _ (.tick 0 (t.land (t.worker.comesRound now)).nextRun) _ :=
          (Step.tick (f := ⟨t.worker.comesRound now, [_], true⟩) rfl hphase hdue).prompt nofun
        obtain ⟨others, later, hrest⟩ := ih ((t.land (t.worker.comesRound now)).take
          (t.worker.comesRound now)) (t.worker.comesRound now)
        exact ⟨_, later, hlanded.append (.step htick hrest)⟩
      · obtain ⟨more, hstop⟩ := steps_stop t.worker (t.worker.comesRound now)
        exact ⟨_, _, hlanded.append hstop⟩

end Timeline

end ScriptHost
