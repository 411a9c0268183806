import ScriptHost.Proofs.Runner.Ceiling
import ScriptHost.Proofs.Runner.Start
import ScriptHost.Proofs.Settings.Documents
import ScriptHost.Service.Build

/-!
# The runners of a document

Which runs of an accepted document break off because the clock has no instant at which their time is
up. A runner for a timeout never does on a clock that has not run for billions of years. A runner for
poll limits does when the two limits are large together, as they are only bounded one by one:
`accepted_runners` says from where on, and `unpollable_accepted` is a document beyond that.
-/

namespace ScriptHost.Runner

/-! ## Poll limits -/

/-- The ceiling of poll limits is their product, where the clock can hold it. -/
theorem ceiling?_ofLimits {l : PollLimits} (h : l.loopCount ≠ 0) :
    (ofLimits l).ceiling? =
      if l.waitMillis * l.loopCount < 2 ^ 64 * 1000 then
        some (.ofMillis (l.waitMillis * l.loopCount))
      else none := by
  have hloops : max l.loopCount 1 = l.loopCount := Nat.max_eq_left (Nat.pos_of_ne_zero h)
  have hproduct : l.waitMillis * 1000000 * l.loopCount = l.waitMillis * l.loopCount * 1000000 :=
    Nat.mul_right_comm ..
  have hclock : Duration.secondsBound * Duration.perSecond = 2 ^ 64 * 1000 * 1000000 := rfl
  show (Duration.ofMillis l.waitMillis).times? (max l.loopCount 1) = _
  rw [hloops]
  split
  · rename_i hfits
    have hbound : l.waitMillis * 1000000 * l.loopCount <
        Duration.secondsBound * Duration.perSecond := by
      rw [hproduct, hclock]
      exact Nat.mul_lt_mul_of_pos_right hfits (by decide)
    exact (Duration.times?_of_lt hbound).trans
      (congrArg (fun nanos => some (Duration.mk nanos)) hproduct)
  · rename_i hfits
    refine Duration.times?_of_le ?_
    show _ ≤ l.waitMillis * 1000000 * l.loopCount
    rw [hproduct, hclock]
    exact Nat.mul_le_mul_right _ (Nat.le_of_not_lt hfits)

/-! ## Runs that break off -/

/-- A run breaks off when there is a program to start, but no instant at which its time is up. -/
theorem run_eq_clockOverflow_iff {r : Runner} {i : Invocation} {host : Host} :
    ((r.run i).run.run host).1 = .error .clockOverflow ↔
      i.argv ≠ [] ∧ ∀ c, r.ceiling? = some c →
        instantBound * Duration.perSecond ≤ host.uptime + c.nanos := by
  have hready : r.ready i host = .error .clockOverflow ↔
      i.argv ≠ [] ∧ ∀ c, r.ceiling? = some c →
        instantBound * Duration.perSecond ≤ host.uptime + c.nanos := by
    simp only [ready_eq_clockOverflow_iff, hasDeadline, decide_eq_false_iff_not, Nat.not_lt]
  rw [← hready, run_eq]
  cases r.ready i host with
  | error fault => simp
  | ok ready => exact iff_of_false await_ne_clockOverflow nofun

/-- No timeout is too long for its runner. -/
theorem ceiling?_withTimeout_le (t : Duration) :
    ∃ c, (withTimeout t).ceiling? = some c ∧ c.seconds ≤ maxLoops := by
  have hseconds (n : Nat) : (Duration.ofSeconds n).seconds = n :=
    Nat.mul_div_cancel n (by decide)
  rcases Nat.lt_or_ge (maxLoops * Duration.perSecond) t.nanos with hcapped | hmost
  · exact ⟨_, ceiling?_capped hcapped, Nat.le_of_eq (hseconds maxLoops)⟩
  rcases Nat.lt_or_ge Duration.perSecond t.nanos with hlong | hshort
  · refine ⟨_, ceiling?_long hlong hmost, ?_⟩
    rw [hseconds, maxLoops_eq]
    rw [maxLoops_eq] at hmost
    unfold Duration.seconds Duration.subsecond Duration.perSecond at *
    split <;> omega
  · refine ⟨_, ceiling?_short hshort, ?_⟩
    show max t.nanos 1000000 / Duration.perSecond ≤ maxLoops
    rw [maxLoops_eq]
    unfold Duration.perSecond at *
    omega

variable {text : String} {s : Settings}

/-- An accepted document gives two runners. The one for its timeout does not break off on a clock that
has run for up to `2 ^ 63 - 2 ^ 32` seconds. The one for its poll limits has their product as its
ceiling, if that is a span of time, and breaks off where the clock, when it has run for the product
longer, is beyond its last instant. As a wait is shorter than `2 ^ 63` milliseconds, that takes a
thousand polls unless the clock has run for that long. -/
theorem accepted_runners (h : Settings.ofDocument text = .ok s) :
    (∃ c, s.enginesOrDefault.runner.ceiling? = some c ∧ c.seconds ≤ maxLoops) ∧
    (∀ i host, host.uptime ≤ (2 ^ 63 - 2 ^ 32) * 1000000000 →
      ((s.enginesOrDefault.runner.run i).run.run host).1 ≠ .error .clockOverflow) ∧
    (ofLimits s.commandOrDefault).ceiling? =
      (if s.commandOrDefault.waitMillis * s.commandOrDefault.loopCount < 2 ^ 64 * 1000 then
        some (.ofMillis (s.commandOrDefault.waitMillis * s.commandOrDefault.loopCount))
      else none) ∧
    (∀ i host, (((ofLimits s.commandOrDefault).run i).run.run host).1 = .error .clockOverflow ↔
      i.argv ≠ [] ∧ 2 ^ 63 * 1000000000 ≤
        host.uptime + s.commandOrDefault.waitMillis * s.commandOrDefault.loopCount * 1000000) ∧
    (s.commandOrDefault.loopCount < 1000 → ∀ i host, host.uptime ≤ 2 ^ 63 * 1000000 →
      (((ofLimits s.commandOrDefault).run i).run.run host).1 ≠ .error .clockOverflow) := by
  have hpolls := (Settings.ofDocument_eq_ok_iff.mp h).2.command.polls
  have hwaits := (Settings.ofDocument_written h).command.waits
  generalize s.commandOrDefault = limits at hpolls hwaits ⊢
  have hlimit : instantBound * Duration.perSecond = 2 ^ 63 * 1000000000 := rfl
  have htimeout : ∃ c, s.enginesOrDefault.runner.ceiling? = some c ∧ c.seconds ≤ maxLoops :=
    ceiling?_withTimeout_le _
  have hbreaks (i : Invocation) (host : Host) :
      (((ofLimits limits).run i).run.run host).1 = .error .clockOverflow ↔
        i.argv ≠ [] ∧
          2 ^ 63 * 1000000000 ≤ host.uptime + limits.waitMillis * limits.loopCount * 1000000 := by
    rw [run_eq_clockOverflow_iff, ceiling?_ofLimits hpolls, hlimit]
    refine and_congr_right fun _ => ?_
    split
    · simp only [Option.some.injEq, forall_eq', Duration.ofMillis]
    · simp only [reduceCtorEq, false_implies, implies_true, true_iff]
      omega
  refine ⟨htimeout, fun i host hrecent hbreak => ?_, ceiling?_ofLimits hpolls, hbreaks,
    fun hfew i host hrecent hbreak => ?_⟩
  · obtain ⟨c, hceiling, hc⟩ := htimeout
    have hlate := (run_eq_clockOverflow_iff.mp hbreak).2 c hceiling
    rw [hlimit] at hlate
    rw [maxLoops_eq, Duration.seconds, Duration.perSecond] at hc
    omega
  · have hproduct := ((hbreaks i host).mp hbreak).2
    have hmost : limits.waitMillis * limits.loopCount ≤ (2 ^ 63 - 1) * 999 :=
      Nat.mul_le_mul (Nat.le_sub_one_of_lt hwaits) (Nat.le_sub_one_of_lt hfew)
    omega

/-- A document with nothing but poll limits is accepted if there are waits and polls. -/
theorem ofDocument_limits (wait loops : Nat)
    (hdecode : (Toml.read? text).bind Settings.decode =
      some { Settings.empty with command := some ⟨wait, loops⟩ })
    (hwait : wait ≠ 0) (hloops : loops ≠ 0) :
    Settings.ofDocument text = .ok { Settings.empty with command := some ⟨wait, loops⟩ } :=
  Settings.ofDocument_eq_ok_iff.mpr
    ⟨hdecode, { Settings.usable_empty with command := ⟨hwait, hloops⟩ }⟩

/-- Almost a thousand polls with the longest wait, on a clock that has run for a week. -/
theorem accepted_runners_longest_wait :
    ∃ s, Settings.ofDocument "[command]\nwait_time_ms = 9223372036854775807\nloop_count = 999\n" =
        .ok s ∧
      s.commandOrDefault = ⟨9223372036854775807, 999⟩ ∧
      ∀ i host, host.uptime = 604800000000000 →
        (((ofLimits s.commandOrDefault).run i).run.run host).1 ≠ .error .clockOverflow ∧
          ((s.enginesOrDefault.runner.run i).run.run host).1 ≠ .error .clockOverflow := by
  have hdocument : Settings.ofDocument
      "[command]\nwait_time_ms = 9223372036854775807\nloop_count = 999\n" = .ok _ :=
    ofDocument_limits 9223372036854775807 999 (by decide +kernel) (by decide) (by decide)
  obtain ⟨-, htimeout, -, -, hfew⟩ := accepted_runners hdocument
  refine ⟨_, hdocument, rfl, fun i host hweek => ⟨hfew (by decide) i host ?_, htimeout i host ?_⟩⟩ <;>
    rw [hweek] <;> decide

/-- A document is accepted although no run with its poll limits gets as far as its program. -/
theorem unpollable_accepted :
    ∃ s, Settings.ofDocument
        "[command]\nwait_time_ms = 9223372036854775807\nloop_count = 4294967295\n" = .ok s ∧
      (ofLimits s.commandOrDefault).ceiling? = none ∧
      ∀ i host, i.argv ≠ [] →
        (((ofLimits s.commandOrDefault).run i).run.run host).1 = .error .clockOverflow := by
  have hdocument : Settings.ofDocument
      "[command]\nwait_time_ms = 9223372036854775807\nloop_count = 4294967295\n" = .ok _ :=
    ofDocument_limits 9223372036854775807 4294967295 (by decide +kernel) (by decide) (by decide)
  have hceiling : (ofLimits ⟨9223372036854775807, 4294967295⟩).ceiling? = none := by decide
  refine ⟨_, hdocument, hceiling, fun i host hargv => run_eq_clockOverflow_iff.mpr ⟨hargv, ?_⟩⟩
  intro c hc
  cases hceiling.symm.trans hc

end ScriptHost.Runner
