import ScriptHost.Runner

/-!
# The ceiling of a timeout

A runner for a timeout gives a process the time of whole polls. `withTimeout_ceiling` says how far
that is from the timeout: never more than a second above it, and below it only by a part of a
millisecond, as the polls are rounded up from the timeout in whole milliseconds. Up to a second
there is one poll, as long as the timeout; above a second every poll lasts a second.
-/

namespace ScriptHost

namespace Duration

variable {d : Duration} {n : Nat}

/-- A span is repeated where the clock can hold the result. -/
theorem times?_of_lt (h : d.nanos * n < secondsBound * perSecond) :
    d.times? n = some ⟨d.nanos * n⟩ := by
  have hbound : d.nanos * n / perSecond < secondsBound :=
    Nat.div_lt_of_lt_mul (Nat.mul_comm secondsBound perSecond ▸ h)
  unfold times?
  exact if_pos hbound

/-- A span that the clock cannot hold is refused. -/
theorem times?_of_le (h : secondsBound * perSecond ≤ d.nanos * n) : d.times? n = none := by
  have hbound : secondsBound ≤ d.nanos * n / perSecond :=
    (Nat.le_div_iff_mul_le (by decide)).mpr h
  unfold times?
  exact if_neg (Nat.not_lt.mpr hbound)

end Duration

namespace Runner

variable {t : Duration}

theorem maxLoops_eq : maxLoops = 4294967295 := rfl

/-! ## The polls -/

/-- A timeout of up to a second is one poll, which takes at least a millisecond. -/
theorem withTimeout_short (h : t.nanos ≤ Duration.perSecond) :
    withTimeout t = ⟨⟨max t.nanos 1000000⟩, 1⟩ := by
  have hpoll : (Duration.ofSeconds 1).min (t.max (.ofMillis 1)) = ⟨max t.nanos 1000000⟩ := by
    show (⟨min (1 * Duration.perSecond) (max t.nanos (1 * 1000000))⟩ : Duration) = _
    congr 1
    unfold Duration.perSecond at h ⊢
    omega
  have hloops (step : Nat) (hpos : 1 ≤ step) (hstep : t.millis ≤ step) :
      (t.millis + step - 1) / step ≤ 1 := by
    refine Nat.le_of_lt_succ (Nat.div_lt_of_lt_mul ?_)
    omega
  have hmillis : t.millis ≤ max (Duration.millis ⟨max t.nanos 1000000⟩) 1 := by
    unfold Duration.millis
    show t.nanos / 1000000 ≤ max (max t.nanos 1000000 / 1000000) 1
    omega
  have hone := hloops _ (Nat.le_max_right ..) hmillis
  unfold withTimeout new
  rw [hpoll]
  show (⟨_, max (min _ maxLoops) 1⟩ : Runner) = _
  congr 1
  exact Nat.max_eq_right (Nat.le_trans (Nat.min_le_left ..) hone)

/-- A timeout above a second is as many polls as its whole milliseconds need. -/
theorem withTimeout_long (h : Duration.perSecond < t.nanos) :
    withTimeout t = ⟨.ofSeconds 1, min ((t.millis + 999) / 1000) maxLoops⟩ := by
  have hpoll : (Duration.ofSeconds 1).min (t.max (.ofMillis 1)) = .ofSeconds 1 := by
    show (⟨min (1 * Duration.perSecond) (max t.nanos (1 * 1000000))⟩ : Duration) =
      ⟨1 * Duration.perSecond⟩
    congr 1
    omega
  have hpositive : 1 ≤ (t.millis + 999) / 1000 := by
    unfold Duration.millis
    unfold Duration.perSecond at h
    omega
  unfold withTimeout new
  rw [hpoll]
  show (⟨_, max (min ((t.millis + 1000 - 1) / 1000) maxLoops) 1⟩ : Runner) = _
  congr 1
  rw [maxLoops_eq]
  omega

/-- Of a second that has begun, a part of a millisecond does not count. -/
theorem polls_eq (t : Duration) :
    (t.millis + 999) / 1000 = t.seconds + if t.subsecond < 1000000 then 0 else 1 := by
  unfold Duration.millis Duration.seconds Duration.subsecond Duration.perSecond
  split <;> omega

/-! ## The ceiling -/

/-- Polls of a second each add up to their number of seconds. -/
theorem ceiling?_seconds {loops : Nat} (h : loops ≤ maxLoops) :
    ceiling? ⟨.ofSeconds 1, loops⟩ = some (.ofSeconds loops) := by
  have hbound : Duration.perSecond * loops < Duration.secondsBound * Duration.perSecond := by
    have hseconds : Duration.secondsBound = 18446744073709551616 := rfl
    rw [maxLoops_eq] at h
    unfold Duration.perSecond
    omega
  have htimes : Duration.times? ⟨Duration.perSecond⟩ loops = some ⟨Duration.perSecond * loops⟩ :=
    Duration.times?_of_lt hbound
  show Duration.times? ⟨Duration.perSecond⟩ loops = some ⟨loops * Duration.perSecond⟩
  rw [htimes, Nat.mul_comm]

/-- Up to a second the ceiling is the timeout, or a millisecond if that is longer. -/
theorem ceiling?_short (h : t.nanos ≤ Duration.perSecond) :
    (withTimeout t).ceiling? = some ⟨max t.nanos 1000000⟩ := by
  have hbound : max t.nanos 1000000 * 1 < Duration.secondsBound * Duration.perSecond := by
    have hseconds : Duration.secondsBound = 18446744073709551616 := rfl
    unfold Duration.perSecond at h ⊢
    omega
  rw [withTimeout_short h]
  show Duration.times? ⟨max t.nanos 1000000⟩ 1 = _
  rw [Duration.times?_of_lt hbound, Nat.mul_one]

/-- Above a second the ceiling is a number of whole seconds, one more than the timeout has if at
least a millisecond is left of it. -/
theorem ceiling?_long (h : Duration.perSecond < t.nanos)
    (hmost : t.nanos ≤ maxLoops * Duration.perSecond) :
    (withTimeout t).ceiling? =
      some (.ofSeconds (t.seconds + if t.subsecond < 1000000 then 0 else 1)) := by
  have hloops : t.seconds + (if t.subsecond < 1000000 then 0 else 1) ≤ maxLoops := by
    rw [maxLoops_eq] at hmost ⊢
    unfold Duration.seconds Duration.subsecond Duration.perSecond at *
    split <;> omega
  rw [withTimeout_long h, polls_eq, Nat.min_eq_left hloops, ceiling?_seconds hloops]

/-- No timeout has more polls than there are numbers for them. -/
theorem ceiling?_capped (h : maxLoops * Duration.perSecond < t.nanos) :
    (withTimeout t).ceiling? = some (.ofSeconds maxLoops) := by
  have hlong : Duration.perSecond < t.nanos := by
    rw [maxLoops_eq] at h
    omega
  have hloops : maxLoops ≤ t.seconds + if t.subsecond < 1000000 then 0 else 1 := by
    rw [maxLoops_eq] at h ⊢
    unfold Duration.seconds Duration.perSecond at *
    omega
  rw [withTimeout_long hlong, polls_eq, Nat.min_eq_right hloops, ceiling?_seconds (Nat.le_refl _)]

/-- Whatever the timeout, its runner has a ceiling that the clock can hold: `maxLoops` seconds for
all longer timeouts, and less than a second above every other one. It is the timeout itself when
that is a number of whole seconds. It is below the timeout exactly when that is above a second and
has a part of a millisecond, but no whole one, beyond its whole seconds; then by just that part. -/
theorem withTimeout_ceiling (t : Duration) :
    ∃ c, (withTimeout t).ceiling? = some c ∧
      (maxLoops * Duration.perSecond < t.nanos → c = .ofSeconds maxLoops) ∧
      (t.nanos ≤ maxLoops * Duration.perSecond →
        c.nanos < t.nanos + Duration.perSecond ∧
        (t.subsecond = 0 → 0 < t.seconds → c = t) ∧
        (c.nanos < t.nanos ↔
          Duration.perSecond < t.nanos ∧ 0 < t.subsecond ∧ t.subsecond < 1000000) ∧
        (c.nanos < t.nanos → t.nanos = c.nanos + t.subsecond)) := by
  have hsecond : Duration.perSecond = 1000000000 := rfl
  have hsplit : t.nanos = t.seconds * Duration.perSecond + t.subsecond :=
    (Nat.div_add_mod' t.nanos Duration.perSecond).symm
  have hsub : t.subsecond < Duration.perSecond := Nat.mod_lt _ (by decide)
  rcases Nat.lt_or_ge (maxLoops * Duration.perSecond) t.nanos with hcapped | hmost
  · exact ⟨_, ceiling?_capped hcapped, fun _ => rfl, fun h => absurd h (Nat.not_le.mpr hcapped)⟩
  rcases Nat.lt_or_ge Duration.perSecond t.nanos with hlong | hshort
  · refine ⟨_, ceiling?_long hlong hmost, fun h => absurd h (Nat.not_lt.mpr hmost), fun _ => ?_⟩
    generalize hloops : (t.seconds + if t.subsecond < 1000000 then 0 else 1) = loops
    have hnanos : (Duration.ofSeconds loops).nanos = loops * Duration.perSecond := rfl
    rw [hsecond] at *
    rw [hnanos]
    -- rounded down to whole seconds when less than a millisecond is left, else rounded up
    split at hloops
    · refine ⟨by omega, fun _ _ => ?_, by omega, by omega⟩
      exact congrArg Duration.mk (hnanos.trans (by omega))
    · refine ⟨by omega, fun _ _ => by omega, by omega, by omega⟩
  · refine ⟨_, ceiling?_short hshort, fun h => absurd h (Nat.not_lt.mpr hmost), fun _ => ?_⟩
    rw [hsecond] at *
    refine ⟨?_, fun _ _ => ?_, ?_, ?_⟩
    · show max t.nanos 1000000 < _
      omega
    · exact congrArg Duration.mk (show max t.nanos 1000000 = t.nanos by omega)
    · show max t.nanos 1000000 < t.nanos ↔ _
      omega
    · show max t.nanos 1000000 < t.nanos → t.nanos = max t.nanos 1000000 + _
      omega

/-- A process with a timeout of one second and half a millisecond is given up after one second. -/
theorem part_of_millisecond_lost :
    (withTimeout (.ofParts 1 500000)).ceiling? = some (.ofSeconds 1) ∧
      (Duration.ofSeconds 1).nanos < (Duration.ofParts 1 500000).nanos := by
  decide

end Runner

end ScriptHost
