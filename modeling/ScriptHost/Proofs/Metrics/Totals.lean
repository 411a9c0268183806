import Mathlib.Algebra.Ring.Nat
import ScriptHost.Proofs.Metrics.Counters

/-!
# The total time of an engine

The time of an execution is cut down to what a counter holds before it is added, but the addition
itself may leave the range. `totalMillis_recordAll` says what any sequence of executions adds up to
in an optimised build, and `recordAllIn_checked_eq_ok_iff` when a build with checks gets through with
it. `total_recorded` compares both with a counter that stops at its largest number: they agree while
the additions stay in range, and the execution that leaves it makes the total smaller or breaks off.
-/

namespace ScriptHost.Metrics

/-- An execution as it is counted. -/
structure Recording where
  engine : String
  success : Bool
  elapsed : Duration

/-- Count executions in order in an optimised build. -/
def recordAll (m : Metrics) (recordings : List Recording) : Metrics :=
  recordings.foldl (fun m r => m.record r.engine r.success r.elapsed) m

/-- Count executions in order, up to one that breaks off. -/
def recordAllIn (build : Build) (m : Metrics) (recordings : List Recording) :
    Except Metrics Metrics :=
  recordings.foldlM (fun m r => m.recordIn build r.engine r.success r.elapsed) m

/-- How long the executions of an engine took. -/
def spans (recordings : List Recording) (name : String) : List Duration :=
  (recordings.filter (·.engine = name)).map (·.elapsed)

/-- The whole milliseconds of all executions of an engine, each cut off on its own. -/
def spentMillis (recordings : List Recording) (name : String) : Nat :=
  ((spans recordings name).map Duration.millis).sum

/-- What is added for all executions of an engine. -/
def addedMillis (recordings : List Recording) (name : String) : Nat :=
  ((spans recordings name).map cappedMillis).sum

/-- The executions add up to totals in the range of a counter, for every engine. -/
def InRange (recordings : List Recording) : Prop :=
  ∀ name, addedMillis recordings name < counterBound

/-- The largest number that a counter holds. -/
def counterMax : Nat :=
  counterBound - 1

variable {m : Metrics} {recordings : List Recording} {name : String}

theorem counterBound_eq : counterBound = counterMax + 1 := by
  decide

theorem cappedMillis_eq (elapsed : Duration) : cappedMillis elapsed = min elapsed.millis counterMax :=
  rfl

/-! ## One execution -/

/-- One execution adds to the total of its engine, which wraps around, and to no other one. -/
theorem totalMillis_record (m : Metrics) (r : Recording) (name : String) :
    ((m.record r.engine r.success r.elapsed).engine name).totalMillis =
      if r.engine = name then ((m.engine name).totalMillis + cappedMillis r.elapsed) % counterBound
      else (m.engine name).totalMillis := by
  rw [engine_record]
  by_cases h : r.engine = name
  · rw [if_pos h, if_pos h, h]
    rfl
  · rw [if_neg h, if_neg h]

/-- Adding what a counter can hold to what it holds makes it smaller just if the sum is out of
range. -/
theorem add_mod_lt_iff {total added : Nat} (htotal : total < counterBound)
    (hadded : added ≤ counterMax) :
    (total + added) % counterBound < total ↔ counterBound ≤ total + added := by
  have hbound := counterBound_eq
  by_cases h : total + added < counterBound
  · rw [Nat.mod_eq_of_lt h]
    omega
  · have hwraps : (total + added) % counterBound = total + added - counterBound := by
      rw [Nat.mod_eq_sub_mod (Nat.le_of_not_lt h), Nat.mod_eq_of_lt (by omega)]
    rw [hwraps]
    omega

/-! ## All executions -/

theorem recordAll_append (m : Metrics) (recordings : List Recording) (r : Recording) :
    m.recordAll (recordings ++ [r]) =
      (m.recordAll recordings).record r.engine r.success r.elapsed := by
  rw [recordAll, List.foldl_append]
  rfl

theorem addedMillis_append (recordings : List Recording) (r : Recording) (name : String) :
    addedMillis (recordings ++ [r]) name =
      addedMillis recordings name + if r.engine = name then cappedMillis r.elapsed else 0 := by
  unfold addedMillis spans
  by_cases h : r.engine = name <;> simp [h]

/-- The total of an engine is all that was added for it, within the range of a counter. -/
theorem totalMillis_recordAll (recordings : List Recording) (name : String) :
    ((empty.recordAll recordings).engine name).totalMillis =
      addedMillis recordings name % counterBound := by
  induction recordings using List.reverseRecOn with
  | nil =>
      show (empty.engine name).totalMillis = 0
      rw [engine_empty]
      rfl
  | append_singleton recordings r ih =>
      rw [recordAll_append, totalMillis_record, addedMillis_append, ih]
      by_cases h : r.engine = name
      · rw [if_pos h, if_pos h, Nat.mod_add_mod]
      · rw [if_neg h, if_neg h, Nat.add_zero]

/-- For a counter that stops at its largest number, it is the same whether the times were cut down to
that number before. -/
theorem min_sum_cappedMillis (elapsed : List Duration) :
    min (elapsed.map cappedMillis).sum counterMax =
      min (elapsed.map Duration.millis).sum counterMax := by
  induction elapsed with
  | nil => rfl
  | cons d elapsed ih =>
      rw [List.map_cons, List.map_cons, List.sum_cons, List.sum_cons, cappedMillis_eq]
      omega

/-- In an optimised build all executions are counted. -/
theorem recordAllIn_optimised (m : Metrics) (recordings : List Recording) :
    recordAllIn .optimised m recordings = .ok (m.recordAll recordings) := by
  induction recordings generalizing m with
  | nil => rfl
  | cons r recordings ih =>
      rw [recordAllIn, List.foldlM_cons]
      exact ih (m.record r.engine r.success r.elapsed)

theorem recordAllIn_append (build : Build) (m : Metrics) (recordings : List Recording)
    (r : Recording) :
    recordAllIn build m (recordings ++ [r]) =
      match recordAllIn build m recordings with
      | .error broken => .error broken
      | .ok counted => counted.recordIn build r.engine r.success r.elapsed := by
  rw [recordAllIn, List.foldlM_append, ← recordAllIn]
  cases recordAllIn build m recordings with
  | error broken => rfl
  | ok counted =>
      show (counted.recordIn build r.engine r.success r.elapsed >>= pure) =
        counted.recordIn build r.engine r.success r.elapsed
      exact bind_pure _

/-! ## Staying in range -/

theorem InRange.of_append {r : Recording} (h : InRange (recordings ++ [r])) :
    InRange recordings := by
  intro name
  have hname := h name
  rw [addedMillis_append] at hname
  omega

/-- One more execution stays in range if its engine does. -/
theorem InRange.append (h : InRange recordings) {r : Recording}
    (hr : addedMillis (recordings ++ [r]) r.engine < counterBound) :
    InRange (recordings ++ [r]) := by
  intro name
  by_cases hname : r.engine = name
  · rwa [← hname]
  · rw [addedMillis_append, if_neg hname, Nat.add_zero]
    exact h name

/-- In range, nothing has wrapped around. -/
theorem InRange.totalMillis (h : InRange recordings) (name : String) :
    ((empty.recordAll recordings).engine name).totalMillis = addedMillis recordings name := by
  rw [totalMillis_recordAll, Nat.mod_eq_of_lt (h name)]

/-- In range, a total is what a counter has that stops at its largest number. -/
theorem InRange.addedMillis_eq (h : InRange recordings) (name : String) :
    addedMillis recordings name = min (spentMillis recordings name) counterMax := by
  have hname := h name
  rw [counterBound_eq] at hname
  rw [spentMillis, ← min_sum_cappedMillis, ← addedMillis]
  omega

/-- One more execution leaves the range if the sum of its engine does. -/
theorem InRange.overflows_iff (h : InRange recordings) (r : Recording) :
    (empty.recordAll recordings).overflows r.engine r.elapsed = true ↔
      counterBound ≤ addedMillis (recordings ++ [r]) r.engine := by
  rw [overflows, decide_eq_true_iff, h.totalMillis, addedMillis_append, if_pos rfl]

/-- A build with checks gets through with executions if their sums stay in range, and then has
counted them. -/
theorem recordAllIn_checked_eq_ok_iff :
    recordAllIn .checked empty recordings = .ok m ↔
      InRange recordings ∧ m = empty.recordAll recordings := by
  induction recordings using List.reverseRecOn generalizing m with
  | nil =>
      have hnothing : InRange [] := fun name => (by decide : 0 < counterBound)
      exact ⟨fun h => ⟨hnothing, (Except.ok.inj h).symm⟩, fun h => congrArg _ h.2.symm⟩
  | append_singleton recordings r ih =>
      rw [recordAllIn_append]
      by_cases hrange : InRange recordings
      · rw [ih.mpr ⟨hrange, rfl⟩]
        dsimp only [recordIn]
        split
        · rename_i hover
          have hsum := (hrange.overflows_iff r).mp hover
          exact iff_of_false nofun fun h => Nat.not_lt.mpr hsum (h.1 r.engine)
        · rename_i hfits
          have hsum := Nat.not_le.mp (mt (hrange.overflows_iff r).mpr hfits)
          rw [recordAll_append, Except.ok.injEq, and_iff_right (hrange.append hsum), eq_comm]
      · have hbroken : ∃ broken, recordAllIn .checked empty recordings = .error broken := by
          cases hcounted : recordAllIn .checked empty recordings with
          | error broken => exact ⟨broken, rfl⟩
          | ok counted => exact absurd (ih.mp hcounted).1 hrange
        obtain ⟨broken, hbroken⟩ := hbroken
        rw [hbroken]
        exact iff_of_false nofun fun h => hrange h.1.of_append

/-- A build with checks breaks off at the first execution that leaves the range, and has then counted
all before it, and that one but for its time. -/
theorem split_of_recordAllIn_error (h : recordAllIn .checked empty recordings = .error m) :
    ∃ before r after, recordings = before ++ r :: after ∧ InRange before ∧
      counterBound ≤ addedMillis (before ++ [r]) r.engine ∧
      m = (empty.recordAll before).recordUntimed r.engine r.success := by
  induction recordings using List.reverseRecOn with
  | nil => cases h
  | append_singleton recordings r ih =>
      rw [recordAllIn_append] at h
      cases hcounted : recordAllIn .checked empty recordings with
      | error broken =>
          rw [hcounted] at h
          obtain ⟨before, first, after, hsplit, hfirst⟩ := ih (hcounted.trans h)
          exact ⟨before, first, after ++ [r], by rw [hsplit]; simp, hfirst⟩
      | ok counted =>
          rw [hcounted] at h
          obtain ⟨hrange, rfl⟩ := recordAllIn_checked_eq_ok_iff.mp hcounted
          dsimp only [recordIn] at h
          split at h
          · rename_i hover
            exact ⟨recordings, r, [], rfl, hrange, (hrange.overflows_iff r).mp hover,
              (Except.error.inj h).symm⟩
          · cases h

/-- An execution whose time could not be added leaves all totals alone. -/
theorem totalMillis_recordUntimed (m : Metrics) (engine : String) (success : Bool) (name : String) :
    ((m.recordUntimed engine success).engine name).totalMillis = (m.engine name).totalMillis := by
  rw [Metrics.engine, recordUntimed, Std.TreeMap.getElem?_insert]
  simp only [Std.compare_eq_iff_eq]
  by_cases h : engine = name
  · rw [if_pos h, h]
    rfl
  · rw [if_neg h]
    rfl

/-- What becomes of the total time of an engine. In an optimised build it is what was added for its
executions, and wraps around at the end of its range. As long as nothing has wrapped, it is the sum
of their times in whole milliseconds, or the largest number of a counter if that is smaller. Once the
sum is out of range the total is that number only by chance. An execution makes the total smaller
exactly if adding its time leaves the range. A build with checks gets through with the executions
exactly if all sums stay in range, and has the same totals then; otherwise it breaks off at the first
execution that leaves the range, with the totals of those before it. -/
theorem total_recorded (recordings : List Recording) (name : String) :
    (∃ m, recordAllIn .optimised empty recordings = .ok m ∧
      (m.engine name).totalMillis = addedMillis recordings name % counterBound ∧
      ((m.engine name).totalMillis = min (spentMillis recordings name) counterMax ↔
        addedMillis recordings name < counterBound ∨
          addedMillis recordings name % counterBound = counterMax) ∧
      ∀ r : Recording, ∃ after, recordAllIn .optimised empty (recordings ++ [r]) = .ok after ∧
        ((after.engine name).totalMillis < (m.engine name).totalMillis ↔
          r.engine = name ∧ counterBound ≤ (m.engine name).totalMillis + cappedMillis r.elapsed)) ∧
    ((∃ m, recordAllIn .checked empty recordings = .ok m) ↔ InRange recordings) ∧
    (∀ m, recordAllIn .checked empty recordings = .ok m →
      (m.engine name).totalMillis = min (spentMillis recordings name) counterMax) ∧
    ∀ m, recordAllIn .checked empty recordings = .error m →
      ∃ before r after, recordings = before ++ r :: after ∧ InRange before ∧
        counterBound ≤ addedMillis (before ++ [r]) r.engine ∧
        (m.engine name).totalMillis = min (spentMillis before name) counterMax := by
  refine ⟨⟨_, recordAllIn_optimised empty recordings, totalMillis_recordAll _ _, ?_, fun r => ?_⟩,
    ⟨?_, ?_⟩, ?_, ?_⟩
  · have hbound := counterBound_eq
    rw [spentMillis, ← min_sum_cappedMillis, ← addedMillis, totalMillis_recordAll]
    by_cases h : addedMillis recordings name < counterBound
    · rw [Nat.mod_eq_of_lt h]
      omega
    · omega
  · refine ⟨_, recordAllIn_optimised empty _, ?_⟩
    have hlt : ((empty.recordAll recordings).engine name).totalMillis < counterBound := by
      rw [totalMillis_recordAll]
      exact Nat.mod_lt _ (by decide)
    rw [recordAll_append, totalMillis_record]
    by_cases h : r.engine = name
    · rw [if_pos h]
      have hcapped : cappedMillis r.elapsed ≤ counterMax := Nat.min_le_right _ _
      exact (add_mod_lt_iff hlt hcapped).trans (and_iff_right h).symm
    · rw [if_neg h]
      exact iff_of_false (Nat.lt_irrefl _) fun hboth => h hboth.1
  · rintro ⟨m, hm⟩
    exact (recordAllIn_checked_eq_ok_iff.mp hm).1
  · intro hrange
    exact ⟨_, recordAllIn_checked_eq_ok_iff.mpr ⟨hrange, rfl⟩⟩
  · intro m hm
    obtain ⟨hrange, rfl⟩ := recordAllIn_checked_eq_ok_iff.mp hm
    rw [hrange.totalMillis, hrange.addedMillis_eq]
  · intro m hm
    obtain ⟨before, r, after, hsplit, hrange, hsum, rfl⟩ := split_of_recordAllIn_error hm
    refine ⟨before, r, after, hsplit, hrange, hsum, ?_⟩
    rw [totalMillis_recordUntimed, hrange.totalMillis, hrange.addedMillis_eq]

/-- After the longest span there is, another millisecond takes the total back to nothing or is not
counted at all, where a counter that stops would stay at its largest number. -/
theorem total_starts_over :
    let longest : Recording := ⟨"a", true, .ofSeconds (Duration.secondsBound - 1)⟩
    let short : Recording := ⟨"a", true, .ofMillis 1⟩
    min (spentMillis [longest, short] "a") counterMax = counterMax ∧
    (∃ m, recordAllIn .optimised empty [longest, short] = .ok m ∧
      (m.engine "a").totalMillis = 0) ∧
    ∃ m, recordAllIn .checked empty [longest, short] = .error m := by
  intro longest short
  refine ⟨by decide, ⟨_, recordAllIn_optimised _ _, ?_⟩, ?_⟩
  · rw [totalMillis_recordAll]
    decide
  · have hlong : ¬ InRange [longest, short] := fun h => absurd (h "a") (by decide)
    cases hcounted : recordAllIn .checked empty [longest, short] with
    | error broken => exact ⟨broken, rfl⟩
    | ok counted => exact absurd (recordAllIn_checked_eq_ok_iff.mp hcounted).1 hlong

end ScriptHost.Metrics
