import ScriptHost.Settings.Basic

/-!
# Merging settings

Whether settings can be worked with is decided section by section and job by job: `Settings.Usable`
says how, and `fault?_eq_none_iff` that this is what `Settings.fault?` looks for. A section of
merged settings is a section of one of the two, so merging keeps settings usable,
`Usable.overlaidBy`. With the empty settings it is a monoid.
-/

namespace ScriptHost

/-- Limits that let a process be polled. -/
structure PollLimits.Usable (l : PollLimits) : Prop where
  waits : l.waitMillis ≠ 0
  polls : l.loopCount ≠ 0

/-- A storage that accepts some data, and no more than any storage may, and that is found where a
file holds it. -/
structure StorageSettings.Usable (s : StorageSettings) : Prop where
  accepts : s.maxFileSize ≠ 0
  bounded : s.maxFileSize ≤ maxStoredBytes
  placed : s.backend = .sqlite → s.path ≠ none

/-- Engines whose commands are not empty. The arguments for a debugger may be. -/
structure EngineSettings.Usable (s : EngineSettings) : Prop where
  java : s.java.compile ≠ [] ∧ s.java.launch ≠ []
  groovy : s.groovy.compile ≠ [] ∧ s.groovy.launch ≠ []
  js : s.js.interpreter ≠ []

namespace Settings

/-- Settings with which the program can work. -/
structure Usable (s : Settings) : Prop where
  command : s.commandOrDefault.Usable
  storage : s.storageOrDefault.Usable
  scheduler : s.schedulerOrDefault.metricsIntervalSeconds ≠ 0
  jobs : ∀ job ∈ s.jobs, job.intervalSeconds ≠ 0
  engines : s.enginesOrDefault.Usable

/-! ## What is looked for -/

/-- Jobs are in order if each one has an interval. -/
theorem jobFault?_eq_none_iff {index : Nat} {jobs : List JobSchedule} :
    jobFault? index jobs = none ↔ ∀ job ∈ jobs, job.intervalSeconds ≠ 0 := by
  induction jobs generalizing index with
  | nil => simp [jobFault?]
  | cons job jobs ih =>
      unfold jobFault?
      by_cases h : job.intervalSeconds = 0 <;> simp [h, ih]

/-- The commands of a compiler are in order if neither of them is empty. -/
theorem compilerFault?_eq_none_iff {name : String} {commands : CompilerCommands} :
    compilerFault? name commands = none ↔ commands.compile ≠ [] ∧ commands.launch ≠ [] := by
  unfold compilerFault?
  by_cases h : commands.compile = [] <;> by_cases h' : commands.launch = [] <;> simp [h, h']

/-- Settings without a fault are the usable ones. -/
theorem fault?_eq_none_iff {s : Settings} : s.fault? = none ↔ s.Usable := by
  have hfound {p : Prop} [Decidable p] {fault : SettingsFault} {rest : Option SettingsFault} :
      (if p then some fault else rest) = none ↔ ¬ p ∧ rest = none := by
    by_cases h : p <;> simp [h]
  have hfirst {fault rest : Option SettingsFault} :
      (fault <|> rest) = none ↔ fault = none ∧ rest = none := by
    cases fault <;> simp
  simp only [fault?, hfound, hfirst, jobFault?_eq_none_iff, compilerFault?_eq_none_iff,
    List.isEmpty_iff, and_true]
  constructor
  · rintro ⟨hwaits, hpolls, haccepts, hbounded, hplaced, hscheduler, hjobs, hjava, hgroovy, hjs⟩
    exact ⟨⟨hwaits, hpolls⟩, ⟨haccepts, Nat.le_of_not_gt hbounded, not_and.mp hplaced⟩, hscheduler,
      hjobs, ⟨hjava, hgroovy, hjs⟩⟩
  · rintro ⟨⟨hwaits, hpolls⟩, ⟨haccepts, hbounded, hplaced⟩, hscheduler, hjobs,
      ⟨hjava, hgroovy, hjs⟩⟩
    exact ⟨hwaits, hpolls, haccepts, Nat.not_lt.mpr hbounded, not_and.mpr hplaced, hscheduler,
      hjobs, hjava, hgroovy, hjs⟩

/-- Settings pass their check if they are usable. -/
theorem checked_eq_ok_iff {s : Settings} : s.checked = .ok s ↔ s.Usable := by
  rw [← fault?_eq_none_iff, checked]
  cases s.fault? <;> simp

/-! ## Merging -/

/-- What holds of a section in both settings, given or by default, holds of it once they are
merged. -/
theorem getD_orElse_of_getD {α : Type} {P : α → Prop} {upper lower : Option α} {default : α}
    (hupper : P (upper.getD default)) (hlower : P (lower.getD default)) :
    P ((upper <|> lower).getD default) := by
  cases upper with
  | none => exact hlower
  | some => exact hupper

variable {lower upper : Settings}

/-- Usable settings over usable settings are usable. -/
theorem Usable.overlaidBy (hlower : lower.Usable) (hupper : upper.Usable) :
    (lower.overlaidBy upper).Usable where
  command := getD_orElse_of_getD hupper.command hlower.command
  storage := getD_orElse_of_getD hupper.storage hlower.storage
  scheduler := getD_orElse_of_getD (P := fun s : SchedulerSettings => s.metricsIntervalSeconds ≠ 0)
    hupper.scheduler hlower.scheduler
  jobs job hjob := (List.mem_append.mp hjob).elim (hlower.jobs job) (hupper.jobs job)
  engines := getD_orElse_of_getD hupper.engines hlower.engines

/-- Any number of usable settings laid over usable ones are usable. -/
theorem usable_foldl {layers : List Settings} (hlower : lower.Usable)
    (hlayers : ∀ layer ∈ layers, layer.Usable) : (layers.foldl overlaidBy lower).Usable := by
  induction layers generalizing lower with
  | nil => exact hlower
  | cons layer layers ih =>
      have hrest : ∀ other ∈ layers, other.Usable :=
        fun other hother => hlayers other (List.mem_cons_of_mem _ hother)
      exact ih (hlower.overlaidBy (hlayers layer List.mem_cons_self)) hrest

/-- All defaults are usable. -/
theorem usable_empty : empty.Usable :=
  fault?_eq_none_iff.mp (by decide)

theorem overlaidBy_assoc (a b c : Settings) :
    (a.overlaidBy b).overlaidBy c = a.overlaidBy (b.overlaidBy c) := by
  have hsection {α : Type} (x y z : Option α) : (z <|> y <|> x) = ((z <|> y) <|> x) := by
    cases z <;> rfl
  simp only [overlaidBy, hsection, List.append_assoc]

theorem empty_overlaidBy (s : Settings) : empty.overlaidBy s = s := by
  have hsection {α : Type} (x : Option α) : (x <|> none) = x := by
    cases x <;> rfl
  simp only [overlaidBy, empty, hsection, List.nil_append]

theorem overlaidBy_empty (s : Settings) : s.overlaidBy empty = s := by
  have hsection {α : Type} (x : Option α) : (none <|> x) = x := rfl
  simp only [overlaidBy, empty, hsection, List.append_nil]

end Settings

end ScriptHost
