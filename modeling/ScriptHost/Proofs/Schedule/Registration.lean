import Mathlib.Data.List.Nodup
import ScriptHost.Proofs.Repeats
import ScriptHost.Proofs.Settings.Merging
import ScriptHost.Schedule.Call
import ScriptHost.Service.Tasks

/-!
# Registering tasks

What registering a task comes to: it fails if the name is taken, and else if the interval is zero,
and otherwise the task becomes the last one. So the tasks of a scheduler have names of their own and
intervals that are not zero, `WellFormed`, however many calls have failed: `WellFormed.adds`. Settings
that are usable give no interval of zero, so the only thing that can be wrong with their tasks is a
job that is listed twice: `Settings.taskScheduler_registers`.
-/

namespace ScriptHost

namespace Scheduler

variable {α : Type} {s after : Scheduler α} {t : ScheduledTask α} {ts : List (ScheduledTask α)}

/-- The names of the tasks are distinct, and none of their intervals is zero. -/
structure WellFormed (s : Scheduler α) : Prop where
  names : (s.entries.map (·.name)).Nodup
  intervals : ∀ t ∈ s.entries, t.schedule.interval.nanos ≠ 0

theorem wellFormed_empty : (empty : Scheduler α).WellFormed :=
  ⟨List.nodup_nil, by simp [empty]⟩

theorem contains_iff {name : String} : s.contains name = true ↔ name ∈ s.entries.map (·.name) := by
  simp [contains]

/-! ## Registering one task -/

theorem add_of_taken (h : t.name ∈ s.entries.map (·.name)) :
    s.add t = .error (.duplicateTask t.name) := by
  rw [add, if_pos (contains_iff.mpr h)]

theorem add_of_zero (hname : t.name ∉ s.entries.map (·.name)) (h : t.schedule.interval.nanos = 0) :
    s.add t = .error (.invalidDefinition t.name .zeroInterval) := by
  rw [add, if_neg (mt contains_iff.mp hname), if_pos h]

theorem add_of_free (hname : t.name ∉ s.entries.map (·.name)) (h : t.schedule.interval.nanos ≠ 0) :
    s.add t = .ok ⟨s.entries ++ [t]⟩ := by
  rw [add, if_neg (mt contains_iff.mp hname), if_neg h]

/-- A task that is registered has a free name and an interval, and becomes the last one. -/
theorem add_eq_ok_iff : s.add t = .ok after ↔
    t.name ∉ s.entries.map (·.name) ∧ t.schedule.interval.nanos ≠ 0 ∧ after = ⟨s.entries ++ [t]⟩ := by
  by_cases hname : t.name ∈ s.entries.map (·.name)
  · simp [add_of_taken hname, hname]
  · by_cases hzero : t.schedule.interval.nanos = 0
    · simp [add_of_zero hname hzero, hzero]
    · rw [add_of_free hname hzero]
      simp only [Except.ok.injEq, hname, hzero, not_false_eq_true, ne_eq, true_and, eq_comm]

/-- A registration that fails leaves the scheduler as it was. -/
theorem run_addInPlace (t : ScheduledTask α) (s : Scheduler α) :
    (addInPlace t).run.run s =
      match s.add t with
      | .ok after => (.ok (), after)
      | .error fault => (.error fault, s) := by
  show (do
    if s.contains t.name then throw (.duplicateTask t.name)
    if t.schedule.interval.nanos = 0 then throw (.invalidDefinition t.name .zeroInterval)
    modify fun s => ⟨s.entries ++ [t]⟩ : ExceptT Error (StateM (Scheduler α)) Unit).run.run s = _
  rw [add]
  cases s.contains t.name with
  | true => rfl
  | false =>
      by_cases h : t.schedule.interval.nanos = 0
      · simp only [if_pos h]
        rfl
      · simp only [if_neg h]
        rfl

theorem WellFormed.add (h : s.WellFormed) (hadd : s.add t = .ok after) : after.WellFormed := by
  obtain ⟨hname, hinterval, rfl⟩ := add_eq_ok_iff.mp hadd
  constructor
  · rw [List.map_append]
    exact List.nodup_append'.mpr
      ⟨h.names, List.nodup_singleton _, List.disjoint_singleton.mpr hname⟩
  · exact List.forall_mem_append.mpr ⟨h.intervals, List.forall_mem_singleton.mpr hinterval⟩

/-! ## Registering many tasks -/

/-- The tasks whose registration has succeeded, first to last. -/
def accepted : List (ScheduledTask α) → List (Except Error Unit) → List (ScheduledTask α)
  | t :: ts, .ok () :: results => t :: accepted ts results
  | _ :: ts, .error _ :: results => accepted ts results
  | _, _ => []

/-- Any number of calls add the tasks that they accept, and nothing else. -/
theorem entries_adds (s : Scheduler α) (ts : List (ScheduledTask α)) :
    (s.adds ts).2.entries = s.entries ++ accepted ts (s.adds ts).1 := by
  induction ts generalizing s with
  | nil => exact (List.append_nil _).symm
  | cons t ts ih =>
      rw [adds, run_addInPlace]
      cases hadd : s.add t with
      | error fault => exact ih s
      | ok after =>
          obtain ⟨-, -, rfl⟩ := add_eq_ok_iff.mp hadd
          show (adds ⟨s.entries ++ [t]⟩ ts).2.entries = s.entries ++ t :: accepted ts _
          rw [ih]
          exact (List.append_cons _ _ _).symm

/-- Tasks keep their names for themselves through any calls. -/
theorem WellFormed.adds (h : s.WellFormed) (ts : List (ScheduledTask α)) :
    (s.adds ts).2.WellFormed := by
  induction ts generalizing s with
  | nil => exact h
  | cons t ts ih =>
      rw [Scheduler.adds, run_addInPlace]
      cases hadd : s.add t with
      | error fault => exact ih h
      | ok after => exact ih (h.add hadd)

/-- The first task is registered first. -/
theorem addAll_cons (s : Scheduler α) (t : ScheduledTask α) (ts : List (ScheduledTask α)) :
    s.addAll (t :: ts) = (s.add t).bind fun next => next.addAll ts := rfl

/-- Tasks in two parts are registered one part after the other. -/
theorem addAll_append (s : Scheduler α) (ts more : List (ScheduledTask α)) :
    s.addAll (ts ++ more) = (s.addAll ts).bind fun next => next.addAll more :=
  List.foldlM_append

/-- Tasks with free and distinct names and with intervals are all registered. -/
theorem addAll_of_nodup (hnames : ((s.entries ++ ts).map (·.name)).Nodup)
    (hintervals : ∀ t ∈ ts, t.schedule.interval.nanos ≠ 0) :
    s.addAll ts = .ok ⟨s.entries ++ ts⟩ := by
  induction ts generalizing s with
  | nil =>
      rw [List.append_nil]
      rfl
  | cons t ts ih =>
      obtain ⟨hinterval, hrest⟩ := List.forall_mem_cons.mp hintervals
      have hname : t.name ∉ s.entries.map (·.name) := by
        intro hmem
        rw [List.map_append] at hnames
        exact (List.nodup_append'.mp hnames).2.2 hmem List.mem_cons_self
      rw [List.append_cons] at hnames ⊢
      rw [addAll_cons, add_of_free hname hinterval]
      exact ih hnames hrest

/-- The first task that has the name of an earlier one is refused. -/
theorem addAll_of_repeat {name : String} (h : IsFirstRepeat (ts.map (·.name)) name)
    (hintervals : ∀ t ∈ ts, t.schedule.interval.nanos ≠ 0) :
    (empty : Scheduler α).addAll ts = .error (.duplicateTask name) := by
  obtain ⟨earlier, t, later, rfl, hnames, htaken, rfl⟩ := h.exists_of_map
  have hearlier : empty.addAll earlier = .ok ⟨earlier⟩ :=
    addAll_of_nodup hnames fun t ht => hintervals t (List.mem_append_left _ ht)
  rw [addAll_append, hearlier]
  show addAll ⟨earlier⟩ (t :: later) = _
  rw [addAll_cons, add_of_taken htaken]
  rfl

end Scheduler

/-! ## The tasks of settings -/

namespace ServiceTask

theorem name_job_injective : Function.Injective fun path => (job path).name :=
  fun _ _ h => (String.append_right_inj "job:").mp h

/-- No job has the name of the capture of metrics. -/
theorem name_captureMetrics_ne (retention : Nat) (path : String) :
    (captureMetrics retention).name ≠ (job path).name := by
  intro h
  have hchars := congrArg String.toList h
  simp [name] at hchars

end ServiceTask

namespace Settings

variable {settings : Settings}

/-- The names of the tasks: that of the capture of metrics if it is enabled, and those of the jobs. -/
theorem names_tasks (settings : Settings) :
    settings.tasks.map (·.name) =
      (if settings.schedulerOrDefault.enabled then
        [(ServiceTask.captureMetrics settings.schedulerOrDefault.metricsRetention).name] else []) ++
      (settings.jobs.map (·.path)).map fun path => (ServiceTask.job path).name := by
  rw [tasks, List.map_append, List.map_map, List.map_map]
  cases settings.schedulerOrDefault.enabled <;> rfl

/-- The capture of metrics is not among the jobs. -/
theorem name_captureMetrics_notMem (retention : Nat) (paths : List String) :
    (ServiceTask.captureMetrics retention).name ∉
      paths.map fun path => (ServiceTask.job path).name := by
  intro h
  obtain ⟨path, -, hname⟩ := List.mem_map.mp h
  exact ServiceTask.name_captureMetrics_ne retention path hname.symm

/-- Jobs with distinct paths are tasks with distinct names. -/
theorem nodup_names_tasks (h : (settings.jobs.map (·.path)).Nodup) :
    (settings.tasks.map (·.name)).Nodup := by
  have hjobs := h.map ServiceTask.name_job_injective
  rw [names_tasks]
  split
  · exact List.nodup_cons.mpr ⟨name_captureMetrics_notMem _ _, hjobs⟩
  · exact hjobs

/-- The first job that is listed again is the first task with a name that is taken. -/
theorem isFirstRepeat_names_tasks {path : String}
    (h : IsFirstRepeat (settings.jobs.map (·.path)) path) :
    IsFirstRepeat (settings.tasks.map (·.name)) (ServiceTask.job path).name := by
  have hjobs := h.map ServiceTask.name_job_injective
  rw [names_tasks]
  split
  · exact hjobs.cons (name_captureMetrics_notMem _ _)
  · exact hjobs

/-- No task of usable settings has an interval of zero. -/
theorem Usable.intervals (h : settings.Usable) :
    ∀ t ∈ settings.tasks, t.schedule.interval.nanos ≠ 0 := by
  have hspan {n : Nat} (hn : n ≠ 0) : (Duration.ofSeconds n).nanos ≠ 0 :=
    Nat.mul_ne_zero hn (by decide)
  refine List.forall_mem_append.mpr ⟨?_, List.forall_mem_map.mpr fun job hjob => ?_⟩
  · split
    · exact List.forall_mem_singleton.mpr (hspan h.scheduler)
    · exact List.forall_mem_nil _
  · exact hspan (h.jobs job hjob)

/-- Jobs with distinct paths are registered, all of them. -/
theorem Usable.taskScheduler_of_nodup (h : settings.Usable)
    (hpaths : (settings.jobs.map (·.path)).Nodup) :
    settings.taskScheduler = .ok ⟨settings.tasks⟩ :=
  Scheduler.addAll_of_nodup (nodup_names_tasks hpaths) h.intervals

/-- The first job that is listed again is refused. -/
theorem Usable.taskScheduler_of_repeat (h : settings.Usable) {path : String}
    (hpath : IsFirstRepeat (settings.jobs.map (·.path)) path) :
    settings.taskScheduler = .error (.duplicateTask ("job:" ++ path)) :=
  Scheduler.addAll_of_repeat (isFirstRepeat_names_tasks hpath) h.intervals

end Settings

/-- A scheduler that is filled by any calls, some of which may fail, has the tasks that it has
accepted, in their order, with distinct names and with intervals that are not zero. Another task is
refused exactly if its name is taken, which the error names first, or its interval is zero, and then
the scheduler stays as it was. So the tasks of settings that pass their check are all registered
exactly if no two jobs have the same path: the capture of metrics first, if it is enabled, and then
the jobs in their order. Otherwise the first job that repeats the path of an earlier one is refused. -/
theorem scheduler_registration :
    (∀ {α : Type} (ts : List (ScheduledTask α)),
      let results := ((Scheduler.empty : Scheduler α).adds ts).1
      let s := ((Scheduler.empty : Scheduler α).adds ts).2
      s.entries = Scheduler.accepted ts results ∧
      (s.entries.map (·.name)).Nodup ∧
      (∀ t ∈ s.entries, t.schedule.interval.nanos ≠ 0) ∧
      ∀ t,
        (t.name ∈ s.entries.map (·.name) →
          (Scheduler.addInPlace t).run.run s = (.error (.duplicateTask t.name), s)) ∧
        (t.name ∉ s.entries.map (·.name) → t.schedule.interval.nanos = 0 →
          (Scheduler.addInPlace t).run.run s =
            (.error (.invalidDefinition t.name .zeroInterval), s)) ∧
        (t.name ∉ s.entries.map (·.name) → t.schedule.interval.nanos ≠ 0 →
          (Scheduler.addInPlace t).run.run s = (.ok (), ⟨s.entries ++ [t]⟩))) ∧
    ∀ settings : Settings, settings.checked = .ok settings →
      let scheduling := settings.schedulerOrDefault
      let paths := settings.jobs.map (·.path)
      ((∃ s, settings.taskScheduler = .ok s) ↔ paths.Nodup) ∧
      (¬ paths.Nodup → ∃ path, IsFirstRepeat paths path ∧
        settings.taskScheduler = .error (.duplicateTask ("job:" ++ path))) ∧
      ∀ s, settings.taskScheduler = .ok s → s.entries =
        (if scheduling.enabled then
          [⟨"metrics-capture", ⟨.ofSeconds scheduling.metricsIntervalSeconds, ⟨0⟩⟩,
            .captureMetrics scheduling.metricsRetention⟩] else []) ++
        settings.jobs.map fun job =>
          ⟨"job:" ++ job.path,
            ⟨.ofSeconds job.intervalSeconds, .ofSeconds job.initialDelaySeconds⟩, .job job.path⟩ := by
  constructor
  · intro α ts results s
    have hs : s.WellFormed := Scheduler.wellFormed_empty.adds ts
    refine ⟨Scheduler.entries_adds _ ts, hs.names, hs.intervals, fun t => ⟨?_, ?_, ?_⟩⟩
    · intro htaken
      rw [Scheduler.run_addInPlace, Scheduler.add_of_taken htaken]
    · intro hfree hzero
      rw [Scheduler.run_addInPlace, Scheduler.add_of_zero hfree hzero]
    · intro hfree hinterval
      rw [Scheduler.run_addInPlace, Scheduler.add_of_free hfree hinterval]
  · intro settings hchecked scheduling paths
    have husable : settings.Usable := Settings.checked_eq_ok_iff.mp hchecked
    have hrepeated (h : ¬ paths.Nodup) : ∃ path, IsFirstRepeat paths path ∧
        settings.taskScheduler = .error (.duplicateTask ("job:" ++ path)) := by
      obtain ⟨path, hpath⟩ := exists_isFirstRepeat h
      exact ⟨path, hpath, husable.taskScheduler_of_repeat hpath⟩
    have hdistinct {s : Scheduler ServiceTask} (h : settings.taskScheduler = .ok s) : paths.Nodup := by
      by_contra hpaths
      obtain ⟨path, -, herror⟩ := hrepeated hpaths
      rw [herror] at h
      cases h
    refine ⟨⟨fun ⟨s, h⟩ => hdistinct h, fun h => ⟨_, husable.taskScheduler_of_nodup h⟩⟩, hrepeated,
      fun s h => ?_⟩
    rw [husable.taskScheduler_of_nodup (hdistinct h)] at h
    cases h
    rfl

/-- Settings that list scheduled jobs and leave out everything else. -/
def listingJobs (jobs : List JobSchedule) : Settings :=
  { Settings.empty with jobs }

/-- Jobs are registered whatever their schedules, unless one is listed twice. -/
theorem scheduler_registration_of_jobs :
    (∃ s, (listingJobs [⟨"a", 60, 0⟩, ⟨"b", 60, 5⟩]).taskScheduler = .ok s ∧ s.entries.length = 3) ∧
    ∃ path, IsFirstRepeat ["a", "b", "a"] path ∧
      (listingJobs [⟨"a", 60, 0⟩, ⟨"b", 60, 5⟩, ⟨"a", 1, 0⟩]).taskScheduler =
        .error (.duplicateTask ("job:" ++ path)) := by
  constructor
  · obtain ⟨hok, -, hentries⟩ :=
      scheduler_registration.2 (listingJobs [⟨"a", 60, 0⟩, ⟨"b", 60, 5⟩]) rfl
    obtain ⟨s, hs⟩ := hok.mpr (by decide)
    exact ⟨s, hs, by rw [hentries s hs]; rfl⟩
  · exact (scheduler_registration.2 (listingJobs [⟨"a", 60, 0⟩, ⟨"b", 60, 5⟩, ⟨"a", 1, 0⟩]) rfl).2.1
      (by decide)

end ScriptHost
