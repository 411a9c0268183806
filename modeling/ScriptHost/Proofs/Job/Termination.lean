import Mathlib.Algebra.Group.Nat.Defs
import Mathlib.Logic.Relation
import ScriptHost.Proofs.Job.Flattening
import ScriptHost.Proofs.Job.Rules

/-!
# Executing jobs ends

Jobs may name each other in any way, also in circles. Executing a request still comes to an end,
after dispatching requests that are all at most `maxJobDepth` deep: `Service.execute_ends`. Where no
engine changes the resources, their number is bounded by the steps of the jobs and the depth that is
left, and a job that leads back to itself fails.
-/

namespace ScriptHost

variable {registry : Registry Engine}

/-- A job has a step that asks for another job. -/
def Nests (registry : Registry Engine) (w : World) (key below : String) : Prop :=
  ∃ job step, w.definitionAt key = .ok job ∧ step ∈ job.steps ∧
    registry.isJob step.engine = true ∧ w.resolved step.path = .ok below

/-- Outside of jobs, the engines of a registry leave the resources and the log as they are, as long
as the resources are those of a world. -/
def Registry.KeepsResources (registry : Registry Engine) (world : World) : Prop :=
  ∀ (request : Request) (names : EngineNames) (run : Request → WorldM Output),
    registry.lookup request.engine = .ok (names, .script run) → ∀ w, world.SameResources w →
      world.SameResources ((run request).run.run w).2 ∧ ((run request).run.run w).2.log = w.log

/-- Engines that behave as a function keep the resources. -/
theorem Registry.Behaves.keepsResources {behave : ScriptCall → Except Error Output} {world : World}
    (h : registry.Behaves behave world) : registry.KeepsResources world :=
  fun request names run hlookup w hw => (h.script request names run hlookup w hw).2

namespace World.SameResources

variable {world w : World}

theorem resolved_eq (h : world.SameResources w) (path : String) :
    w.resolved path = world.resolved path := by
  simp only [resolved, (h _).2]

theorem definitionAt_eq (h : world.SameResources w) (key : String) :
    w.definitionAt key = world.definitionAt key := by
  rw [definitionAt, definitionAt, (h key).1]

end World.SameResources

/-- A request is one level below one of some requests, which is not too deep for a job. -/
def Request.OneBelow (r : Request) (parents : List Request) : Prop :=
  ∃ parent ∈ parents, parent.depth < maxJobDepth ∧ r.depth = parent.depth + 1

theorem Request.OneBelow.mono {r : Request} {parents others : List Request}
    (h : r.OneBelow parents) (hsubset : parents ⊆ others) : r.OneBelow others := by
  obtain ⟨parent, hparent, hdepth⟩ := h
  exact ⟨parent, hsubset hparent, hdepth⟩

/-- Where the requests that an activity dispatches come from: all but a first one are for steps. -/
def Activity.Descends : Activity → List Request → Prop
  | .request r, requests => ∃ rest, requests = r :: rest ∧ ∀ q ∈ rest, q.OneBelow requests
  | .steps r .., requests => r.depth < maxJobDepth → ∀ q ∈ requests, q.OneBelow (r :: requests)

/-- How many requests a job may lead to, where jobs have a number of steps at most and there are
some levels left: one for each step, and what that leads to. -/
def stepsBelow (width : Nat) : Nat → Nat
  | 0 => 0
  | levels + 1 => width * (1 + stepsBelow width levels)

/-- How many requests an activity may dispatch. -/
def Activity.Within (width : Nat) : Activity → Nat → Prop
  | .request r, count => count ≤ 1 + stepsBelow width (maxJobDepth - r.depth)
  | .steps r rest _, count =>
    count ≤ rest.length * (1 + stepsBelow width (maxJobDepth - (r.depth + 1)))

/-- A token and a path ask for a job that has itself among its direct or transitive job steps. -/
def Registry.Circular (registry : Registry Engine) (w : World) (engine path : String) : Prop :=
  registry.isJob engine = true ∧
    ∃ key, w.resolved path = .ok key ∧ Relation.TransGen (Nests registry w) key key

/-- A job that leads back to itself has a step that does. -/
theorem Nests.circular {w : World} {key : String} {job : JobDefinition}
    (h : Relation.TransGen (Nests registry w) key key) (hjob : w.definitionAt key = .ok job) :
    ∃ step ∈ job.steps, registry.Circular w step.engine step.path := by
  obtain ⟨below, ⟨found, step, hfound, hstep, htoken, hbelow⟩, hback⟩ :=
    Relation.TransGen.head'_iff.mp h
  obtain rfl : found = job := Except.ok.inj (hfound.symm.trans hjob)
  exact ⟨step, hstep, htoken, below, hbelow,
    .tail' hback ⟨found, step, hfound, hstep, htoken, hbelow⟩⟩

/-- An activity that comes to a job that leads back to itself. -/
def Activity.Circular (registry : Registry Engine) (w : World) : Activity → Prop
  | .request r => registry.Circular w r.engine r.path
  | .steps _ rest _ => ∃ step ∈ rest, registry.Circular w step.engine step.path

section Running

variable {activity : Activity} {w after world : World} {result : Except Error Output}
  {requests : List Request}

/-- Every request but the first is for a step of another one, whose job is not nested too deep. -/
theorem Proceeds.descends (h : Proceeds registry activity w result after requests) :
    activity.Descends requests := by
  induction h with
  | unknown | script | refused => exact ⟨[], rfl, fun _ hq => absurd hq List.not_mem_nil⟩
  | job _ hopen _ ih =>
      obtain ⟨_, _, _, hdepth, _⟩ := World.openJob_eq_ok hopen
      exact ⟨_, rfl, ih hdepth⟩
  | done => exact fun _ _ hq => absurd hq List.not_mem_nil
  | @failed request w _ step _ _ _ _ _ ih =>
      obtain ⟨rest, rfl, hrest⟩ := ih
      intro hdepth q hq
      rcases List.mem_cons.mp hq with rfl | hq
      · exact ⟨request, List.mem_cons_self, hdepth, rfl⟩
      · exact (hrest q hq).mono (List.subset_cons_self ..)
  | @next request w _ _ step _ _ _ _ _ others _ _ ihstep ihrest =>
      obtain ⟨rest, rfl, hrest⟩ := ihstep
      intro hdepth q hq
      rcases List.mem_append.mp hq with hq | hq
      · rcases List.mem_cons.mp hq with rfl | hq
        · exact ⟨request, List.mem_cons_self, hdepth, rfl⟩
        · exact (hrest q hq).mono (List.subset_cons_of_subset _ (List.subset_append_left _ _))
      · exact (ihrest hdepth q hq).mono (List.cons_subset_cons _ (List.subset_append_right _ _))

/-- Running keeps the resources, and logs the requests that are dispatched. -/
theorem Proceeds.kept (h : Proceeds registry activity w result after requests)
    (hkeeps : registry.KeepsResources world) (hw : world.SameResources w) :
    world.SameResources after ∧ after.log = w.log ++ requests := by
  induction h with
  | unknown | refused => exact ⟨hw, rfl⟩
  | @script request w after names run result hlookup hrun =>
      obtain ⟨hresources, hlog⟩ := hkeeps request names run hlookup (w.logging request) hw
      rw [hrun] at hresources hlog
      exact ⟨hresources, hlog⟩
  | @job request w after _ _ _ requests _ _ _ ih =>
      obtain ⟨hresources, hlog⟩ := ih hw
      refine ⟨hresources, ?_⟩
      show after.log = w.log ++ (request :: requests)
      rw [hlog, World.logging, List.append_assoc, List.singleton_append]
  | done => exact ⟨hw, (List.append_nil _).symm⟩
  | failed _ ih => exact ih hw
  | next _ _ ihstep ihrest =>
      obtain ⟨hresources, hlog⟩ := ihstep hw
      obtain ⟨hresources, hmore⟩ := ihrest hresources
      rw [hmore, hlog, List.append_assoc]
      exact ⟨hresources, rfl⟩

/-- The number of requests is bounded by the numbers of steps and the levels that are left. -/
theorem Proceeds.within (h : Proceeds registry activity w result after requests)
    (hkeeps : registry.KeepsResources world) (hw : world.SameResources w) {width : Nat}
    (hwidth : ∀ key job, world.definitionAt key = .ok job → job.steps.length ≤ width) :
    activity.Within width requests.length := by
  induction h with
  | unknown | script | refused => exact Nat.le_add_right 1 _
  | @job request w after _ steps _ requests _ hopen _ ih =>
      obtain ⟨key, job, _, hdepth, hjob, rfl⟩ := World.openJob_eq_ok hopen
      have hlogging : world.SameResources (w.logging request) := hw
      have hsteps : job.steps.length ≤ width :=
        hwidth key job ((hlogging.definitionAt_eq key).symm.trans hjob)
      obtain ⟨levels, hlevels⟩ : ∃ levels, maxJobDepth - request.depth = levels + 1 :=
        ⟨maxJobDepth - request.depth - 1, by omega⟩
      have hbelow : requests.length ≤
          job.steps.length * (1 + stepsBelow width (maxJobDepth - (request.depth + 1))) :=
        ih hlogging
      rw [show maxJobDepth - (request.depth + 1) = levels by omega] at hbelow
      show requests.length + 1 ≤ 1 + stepsBelow width (maxJobDepth - request.depth)
      rw [hlevels, stepsBelow, Nat.add_comm]
      exact Nat.add_le_add_left (Nat.le_trans hbelow (Nat.mul_le_mul_right _ hsteps)) 1
  | done => exact Nat.zero_le _
  | @failed request w _ step rest _ _ requests _ ih =>
      have hstep : requests.length ≤ 1 + stepsBelow width (maxJobDepth - (request.depth + 1)) :=
        ih hw
      show requests.length ≤ (rest.length + 1) * _
      rw [Nat.succ_mul]
      exact Nat.le_trans hstep (Nat.le_add_left _ _)
  | @next request w _ _ step rest _ _ _ requests others hstep _ ihstep ihrest =>
      have hfirst : requests.length ≤ 1 + stepsBelow width (maxJobDepth - (request.depth + 1)) :=
        ihstep hw
      have hothers : others.length ≤
          rest.length * (1 + stepsBelow width (maxJobDepth - (request.depth + 1))) :=
        ihrest (hstep.kept hkeeps hw).1
      show (requests ++ others).length ≤ (rest.length + 1) * _
      rw [List.length_append, Nat.succ_mul, Nat.add_comm]
      exact Nat.add_le_add hothers hfirst

/-- What comes to a job that leads back to itself fails. -/
theorem Proceeds.circular_fails (h : Proceeds registry activity w result after requests)
    (hkeeps : registry.KeepsResources world) (hw : world.SameResources w)
    (hcircular : activity.Circular registry world) : ∃ e, result = .error e := by
  induction h with
  | unknown | refused | failed => exact ⟨_, rfl⟩
  | script hlookup =>
      obtain ⟨htoken, _⟩ := hcircular
      simp [Registry.isJob, hlookup] at htoken
  | @job request w _ _ _ _ _ _ hopen _ ih =>
      obtain ⟨_, key, hkey, hback⟩ := hcircular
      obtain ⟨opened, job, hopened, _, hjob, rfl⟩ := World.openJob_eq_ok hopen
      have hlogging : world.SameResources (w.logging request) := hw
      rw [hlogging.resolved_eq, hkey] at hopened
      obtain rfl : key = opened := Except.ok.inj hopened
      rw [hlogging.definitionAt_eq] at hjob
      exact ih hlogging (Nests.circular hback hjob)
  | done =>
      obtain ⟨_, hstep, _⟩ := hcircular
      exact absurd hstep List.not_mem_nil
  | next hstep _ ihstep ihrest =>
      obtain ⟨step, hmem, hstepCircular⟩ := hcircular
      rcases List.mem_cons.mp hmem with rfl | hmem
      · obtain ⟨e, he⟩ := ihstep hw hstepCircular
        cases he
      · exact ihrest (hstep.kept hkeeps hw).1 ⟨step, hmem, hstepCircular⟩

end Running

/-- Executing a request ends: it has a run, and no other. All requests that are dispatched on the
way are for steps of jobs that are not nested too deep. Where the resources are kept, the log shows
these requests, there are no more of them than the steps of jobs and the levels that are left allow,
and a job that leads back to itself fails, whatever the depth and the parameters. -/
theorem Service.execute_ends (s : Service) (request : Request) :
    ∃ requests,
      Proceeds s.registry (.request request) s.world (s.execute request).1
        (s.execute request).2.world (request :: requests) ∧
      (∀ result after others, Proceeds s.registry (.request request) s.world result after others →
        result = (s.execute request).1 ∧ after = (s.execute request).2.world ∧
          others = request :: requests) ∧
      (∀ r ∈ requests, r.depth ≤ maxJobDepth ∧ r.depth < 2 ^ 32 ∧
        ∃ parent ∈ request :: requests, parent.depth < maxJobDepth ∧ r.depth = parent.depth + 1) ∧
      (s.registry.KeepsResources s.world →
        (s.execute request).2.world.log = s.world.log ++ request :: requests ∧
        (∀ width,
          (∀ key job, s.world.definitionAt key = .ok job → job.steps.length ≤ width) →
          requests.length ≤ stepsBelow width (maxJobDepth - request.depth)) ∧
        (s.registry.isJob request.engine = true → ∀ key, s.world.resolved request.path = .ok key →
          Relation.TransGen (Nests s.registry s.world) key key →
          ∃ e, (s.execute request).1 = .error e)) := by
  obtain ⟨dispatched, hrun⟩ := proceeds_execute request s.world
  obtain ⟨requests, rfl, hbelow⟩ := hrun.descends
  refine ⟨requests, hrun, fun result after others hother => hother.unique hrun, ?_, ?_⟩
  · intro r hr
    obtain ⟨parent, hparent, hdepth, hr⟩ := hbelow r hr
    have hmax : maxJobDepth < 2 ^ 32 := by decide
    exact ⟨by omega, by omega, parent, hparent, hdepth, hr⟩
  · intro hkeeps
    have hsame := World.SameResources.refl s.world
    refine ⟨(hrun.kept hkeeps hsame).2, fun width hwidth => ?_, ?_⟩
    · have hcount : requests.length + 1 ≤ 1 + stepsBelow width (maxJobDepth - request.depth) :=
        hrun.within hkeeps hsame hwidth
      omega
    · intro htoken key hkey hback
      exact hrun.circular_fails hkeeps hsame ⟨htoken, key, hkey, hback⟩

theorem World.resolved_eq_ok {w : World} {path key : String}
    (h : ResourcePath.normalize? path = some key)
    (hpresent : w.store.contains w.host.view key = true) : w.resolved path = .ok key := by
  rw [resolved, ResourceStore.key, h]
  exact if_pos hpresent

namespace CircularJobs

/-- Two jobs, each of which has the other one as a step. -/
def resources : Std.TreeMap String ByteArray :=
  .ofList [
    ("/ping", ("name='p'\nsteps=[\x7bname='a',engine='say',path='/a'\x7d," ++
      "\x7bname='q',engine='job',path='pong'\x7d]").toUTF8),
    ("/pong", "name='q'\nsteps=[\x7bname='p',engine='Job',path='.//ping'\x7d]".toUTF8)]

def world : World :=
  .new ⟨⟨.empty, []⟩, .empty, 0, 0⟩ (.memory resources) .inMemory

def request : Request :=
  ⟨"Job", "ping", .empty, .empty, none, Request.nilId, 3⟩

/-- The tokens and paths in the steps of the job with a key. -/
def targets? (key : String) : Option (List (String × String)) :=
  (world.definitionAt key).toOption.map fun job =>
    job.steps.map fun step => (step.engine, step.path)

theorem targets_eq :
    targets? "/ping" = some [("say", "/a"), ("job", "pong")] ∧
      targets? "/pong" = some [("Job", ".//ping")] := by
  decide +kernel

/-- A job among the targets of another is nested in it. -/
theorem nests_of_targets {registry : Registry Engine} {key engine path below : String}
    {targets : List (String × String)} (h : targets? key = some targets)
    (hmem : (engine, path) ∈ targets) (htoken : registry.isJob engine = true)
    (hbelow : world.resolved path = .ok below) : Nests registry world key below := by
  rw [targets?] at h
  cases hjob : world.definitionAt key with
  | error fault =>
      rw [hjob] at h
      cases h
  | ok job =>
      rw [hjob] at h
      obtain rfl := Option.some.inj h
      obtain ⟨step, hstep, htarget⟩ := List.mem_map.mp hmem
      obtain ⟨rfl, rfl⟩ := Prod.mk.inj htarget
      exact ⟨job, step, hjob, hstep, htoken, hbelow⟩

/-- The paths of the requests lead to the two jobs. -/
theorem resolved_eq_jobs :
    world.resolved "ping" = .ok "/ping" ∧ world.resolved "pong" = .ok "/pong" ∧
      world.resolved ".//ping" = .ok "/ping" := by
  have hpresent : (world.store.contains world.host.view "/ping" &&
      world.store.contains world.host.view "/pong") = true := by
    decide +kernel
  obtain ⟨hping, hpong⟩ := Bool.and_eq_true_iff.mp hpresent
  have hkeys : ResourcePath.normalize? "ping" = some "/ping" ∧
      ResourcePath.normalize? "pong" = some "/pong" ∧
      ResourcePath.normalize? ".//ping" = some "/ping" := by
    decide +kernel
  exact ⟨World.resolved_eq_ok hkeys.1 hping, World.resolved_eq_ok hkeys.2.1 hpong,
    World.resolved_eq_ok hkeys.2.2 hping⟩

/-- Each job is nested in the other one, which its step spells in another way. -/
theorem ping_circular {registry : Registry Engine} (hjob : registry.isJob "job" = true)
    (hJob : registry.isJob "Job" = true) :
    Relation.TransGen (Nests registry world) "/ping" "/ping" := by
  obtain ⟨hping, hpong⟩ := targets_eq
  obtain ⟨-, hdown, hup⟩ := resolved_eq_jobs
  exact (Relation.TransGen.single (nests_of_targets hping (by decide) hjob hdown)).tail
    (nests_of_targets hpong (by decide) hJob hup)

/-- No job has more than two steps. -/
theorem steps_length_le (key : String) (job : JobDefinition)
    (h : world.definitionAt key = .ok job) : job.steps.length ≤ 2 := by
  have hall : ∀ entry ∈ resources.toList,
      ((Toml.read? (Text.lossy entry.2)).bind JobDefinition.decode).all
        (·.steps.length ≤ 2) = true := by
    decide +kernel
  rw [World.definitionAt] at h
  split at h
  · cases h
  · rename_i resource hread
    obtain ⟨normal, content, _, hcontent, rfl⟩ := ResourceStore.read_memory hread
    have hsteps := hall _ (Std.TreeMap.mem_toList_iff_getElem?_eq_some.mpr hcontent)
    rw [JobDefinition.parse] at h
    split at h
    · rename_i found hfound
      split at h
      · cases h
      · obtain rfl : found = job := Except.ok.inj h
        rw [show (Resource.new normal content).text = Text.lossy content from rfl] at hfound
        rw [hfound] at hsteps
        exact of_decide_eq_true hsteps
    · cases h

/-- The job leads back to itself, so it fails; it was asked for at depth three, which leaves five
levels. -/
theorem ping_ends : ∃ s, Service.ofEngines world NestedJobs.engines = .ok s ∧
    s.registry.KeepsResources s.world ∧ s.registry.isJob request.engine = true ∧
    s.world.resolved request.path = .ok "/ping" ∧
    Relation.TransGen (Nests s.registry s.world) "/ping" "/ping" ∧
    (∀ key job, s.world.definitionAt key = .ok job → job.steps.length ≤ 2) ∧
    ∃ requests e, (s.execute request).1 = .error e ∧
      (s.execute request).2.world.log = request :: requests ∧
      (∀ r ∈ requests, r.depth ≤ maxJobDepth) ∧ requests.length ≤ 62 := by
  obtain ⟨s, hs, hworld, hentries, hjob, hJob⟩ :
      ∃ s, Service.ofEngines world NestedJobs.engines = .ok s ∧ s.world = world ∧
        s.registry.entries = NestedJobs.engines ∧
        s.registry.isJob "job" = true ∧ s.registry.isJob "Job" = true :=
    ⟨_, rfl, rfl, rfl, by decide, by decide⟩
  have hkeeps : s.registry.KeepsResources s.world :=
    (NestedJobs.behaves_engines hentries s.world).keepsResources
  have hping : s.world.resolved request.path = .ok "/ping" := hworld ▸ resolved_eq_jobs.1
  have hback : Relation.TransGen (Nests s.registry s.world) "/ping" "/ping" :=
    hworld ▸ ping_circular hjob hJob
  have hwidth : ∀ key job, s.world.definitionAt key = .ok job → job.steps.length ≤ 2 :=
    hworld ▸ steps_length_le
  obtain ⟨requests, -, -, hdepths, hkept⟩ := Service.execute_ends s request
  obtain ⟨hlog, hcount, hfails⟩ := hkept hkeeps
  obtain ⟨e, he⟩ := hfails hJob "/ping" hping hback
  refine ⟨s, hs, hkeeps, hJob, hping, hback, hwidth, requests, e, he, ?_,
    fun r hr => (hdepths r hr).1, hcount 2 hwidth⟩
  rw [hlog, hworld]
  rfl

end CircularJobs

end ScriptHost
