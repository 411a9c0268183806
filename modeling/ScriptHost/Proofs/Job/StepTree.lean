import ScriptHost.Proofs.Engine.Dispatch

/-!
# Jobs as trees of steps

The steps of a job form a tree when every step that names another job is opened into the steps of
that job. `StepTree.calls` lists the other steps of such a tree from left to right, each with the
parameters that reach it: those of the request, overlaid with the parameters of the steps above it.
`Unfolds` says that a tree is the one of some steps in a world.
-/

namespace ScriptHost

/-- What the engine of a step is told: its token, the path, and the variables. -/
structure ScriptCall where
  engine : String
  path : String
  params : Variables
  environment : Variables

/-- What an engine is told by a request, its id, depth and breakpoints aside. -/
def Request.call (r : Request) : ScriptCall :=
  ⟨r.engine, r.path, r.params, r.environment⟩

/-- The steps of a job; a step that names a job has the tree of that job. -/
inductive StepTree where
  | done
  | call (step : JobStep) (rest : StepTree)
  | nest (step : JobStep) (inner rest : StepTree)

namespace StepTree

/-- How many jobs are nested in one another below the steps. -/
def depth : StepTree → Nat
  | done => 0
  | call _ rest => rest.depth
  | nest _ inner rest => max (inner.depth + 1) rest.depth

/-- The steps that name no job, depth first and from left to right. The parameters of a step stand
above those of the job it is a step of. -/
def calls (environment : Variables) : StepTree → Variables → List ScriptCall
  | done, _ => []
  | call step rest, params =>
    ⟨step.engine, step.path, params.overlaidBy step.params, environment⟩ ::
      rest.calls environment params
  | nest step inner rest, params =>
    inner.calls environment (params.overlaidBy step.params) ++ rest.calls environment params

end StepTree

/-- Whether a token finds the job engine. -/
def Registry.isJob (registry : Registry Engine) (token : String) : Bool :=
  match registry.lookup token with
  | .ok (_, .job) => true
  | _ => false

/-- The job at a path, if there is a resource that holds one. -/
def World.jobAt (w : World) (path : String) : Except Error JobDefinition :=
  match w.resolved path with
  | .error fault => .error fault
  | .ok key =>
    match w.store.read w.host.view key with
    | .error fault => .error (.store fault)
    | .ok resource => JobDefinition.parse key resource.text

/-- The job that the resource with a key holds. -/
def World.definitionAt (w : World) (key : String) : Except Error JobDefinition :=
  match w.store.read w.host.view key with
  | .error fault => .error (.store fault)
  | .ok resource => JobDefinition.parse key resource.text

theorem World.jobAt_of_resolved {w : World} {path key : String} (h : w.resolved path = .ok key) :
    w.jobAt path = w.definitionAt key := by
  rw [jobAt, h]
  rfl

/-- Steps have a tree when every job that they name, and every job that its steps name in turn, is
there and can be read. -/
inductive Unfolds (registry : Registry Engine) (w : World) : List JobStep → StepTree → Prop
  | done : Unfolds registry w [] .done
  | call {step : JobStep} {steps : List JobStep} {rest : StepTree}
      (htoken : registry.isJob step.engine = false) (hrest : Unfolds registry w steps rest) :
      Unfolds registry w (step :: steps) (.call step rest)
  | nest {step : JobStep} {steps : List JobStep} {job : JobDefinition} {inner rest : StepTree}
      (htoken : registry.isJob step.engine = true) (hjob : w.jobAt step.path = .ok job)
      (hinner : Unfolds registry w job.steps inner) (hrest : Unfolds registry w steps rest) :
      Unfolds registry w (step :: steps) (.nest step inner rest)

/-- Steps have one tree at most. -/
theorem Unfolds.unique {registry : Registry Engine} {w : World} {steps : List JobStep}
    {tree other : StepTree} (h : Unfolds registry w steps tree)
    (hother : Unfolds registry w steps other) : tree = other := by
  induction h generalizing other with
  | done =>
      cases hother
      rfl
  | call htoken _ ih =>
      cases hother with
      | call _ hrest => rw [ih hrest]
      | nest htoken' => simp [htoken] at htoken'
  | nest htoken hjob _ _ ihinner ihrest =>
      cases hother with
      | call htoken' => simp [htoken] at htoken'
      | nest _ hjob' hinner hrest =>
          rw [hjob, Except.ok.injEq] at hjob'
          subst hjob'
          rw [ihinner hinner, ihrest hrest]

namespace World

/-- Two worlds in which the same resources are found. -/
def SameResources (w v : World) : Prop :=
  ∀ path, v.store.read v.host.view path = w.store.read w.host.view path ∧
    v.store.contains v.host.view path = w.store.contains w.host.view path

variable {w v : World}

theorem SameResources.refl (w : World) : SameResources w w :=
  fun _ => ⟨rfl, rfl⟩

/-- Worlds with the same resources have the same jobs. -/
theorem SameResources.jobAt_eq (h : SameResources w v) (path : String) :
    v.jobAt path = w.jobAt path := by
  have hresolved : v.resolved path = w.resolved path := by
    simp only [resolved, (h _).2]
  simp only [jobAt, hresolved, (h _).1]

/-- What follows on resolving a path. -/
theorem run_resolveResource_bind (path : String) (job : String → WorldM Output) (w : World) :
    (resolveResource path >>= job).run.run w = match w.resolved path with
      | .error fault => (.error fault, w)
      | .ok key => (job key).run.run w := by
  rw [run_bind, run_resolveResource]
  cases w.resolved path <;> rfl

/-- Reading a job and running its steps. -/
theorem run_runJob (dispatch : Request → WorldM Output) (request : Request) (key : String)
    (w : World) :
    (runJob dispatch request key).run.run w = match w.definitionAt key with
      | .error fault => (.error fault, w)
      | .ok job => (runSteps dispatch request job.steps).run.run w := by
  rw [runJob, run_bind, run_readResource, definitionAt]
  cases w.store.read w.host.view key with
  | error fault => rfl
  | ok resource =>
      show ((MonadExcept.ofExcept (JobDefinition.parse key resource.text) >>= fun job =>
        runSteps dispatch request job.steps : WorldM Output).run.run w) = _
      rw [run_bind, run_ofExcept]
      cases hjob : JobDefinition.parse key resource.text <;> simp [hjob]

/-- A job that is there is resolved, read and run. -/
theorem run_job {dispatch : Request → WorldM Output} {request : Request} {job : JobDefinition}
    (h : w.jobAt request.path = .ok job) :
    (resolveResource request.path >>= runJob dispatch request).run.run w =
      (runSteps dispatch request job.steps).run.run w := by
  rw [run_resolveResource_bind]
  cases hkey : w.resolved request.path with
  | error fault =>
      rw [jobAt, hkey] at h
      cases h
  | ok key =>
      rw [jobAt_of_resolved hkey] at h
      simp only [run_runJob, h]

end World

end ScriptHost
