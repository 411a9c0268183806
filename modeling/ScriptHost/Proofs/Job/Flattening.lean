import ScriptHost.Proofs.Engine.Registry
import ScriptHost.Proofs.Environment
import ScriptHost.Proofs.Job.StepTree
import ScriptHost.Proofs.World.Simulation
import ScriptHost.Service.Basic

/-!
# Nested jobs mean their flattening

Where the engines other than the job engine are functions of what they are told, executing a job
makes the calls of its tree one after another, up to the first that fails:
`Service.execute_flattened`. No job in between adds to the outputs or changes the error, and the log
shows no request after the failing one. `Performs` says what a computation does in terms of such
calls, and `Performs.bind` puts two of them together; the proof is an induction on the tree.
-/

namespace ScriptHost

/-- Outputs put together: the texts in order, and nothing else. -/
def Output.total (outputs : List Output) : Output :=
  ⟨.join (outputs.map (·.stdout)), .join (outputs.map (·.stderr)), 0,
    .join (outputs.map (·.warnings)), none⟩

theorem Output.total_append (outputs : List Output) (output : Output) :
    (total outputs).append output = total (outputs ++ [output]) := by
  simp [append, total, String.join_append]

theorem Output.append_total (outputs more : List Output) :
    (total outputs).append (total more) = total (outputs ++ more) := by
  simp [append, total, String.join_append]

/-- Outside of jobs, the engines of a registry behave as a function of what they are told says: as
long as the resources are those of a world, they answer what it answers and leave the resources and
the log as they are. -/
structure Registry.Behaves (registry : Registry Engine) (behave : ScriptCall → Except Error Output)
    (world : World) : Prop where
  unknown : ∀ (request : Request) (fault : Error), registry.lookup request.engine = .error fault →
    behave request.call = .error fault
  script : ∀ (request : Request) (names : EngineNames) (run : Request → WorldM Output),
    registry.lookup request.engine = .ok (names, .script run) →
    ∀ w, world.SameResources w →
      ((run request).run.run w).1 = behave request.call ∧
      world.SameResources ((run request).run.run w).2 ∧
      ((run request).run.run w).2.log = w.log

/-- The calls among requests: those that name no job. -/
def Registry.scriptCalls (registry : Registry Engine) (requests : List Request) : List ScriptCall :=
  (requests.filter fun r => !registry.isJob r.engine).map Request.call

/-- Calls that are made in order, the requests that make them, and what comes of it: all outputs, or
the error of the first call that fails, whose request is the last one. -/
inductive Performed (registry : Registry Engine) (behave : ScriptCall → Except Error Output) :
    List ScriptCall → List Request → Except Error (List Output) → Prop
  | all {calls : List ScriptCall} {requests : List Request} {outputs : List Output}
      (hcalls : calls.map behave = outputs.map .ok)
      (hrequests : registry.scriptCalls requests = calls) :
      Performed registry behave calls requests (.ok outputs)
  | failed {before rest : List ScriptCall} {requests : List Request} {last : Request} {e : Error}
      (hbefore : ∀ c ∈ before, ∃ output, behave c = .ok output)
      (hcall : behave last.call = .error e)
      (hrequests : registry.scriptCalls requests = before)
      (hlast : registry.isJob last.engine = false) :
      Performed registry behave (before ++ last.call :: rest) (requests ++ [last]) (.error e)

section Performing

variable {α β : Type} {registry : Registry Engine} {behave : ScriptCall → Except Error Output}
  {world : World} {calls more : List ScriptCall} {requests others : List Request}
  {outputs : List Output} {result : Except Error (List Output)}

theorem Registry.scriptCalls_append (requests others : List Request) :
    registry.scriptCalls (requests ++ others) =
      registry.scriptCalls requests ++ registry.scriptCalls others := by
  simp [scriptCalls]

theorem Registry.scriptCalls_job {request : Request} (h : registry.isJob request.engine = true)
    (requests : List Request) :
    registry.scriptCalls (request :: requests) = registry.scriptCalls requests := by
  simp [scriptCalls, h]

theorem Registry.scriptCalls_script {request : Request}
    (h : registry.isJob request.engine = false) (requests : List Request) :
    registry.scriptCalls (request :: requests) = request.call :: registry.scriptCalls requests := by
  simp [scriptCalls, h]

/-- One call that names no job. -/
theorem performed_call {request : Request} (h : registry.isJob request.engine = false) :
    Performed registry behave [request.call] [request] ((behave request.call).map ([·])) := by
  cases hcall : behave request.call with
  | error e =>
      show Performed registry behave ([] ++ request.call :: []) ([] ++ [request]) (.error e)
      exact .failed (fun _ hmem => absurd hmem List.not_mem_nil) hcall rfl h
  | ok output => exact .all (by simp [hcall]) (registry.scriptCalls_script h [])

/-- A request for a job in front of the calls is none of them. -/
theorem Performed.job (h : Performed registry behave calls requests result) {request : Request}
    (hjob : registry.isJob request.engine = true) :
    Performed registry behave calls (request :: requests) result := by
  cases h with
  | all hcalls hrequests =>
      exact .all hcalls ((registry.scriptCalls_job hjob requests).trans hrequests)
  | failed hbefore hcall hrequests hlast =>
      rw [← List.cons_append]
      exact .failed hbefore hcall ((registry.scriptCalls_job hjob _).trans hrequests) hlast

/-- No call is made after one that fails. -/
theorem Performed.stop {e : Error} (h : Performed registry behave calls requests (.error e))
    (more : List ScriptCall) : Performed registry behave (calls ++ more) requests (.error e) := by
  cases h with
  | failed hbefore hcall hrequests hlast =>
      rw [List.append_assoc, List.cons_append]
      exact .failed hbefore hcall hrequests hlast

/-- After calls that all succeed come the next ones. -/
theorem Performed.append (h : Performed registry behave calls requests (.ok outputs))
    (hmore : Performed registry behave more others result) :
    Performed registry behave (calls ++ more) (requests ++ others)
      (result.map (outputs ++ ·)) := by
  obtain ⟨hcalls, hrequests⟩ : calls.map behave = outputs.map .ok ∧
      registry.scriptCalls requests = calls := by
    cases h with
    | all hcalls hrequests => exact ⟨hcalls, hrequests⟩
  cases hmore with
  | all hmore hothers =>
      refine .all ?_ (by rw [Registry.scriptCalls_append, hrequests, hothers])
      rw [List.map_append, List.map_append, hcalls, hmore]
  | failed hbefore hcall hothers hlast =>
      rw [← List.append_assoc, ← List.append_assoc]
      refine .failed (fun c hc => ?_) hcall
        (by rw [Registry.scriptCalls_append, hrequests, hothers]) hlast
      rcases List.mem_append.mp hc with hc | hc
      · have hmem : behave c ∈ outputs.map (Except.ok (ε := Error)) :=
          hcalls ▸ List.mem_map_of_mem hc
        obtain ⟨output, _, houtput⟩ := List.mem_map.mp hmem
        exact ⟨output, houtput.symm⟩
      · exact hbefore c hc

/-- From a world with the same resources, a computation makes calls and does nothing else: it gives
a value that is in a relation to their outputs, or the error that ends them, and logs the requests
that make them. -/
def Performs (registry : Registry Engine) (behave : ScriptCall → Except Error Output)
    (world : World) (calls : List ScriptCall) (P : List Output → α → Prop) (x : WorldM α) : Prop :=
  ∀ w, world.SameResources w → ∃ requests result,
    Performed registry behave calls requests result ∧
    World.Agree P result (x.run.run w).1 ∧
    world.SameResources (x.run.run w).2 ∧
    (x.run.run w).2.log = w.log ++ requests

variable {P : List Output → α → Prop} {Q : List Output → β → Prop}

theorem performs_pure {a : α} (h : P [] a) : Performs registry behave world [] P (pure a) := by
  intro w hw
  refine ⟨[], .ok [], .all rfl rfl, .ok h, hw, ?_⟩
  rw [World.run_pure, List.append_nil]

/-- The calls of two computations, one after the other. -/
theorem Performs.bind {x : WorldM α} {f : α → WorldM β}
    (hx : Performs registry behave world calls P x)
    (hf : ∀ outputs a, P outputs a →
      Performs registry behave world more (fun others => Q (outputs ++ others)) (f a)) :
    Performs registry behave world (calls ++ more) Q (x >>= f) := by
  intro w hw
  obtain ⟨requests, result, hperformed, hagree, hresources, hlog⟩ := hx w hw
  rcases hrun : x.run.run w with ⟨r, after⟩
  rw [hrun] at hagree hresources hlog
  cases hagree with
  | error e =>
      rw [World.run_bind_error hrun]
      exact ⟨requests, .error e, hperformed.stop more, .error e, hresources, hlog⟩
  | @ok outputs a ha =>
      rw [World.run_bind_ok hrun]
      obtain ⟨others, rest, hothers, hnext, hafter, hmore⟩ := hf outputs a ha after hresources
      refine ⟨requests ++ others, rest.map (outputs ++ ·), hperformed.append hothers,
        hnext.map_left, hafter, ?_⟩
      rw [hmore, hlog, List.append_assoc]

/-- What an engine outside of jobs does is its call. -/
theorem performs_script (hbehaves : registry.Behaves behave world) {request : Request}
    (h : registry.isJob request.engine = false) (job : String → WorldM Output) :
    Performs registry behave world [request.call] (fun outputs output => outputs = [output])
      (attempt registry request job) := by
  intro w hw
  refine ⟨[request], (behave request.call).map ([·]), performed_call h, ?_⟩
  cases hlookup : registry.lookup request.engine with
  | error fault =>
      rw [attempt_unknown hlookup, hbehaves.unknown request fault hlookup]
      exact ⟨.error fault, hw, rfl⟩
  | ok entry =>
      obtain ⟨names, engine⟩ := entry
      cases engine with
      | job => simp [Registry.isJob, hlookup] at h
      | script run =>
          obtain ⟨metrics, hrun⟩ := attempt_script hlookup job w
          obtain ⟨hresult, hresources, hlog⟩ :=
            hbehaves.script request names run hlookup (w.logging request) hw
          rw [hrun, hresult]
          refine ⟨?_, hresources, hlog⟩
          cases behave request.call with
          | error e => exact .error e
          | ok output => exact .ok rfl

/-- A step does what its request does. The request has the token, the path and the environment of
the step, and the parameters of the step above those of the job. -/
theorem performs_runStep {request : Request} {step : JobStep} {dispatch : Request → WorldM Output}
    {R : List Output → Output → Prop} (before : List Output)
    (hdispatch : ∀ next : Request, next.engine = step.engine → next.path = step.path →
      next.params = request.params.overlaidBy step.params →
      next.environment = request.environment →
      Performs registry behave world calls R (dispatch next))
    (happend : ∀ outputs output, R outputs output →
      (Output.total before).append output = .total (before ++ outputs)) :
    Performs registry behave world calls (fun outputs output => output = .total (before ++ outputs))
      (runStep dispatch request (.total before) step) := by
  intro w hw
  rw [runStep, World.run_bind_ok (run_stepRequest request step w), ← List.append_nil calls]
  have hnext := hdispatch { request.child step.engine step.path (Request.idOf w.nextId) with
    params := request.params.overlaidBy step.params } rfl rfl rfl rfl
  have hrest : ∀ outputs output, R outputs output → Performs registry behave world []
      (fun others total => total = .total (before ++ (outputs ++ others)))
      (pure ((Output.total before).append output)) :=
    fun outputs output houtput => performs_pure (by rw [List.append_nil, happend _ _ houtput])
  exact hnext.bind hrest { w with nextId := w.nextId + 1 } hw

/-- A job does what its steps do. -/
theorem performs_job {request : Request}
    (htoken : registry.isJob request.engine = true) {job : JobDefinition}
    (hjob : world.jobAt request.path = .ok job) {dispatch : Request → WorldM Output}
    {R : List Output → Output → Prop}
    (hsteps : Performs registry behave world calls R (runSteps dispatch request job.steps)) :
    Performs registry behave world calls R
      (attempt registry request (runJob dispatch request)) := by
  intro w hw
  obtain ⟨names, hlookup⟩ : ∃ names, registry.lookup request.engine = .ok (names, .job) := by
    rw [Registry.isJob] at htoken
    split at htoken
    · rename_i names hlookup
      exact ⟨names, hlookup⟩
    · cases htoken
  have hpresent : (w.logging request).jobAt request.path = .ok job := by
    rw [← hjob]
    exact World.SameResources.jobAt_eq hw request.path
  obtain ⟨metrics, hrun⟩ := attempt_job hlookup (runJob dispatch request) w
  obtain ⟨requests, result, hperformed, hagree, hresources, hlog⟩ :=
    hsteps (w.logging request) hw
  rw [hrun, World.run_job hpresent]
  refine ⟨request :: requests, result, hperformed.job htoken, hagree, hresources, ?_⟩
  show ((runSteps dispatch request job.steps).run.run (w.logging request)).2.log = _
  rw [hlog, World.logging, List.append_assoc, List.singleton_append]

/-- Steps make the calls of their tree, after the outputs that there are already. -/
theorem performs_steps (hbehaves : registry.Behaves behave world) {steps : List JobStep}
    {tree : StepTree} (htree : Unfolds registry world steps tree) (request : Request) {levels : Nat}
    (hdepth : tree.depth ≤ levels) (before : List Output) :
    Performs registry behave world (tree.calls request.environment request.params)
      (fun outputs output => output = .total (before ++ outputs))
      (steps.foldlM (runStep (dispatch registry levels) request) (.total before)) := by
  -- The steps of an inner job start over with no outputs, and with one level less.
  induction htree generalizing request levels before with
  | done => exact performs_pure (by rw [List.append_nil])
  | @call step steps rest htoken _ ih =>
      rw [List.foldlM_cons, StepTree.calls, ← List.singleton_append]
      refine (performs_runStep before (R := fun outputs output => outputs = [output]) ?_ ?_).bind ?_
      · intro next hengine hpath hparams henvironment
        have hcall : ⟨step.engine, step.path, request.params.overlaidBy step.params,
            request.environment⟩ = next.call := by
          rw [Request.call, hengine, hpath, hparams, henvironment]
        rw [hcall]
        cases levels with
        | zero => exact performs_script hbehaves (hengine ▸ htoken) _
        | succ levels => exact performs_script hbehaves (hengine ▸ htoken) _
      · rintro _ output rfl
        exact Output.total_append before output
      · rintro outputs _ rfl
        simpa only [List.append_assoc] using ih request hdepth (before ++ outputs)
  | @nest step steps job inner rest htoken hjob _ _ ihinner ihrest =>
      rw [StepTree.depth, Nat.max_le] at hdepth
      obtain ⟨levels, rfl⟩ : ∃ below, levels = below + 1 := ⟨levels - 1, by omega⟩
      rw [List.foldlM_cons, StepTree.calls]
      refine (performs_runStep before (R := fun outputs output => output = .total outputs)
        ?_ ?_).bind ?_
      · intro next hengine hpath hparams henvironment
        have hinner := ihinner next (Nat.le_of_succ_le_succ hdepth.1) []
        rw [hparams, henvironment] at hinner
        exact performs_job (hengine ▸ htoken) (hpath ▸ hjob) hinner
      · rintro outputs _ rfl
        exact Output.append_total before outputs
      · rintro outputs _ rfl
        simpa only [List.append_assoc] using ihrest request hdepth.2 (before ++ outputs)

end Performing

/-- What executing a job does, where the tree of its steps fits into the levels that the depth of
the request leaves. Let `calls` be the flattening of the job. Either all calls succeed; then all of
them are made, and the outputs are put together. Or there is a first call that fails; then the job
fails with its error, the calls up to it are made, and its request is the last of all. -/
theorem Service.execute_flattened {s : Service} {behave : ScriptCall → Except Error Output}
    {request : Request} {job : JobDefinition} {tree : StepTree}
    (hbehaves : s.registry.Behaves behave s.world) (htoken : s.registry.isJob request.engine = true)
    (hjob : s.world.jobAt request.path = .ok job)
    (htree : Unfolds s.registry s.world job.steps tree)
    (hdepth : tree.depth < maxJobDepth - request.depth) :
    ∃ requests, (s.execute request).2.world.log = s.world.log ++ requests ∧
      ((∃ outputs,
        (tree.calls request.environment request.params).map behave = outputs.map .ok ∧
        (s.execute request).1 = .ok (.total outputs) ∧
        s.registry.scriptCalls requests = tree.calls request.environment request.params) ∨
      (∃ before rest earlier last e,
        tree.calls request.environment request.params = before ++ last.call :: rest ∧
        (∀ call ∈ before, ∃ output, behave call = .ok output) ∧
        behave last.call = .error e ∧
        (s.execute request).1 = .error e ∧
        requests = earlier ++ [last] ∧
        s.registry.scriptCalls earlier = before ∧
        s.registry.isJob last.engine = false)) := by
  obtain ⟨levels, hlevels⟩ : ∃ levels, maxJobDepth - request.depth = levels + 1 :=
    ⟨maxJobDepth - request.depth - 1, by omega⟩
  have hsteps := performs_steps hbehaves htree request (Nat.lt_succ_iff.mp (hlevels ▸ hdepth)) []
  obtain ⟨requests, result, hperformed, hagree, -, hlog⟩ :=
    performs_job htoken hjob hsteps s.world (.refl s.world)
  have hrun : (ScriptHost.execute s.registry request).run.run s.world =
      (attempt s.registry request
        (runJob (dispatch s.registry levels) request)).run.run s.world := by
    rw [ScriptHost.execute, hlevels, dispatch]
  rw [← hrun] at hagree hlog
  refine ⟨requests, hlog, ?_⟩
  show (∃ outputs, _ ∧ ((ScriptHost.execute s.registry request).run.run s.world).1 = _ ∧ _) ∨
    (∃ before rest earlier last e, _ ∧ _ ∧ _ ∧
      ((ScriptHost.execute s.registry request).run.run s.world).1 = _ ∧ _)
  generalize ((ScriptHost.execute s.registry request).run.run s.world).1 = outcome at hagree ⊢
  generalize tree.calls request.environment request.params = calls at hperformed ⊢
  cases hperformed with
  | @all _ _ outputs hcalls hrequests =>
      cases hagree with
      | ok houtput => exact .inl ⟨outputs, hcalls, congrArg Except.ok houtput, hrequests⟩
  | @failed before rest earlier last e hbefore hcall hrequests hlast =>
      cases hagree with
      | error =>
          exact .inr
            ⟨before, rest, earlier, last, e, rfl, hbefore, hcall, rfl, rfl, hrequests, hlast⟩

/-- An engine that answers from what it is told. -/
def Engine.telling (answer : ScriptCall → Except Error Output) : Engine :=
  .script fun request => MonadExcept.ofExcept (answer request.call)

/-- What a registry of such engines makes of a call; there may be no engine for it. -/
def Registry.telling (registry : Registry Engine) (answer : ScriptCall → Except Error Output)
    (call : ScriptCall) : Except Error Output :=
  match registry.lookup call.engine with
  | .ok _ => answer call
  | .error fault => .error fault

/-- Engines that answer from what they are told behave as a function, in every world. -/
theorem Registry.behaves_telling {registry : Registry Engine}
    {answer : ScriptCall → Except Error Output}
    (h : ∀ entry ∈ registry.entries, entry.2 = .job ∨ entry.2 = .telling answer) (world : World) :
    registry.Behaves (registry.telling answer) world where
  unknown request fault hlookup := by
    show (match registry.lookup request.engine with
      | .ok _ => answer request.call
      | .error fault => .error fault) = .error fault
    rw [hlookup]
  script request names run hlookup w hw := by
    obtain hjob | htelling := h _ (Registry.mem_entries_of_lookup hlookup)
    · cases hjob
    · obtain rfl : run = fun request => MonadExcept.ofExcept (answer request.call) :=
        Engine.script.inj htelling
      rw [World.run_ofExcept]
      refine ⟨?_, hw, rfl⟩
      show answer request.call = match registry.lookup request.engine with
        | .ok _ => answer request.call
        | .error fault => .error fault
      rw [hlookup]

namespace NestedJobs

/-- A job whose second step is another job, which is given a parameter. -/
def resources : Std.TreeMap String ByteArray :=
  .ofList [
    ("/outer", ("name='o'\n" ++ "steps=[\x7bname='a',engine='say',path='/a'\x7d," ++
      "\x7bname='i',engine='job',path='/inner',params=\x7bwho='you'\x7d\x7d]").toUTF8),
    ("/inner", "name='i'\nsteps=[\x7bname='b',engine='Say',path='/b'\x7d]".toUTF8)]

/-- An engine that prints its path and a parameter. -/
def answer (call : ScriptCall) : Except Error Output :=
  .ok { Output.empty with stdout := call.path ++ call.params["who"]?.getD "" }

def engines : List (EngineNames × Engine) :=
  [(⟨"job", "Job"⟩, .job), (⟨"say", "Say"⟩, .telling answer)]

def world : World :=
  .new ⟨⟨.empty, []⟩, .empty, 0, 0⟩ (.memory resources) .inMemory

/-- A request for the outer job, with a parameter of its own. -/
def request : Request :=
  ⟨"Job", "/outer", .ofPairs [("who", "me")], .empty, none, Request.nilId, 0⟩

/-- The tokens, paths and parameters in the steps of the job at a path. -/
def written? (path : String) : Option (List (String × String × Option String)) :=
  (world.jobAt path).toOption.map fun job =>
    job.steps.map fun step => (step.engine, step.path, step.params["who"]?)

theorem written_outer :
    written? "/outer" = some [("say", "/a", none), ("job", "/inner", some "you")] := by
  decide +kernel

theorem written_inner : written? "/inner" = some [("Say", "/b", none)] := by
  decide +kernel

/-- What is written at a path is what the steps of the job there say. -/
theorem jobAt_of_written {path : String} {steps : List (String × String × Option String)}
    (h : written? path = some steps) :
    ∃ job, world.jobAt path = .ok job ∧
      job.steps.map (fun step => (step.engine, step.path, step.params["who"]?)) = steps := by
  rw [written?] at h
  cases hjob : world.jobAt path with
  | error fault =>
      rw [hjob] at h
      cases h
  | ok job =>
      rw [hjob] at h
      exact ⟨job, rfl, Option.some.inj h⟩

/-- The outer job has two steps, and the second one has the one step of the inner job. -/
theorem unfolds_outer {s : Service} (hworld : s.world = world)
    (hjob : s.registry.isJob "job" = true) (hsay : s.registry.isJob "say" = false)
    (hSay : s.registry.isJob "Say" = false) :
    ∃ job a i b, s.world.jobAt request.path = .ok job ∧
      Unfolds s.registry s.world job.steps (.call a (.nest i (.call b .done) .done)) ∧
      (a.engine, a.path, a.params["who"]?) = ("say", "/a", none) ∧
      (i.engine, i.path, i.params["who"]?) = ("job", "/inner", some "you") ∧
      (b.engine, b.path, b.params["who"]?) = ("Say", "/b", none) := by
  obtain ⟨outer, houter, hsteps⟩ := jobAt_of_written written_outer
  obtain ⟨a, rest, hsteps, ha, hrest⟩ := List.map_eq_cons_iff.mp hsteps
  obtain ⟨i, rest, rfl, hi, hrest⟩ := List.map_eq_cons_iff.mp hrest
  obtain rfl := List.map_eq_nil_iff.mp hrest
  obtain ⟨inner, hinner, hinnerSteps⟩ := jobAt_of_written written_inner
  obtain ⟨b, rest, hinnerSteps, hb, hrest⟩ := List.map_eq_cons_iff.mp hinnerSteps
  obtain rfl := List.map_eq_nil_iff.mp hrest
  refine ⟨outer, a, i, b, hworld ▸ houter, ?_, ha, hi, hb⟩
  rw [Prod.mk.injEq, Prod.mk.injEq] at ha hi hb
  rw [hsteps, hworld]
  refine .call (ha.1 ▸ hsay) (.nest (hi.1 ▸ hjob) (hi.2.1 ▸ hinner) ?_ .done)
  rw [hinnerSteps]
  exact .call (hb.1 ▸ hSay) .done

/-- The engines behave as a function of what they are told. -/
theorem behaves_engines {registry : Registry Engine} (h : registry.entries = engines)
    (world : World) : registry.Behaves (registry.telling answer) world := by
  refine Registry.behaves_telling (fun entry hentry => ?_) world
  rw [h, engines, List.mem_cons, List.mem_singleton] at hentry
  rcases hentry with rfl | rfl
  · exact .inl rfl
  · exact .inr rfl

/-- The inner step gets the parameter of the step that names its job, the outer one that of the
request. -/
theorem outer_flattened : ∃ s, Service.ofEngines world engines = .ok s ∧
    ∃ job tree, s.world.jobAt request.path = .ok job ∧
      Unfolds s.registry s.world job.steps tree ∧ tree.depth < maxJobDepth - request.depth ∧
      (s.execute request).1 = .ok { Output.empty with stdout := "/ame/byou" } := by
  obtain ⟨s, hs, hworld, hentries, hsay, hSay, hjob, hJob⟩ :
      ∃ s, Service.ofEngines world engines = .ok s ∧ s.world = world ∧
        s.registry.entries = engines ∧
        s.registry.lookup "say" = .ok (⟨"say", "Say"⟩, .telling answer) ∧
        s.registry.lookup "Say" = .ok (⟨"say", "Say"⟩, .telling answer) ∧
        s.registry.isJob "job" = true ∧ s.registry.isJob "Job" = true :=
    ⟨_, rfl, rfl, rfl, rfl, rfl, by decide +kernel, by decide +kernel⟩
  obtain ⟨job, a, i, b, hpresent, htree, ha, hi, hb⟩ := unfolds_outer hworld hjob
    (by rw [Registry.isJob, hsay]; rfl) (by rw [Registry.isJob, hSay]; rfl)
  rw [Prod.mk.injEq, Prod.mk.injEq] at ha hi hb
  have hdepth : (StepTree.call a (.nest i (.call b .done) .done)).depth <
      maxJobDepth - request.depth := by
    simp [StepTree.depth, maxJobDepth, request]
  have hwho : request.params["who"]? = some "me" := by decide +kernel
  have hanswers : ((StepTree.call a (.nest i (.call b .done) .done)).calls request.environment
      request.params).map (s.registry.telling answer) =
      [{ Output.empty with stdout := "/ame" },
        { Output.empty with stdout := "/byou" }].map .ok := by
    simp [StepTree.calls, Registry.telling, answer, ha, hi, hb, hsay, hSay,
      Variables.getElem?_overlaidBy, hwho]
  refine ⟨s, hs, job, _, hpresent, htree, hdepth, ?_⟩
  obtain ⟨requests, -, ⟨outputs, hcalls, hresult, -⟩ |
    ⟨before, rest, earlier, last, e, hcalls, -, hlast, -⟩⟩ :=
    Service.execute_flattened (behaves_engines hentries s.world) hJob hpresent htree hdepth
  · rw [hanswers, List.map_inj_right fun _ _ => Except.ok.inj] at hcalls
    rw [hresult, ← hcalls]
    rfl
  · have hfails : Except.error e ∈ (before ++ last.call :: rest).map (s.registry.telling answer) :=
      List.mem_map.mpr ⟨last.call, by simp, hlast⟩
    rw [← hcalls, hanswers] at hfails
    simp at hfails

end NestedJobs

end ScriptHost
