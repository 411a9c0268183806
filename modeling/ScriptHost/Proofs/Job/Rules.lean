import ScriptHost.Proofs.Job.StepTree

/-!
# The rules of execution

`Proceeds` says what a request comes to, rule by rule: a job sends its steps back to all engines,
each one level deeper, and only the look at the depth before a job is read keeps it from doing so
for ever. There are no levels in the rules. `proceeds_execute` shows that every request proceeds to
an end, which is what executing it gives, and `Proceeds.unique` that there is no other.
-/

namespace ScriptHost

namespace World

/-- The steps of the job that a request asks for. The path must be that of a resource, then the
request must not be nested too deep, and then the resource must hold a job. -/
def openJob (w : World) (request : Request) : Except Error (List JobStep) :=
  match w.resolved request.path with
  | .error fault => .error fault
  | .ok key =>
    if maxJobDepth ≤ request.depth then .error (.execution (.nestedTooDeep key))
    else (w.definitionAt key).map (·.steps)

variable {w : World} {request : Request}

theorem openJob_of_missing {fault : Error} (h : w.resolved request.path = .error fault) :
    w.openJob request = .error fault := by
  rw [openJob, h]

theorem openJob_of_resolved {key : String} (h : w.resolved request.path = .ok key) :
    w.openJob request =
      if maxJobDepth ≤ request.depth then .error (.execution (.nestedTooDeep key))
      else (w.definitionAt key).map (·.steps) := by
  rw [openJob, h]

/-- A job is opened when its path is resolved, the request is not too deep, and it can be read. -/
theorem openJob_eq_ok {steps : List JobStep} (h : w.openJob request = .ok steps) :
    ∃ key job, w.resolved request.path = .ok key ∧ request.depth < maxJobDepth ∧
      w.definitionAt key = .ok job ∧ job.steps = steps := by
  cases hkey : w.resolved request.path with
  | error fault =>
      rw [openJob_of_missing hkey] at h
      cases h
  | ok key =>
      rw [openJob_of_resolved hkey] at h
      split at h
      · cases h
      · rename_i hdepth
        cases hjob : w.definitionAt key with
        | error fault =>
            rw [hjob] at h
            cases h
        | ok job =>
            rw [hjob] at h
            exact ⟨key, job, rfl, Nat.lt_of_not_le hdepth, hjob, Except.ok.inj h⟩

end World

/-- What can be run: a request, or the steps that are left of the job that a request asks for, after
the output of those before them. -/
inductive Activity where
  | request (request : Request)
  | steps (request : Request) (steps : List JobStep) (output : Output)

/-- The request for a step of the job that a request asks for, with the id of a number. -/
def Request.forStep (request : Request) (step : JobStep) (number : Nat) : Request :=
  { request.child step.engine step.path (Request.idOf number) with
    params := request.params.overlaidBy step.params }

/-- An activity runs from a world to a result and another world, and dispatches requests, first to
last. The first one that a request dispatches is itself. -/
inductive Proceeds (registry : Registry Engine) :
    Activity → World → Except Error Output → World → List Request → Prop
  | unknown {request : Request} {w : World} {fault : Error}
      (hlookup : registry.lookup request.engine = .error fault) :
      Proceeds registry (.request request) w (.error fault) (w.logging request) [request]
  | script {request : Request} {w after : World} {names : EngineNames}
      {run : Request → WorldM Output} {result : Except Error Output}
      (hlookup : registry.lookup request.engine = .ok (names, .script run))
      (hrun : (run request).run.run (w.logging request) = (result, after)) :
      Proceeds registry (.request request) w result
        (after.counting names.type result (w.logging request)) [request]
  | refused {request : Request} {w : World} {names : EngineNames} {fault : Error}
      (hlookup : registry.lookup request.engine = .ok (names, .job))
      (hopen : (w.logging request).openJob request = .error fault) :
      Proceeds registry (.request request) w (.error fault)
        ((w.logging request).counting names.type (.error fault : Except Error Output)
          (w.logging request)) [request]
  | job {request : Request} {w after : World} {names : EngineNames} {steps : List JobStep}
      {result : Except Error Output} {requests : List Request}
      (hlookup : registry.lookup request.engine = .ok (names, .job))
      (hopen : (w.logging request).openJob request = .ok steps)
      (hsteps : Proceeds registry (.steps request steps .empty) (w.logging request) result after
        requests) :
      Proceeds registry (.request request) w result
        (after.counting names.type result (w.logging request)) (request :: requests)
  | done {request : Request} {w : World} {output : Output} :
      Proceeds registry (.steps request [] output) w (.ok output) w []
  | failed {request : Request} {w after : World} {step : JobStep} {rest : List JobStep}
      {output : Output} {e : Error} {requests : List Request}
      (hstep : Proceeds registry (.request (request.forStep step w.nextId))
        { w with nextId := w.nextId + 1 } (.error e) after requests) :
      Proceeds registry (.steps request (step :: rest) output) w (.error e) after requests
  | next {request : Request} {w mid after : World} {step : JobStep} {rest : List JobStep}
      {output stepOutput : Output} {result : Except Error Output}
      {requests others : List Request}
      (hstep : Proceeds registry (.request (request.forStep step w.nextId))
        { w with nextId := w.nextId + 1 } (.ok stepOutput) mid requests)
      (hrest : Proceeds registry (.steps request rest (output.append stepOutput)) mid result after
        others) :
      Proceeds registry (.steps request (step :: rest) output) w result after (requests ++ others)

variable {registry : Registry Engine}

/-- An activity has one run at most. -/
theorem Proceeds.unique {activity : Activity} {w after after' : World}
    {result result' : Except Error Output} {requests requests' : List Request}
    (h : Proceeds registry activity w result after requests)
    (h' : Proceeds registry activity w result' after' requests') :
    result = result' ∧ after = after' ∧ requests = requests' := by
  induction h generalizing result' after' requests' with
  | unknown hlookup =>
      cases h' with
      | unknown hlookup' =>
          cases hlookup.symm.trans hlookup'
          exact ⟨rfl, rfl, rfl⟩
      | script hlookup' | refused hlookup' | job hlookup' => cases hlookup.symm.trans hlookup'
  | script hlookup hrun =>
      cases h' with
      | script hlookup' hrun' =>
          cases hlookup.symm.trans hlookup'
          cases hrun.symm.trans hrun'
          exact ⟨rfl, rfl, rfl⟩
      | unknown hlookup' | refused hlookup' | job hlookup' => cases hlookup.symm.trans hlookup'
  | refused hlookup hopen =>
      cases h' with
      | refused hlookup' hopen' =>
          cases hlookup.symm.trans hlookup'
          cases hopen.symm.trans hopen'
          exact ⟨rfl, rfl, rfl⟩
      | job _ hopen' => cases hopen.symm.trans hopen'
      | unknown hlookup' | script hlookup' => cases hlookup.symm.trans hlookup'
  | job hlookup hopen _ ih =>
      cases h' with
      | job hlookup' hopen' hsteps' =>
          cases hlookup.symm.trans hlookup'
          cases hopen.symm.trans hopen'
          obtain ⟨rfl, rfl, rfl⟩ := ih hsteps'
          exact ⟨rfl, rfl, rfl⟩
      | refused _ hopen' => cases hopen.symm.trans hopen'
      | unknown hlookup' | script hlookup' => cases hlookup.symm.trans hlookup'
  | done =>
      cases h'
      exact ⟨rfl, rfl, rfl⟩
  | failed _ ih =>
      cases h' with
      | failed hstep' =>
          obtain ⟨hresult, rfl, rfl⟩ := ih hstep'
          cases hresult
          exact ⟨rfl, rfl, rfl⟩
      | next hstep' => cases (ih hstep').1
  | next _ _ ihstep ihrest =>
      cases h' with
      | failed hstep' => cases (ihstep hstep').1
      | next hstep' hrest' =>
          obtain ⟨hresult, rfl, rfl⟩ := ihstep hstep'
          cases hresult
          obtain ⟨rfl, rfl, rfl⟩ := ihrest hrest'
          exact ⟨rfl, rfl, rfl⟩

/-- Steps run when the requests for them do, whatever they are dispatched to. -/
theorem proceeds_steps {dispatch : Request → WorldM Output} {request : Request}
    (hdispatch : ∀ child : Request, child.depth = request.depth + 1 → ∀ w, ∃ requests,
      Proceeds registry (.request child) w ((dispatch child).run.run w).1
        ((dispatch child).run.run w).2 requests)
    (steps : List JobStep) (output : Output) (w : World) :
    ∃ requests, Proceeds registry (.steps request steps output) w
      ((steps.foldlM (runStep dispatch request) output).run.run w).1
      ((steps.foldlM (runStep dispatch request) output).run.run w).2 requests := by
  induction steps generalizing output w with
  | nil => exact ⟨[], .done⟩
  | cons step rest ih =>
      obtain ⟨requests, hstep⟩ := hdispatch (request.forStep step w.nextId) rfl
        { w with nextId := w.nextId + 1 }
      have hrequest : (runStep dispatch request output step).run.run w =
          ((dispatch (request.forStep step w.nextId) >>= fun stepOutput =>
            pure (output.append stepOutput)).run.run { w with nextId := w.nextId + 1 }) := by
        rw [runStep, World.run_bind_ok (run_stepRequest request step w)]
        rfl
      rcases hrun : (dispatch (request.forStep step w.nextId)).run.run
        { w with nextId := w.nextId + 1 } with ⟨result, mid⟩
      rw [hrun] at hstep
      cases result with
      | error e =>
          rw [World.run_bind_error hrun] at hrequest
          rw [List.foldlM_cons, World.run_bind_error hrequest]
          exact ⟨_, .failed hstep⟩
      | ok stepOutput =>
          rw [World.run_bind_ok hrun, World.run_pure] at hrequest
          rw [List.foldlM_cons, World.run_bind_ok hrequest]
          obtain ⟨others, hrest⟩ := ih (output.append stepOutput) mid
          exact ⟨_, .next hstep hrest⟩

/-- A request has a run, whatever is done with the path of a job, as long as that is to refuse the
job for the reason it is not opened for, or to run its steps. -/
theorem proceeds_attempt {request : Request} {job : String → WorldM Output}
    (hjob : ∀ w key, w.resolved request.path = .ok key →
      (∃ fault, w.openJob request = .error fault ∧ (job key).run.run w = (.error fault, w)) ∨
      ∃ steps requests, w.openJob request = .ok steps ∧
        Proceeds registry (.steps request steps .empty) w ((job key).run.run w).1
          ((job key).run.run w).2 requests)
    (w : World) :
    ∃ requests, Proceeds registry (.request request) w ((attempt registry request job).run.run w).1
      ((attempt registry request job).run.run w).2 requests := by
  cases hlookup : registry.lookup request.engine with
  | error fault =>
      rw [attempt_unknown hlookup]
      exact ⟨_, .unknown hlookup⟩
  | ok entry =>
      obtain ⟨names, engine⟩ := entry
      rw [attempt_found hlookup, World.run_recorded_eq]
      cases engine with
      | script run => exact ⟨_, .script hlookup rfl⟩
      | job =>
          simp only [World.run_resolveResource_bind]
          cases hkey : (w.logging request).resolved request.path with
          | error fault => exact ⟨_, .refused hlookup (World.openJob_of_missing hkey)⟩
          | ok key =>
              rcases hjob (w.logging request) key hkey with
                ⟨fault, hopen, hrun⟩ | ⟨steps, requests, hopen, hsteps⟩
              · simp only [hrun]
                exact ⟨_, .refused hlookup hopen⟩
              · exact ⟨_, .job hlookup hopen hsteps⟩

/-- What dispatching does on the levels that the depth of a request leaves is a run. -/
theorem proceeds_dispatch (levels : Nat) (request : Request)
    (hlevels : levels = maxJobDepth - request.depth) (w : World) :
    ∃ requests, Proceeds registry (.request request) w
      ((dispatch registry levels request).run.run w).1
      ((dispatch registry levels request).run.run w).2 requests := by
  -- A step is one level deeper than its job, and so has one level less.
  induction levels generalizing request w with
  | zero =>
      refine proceeds_attempt (fun w key hkey => .inl ⟨_, ?_, rfl⟩) w
      rw [World.openJob_of_resolved hkey, if_pos (by omega)]
  | succ levels ih =>
      refine proceeds_attempt (fun w key hkey => ?_) w
      rw [World.openJob_of_resolved hkey, if_neg (by omega), World.run_runJob]
      cases w.definitionAt key with
      | error fault => exact .inl ⟨fault, rfl, rfl⟩
      | ok job =>
          have hdispatch : ∀ child : Request, child.depth = request.depth + 1 → ∀ w, ∃ requests,
              Proceeds registry (.request child) w ((dispatch registry levels child).run.run w).1
                ((dispatch registry levels child).run.run w).2 requests :=
            fun child hchild => ih child (by rw [hchild]; omega)
          obtain ⟨requests, hsteps⟩ := proceeds_steps hdispatch job.steps .empty w
          exact .inr ⟨job.steps, requests, rfl, hsteps⟩

/-- Executing a request is a run of it. -/
theorem proceeds_execute (request : Request) (w : World) :
    ∃ requests, Proceeds registry (.request request) w ((execute registry request).run.run w).1
      ((execute registry request).run.run w).2 requests :=
  proceeds_dispatch _ request rfl w

end ScriptHost
