import ScriptHost.Engine.Dispatch
import ScriptHost.Proofs.World.Computation

/-!
# What dispatching does

`attempt` in its three cases: no engine is found, an engine runs, or a job is resolved and run; and
the request that a step of a job makes.
-/

namespace ScriptHost

/-- The world in which a logged request is handled. -/
def World.logging (w : World) (request : Request) : World :=
  { w with log := w.log ++ [request] }

variable {registry : Registry Engine} {request : Request}

/-- A request whose token finds no engine fails, and nothing but the log changes. -/
theorem attempt_unknown {fault : Error} (h : registry.lookup request.engine = .error fault)
    (job : String → WorldM Output) (w : World) :
    (attempt registry request job).run.run w = (.error fault, w.logging request) := by
  rw [attempt, World.run_bind_ok (World.run_logged request w), h]
  exact World.run_bind_error (World.run_ofExcept _ _) _

/-- A request whose token finds an engine is run by it, and counted for it. -/
theorem attempt_found {names : EngineNames} {engine : Engine}
    (h : registry.lookup request.engine = .ok (names, engine)) (job : String → WorldM Output)
    (w : World) :
    (attempt registry request job).run.run w =
      (World.recorded names.type (match engine with
        | .script run => run request
        | .job => World.resolveResource request.path >>= job)).run.run (w.logging request) := by
  rw [attempt, World.run_bind_ok (World.run_logged request w), h,
    World.run_bind_ok (World.run_ofExcept _ _)]
  rfl

/-- A request whose token finds an engine is run by it. Counting it changes nothing but the
metrics. -/
theorem attempt_script {names : EngineNames} {run : Request → WorldM Output}
    (h : registry.lookup request.engine = .ok (names, .script run))
    (job : String → WorldM Output) (w : World) :
    ∃ metrics, (attempt registry request job).run.run w =
      (((run request).run.run (w.logging request)).1,
        { ((run request).run.run (w.logging request)).2 with metrics }) := by
  rw [attempt_found h]
  exact World.run_recorded _ _ _

/-- A request whose token finds the job engine runs the job at the path of the request. -/
theorem attempt_job {names : EngineNames} (h : registry.lookup request.engine = .ok (names, .job))
    (job : String → WorldM Output) (w : World) :
    ∃ metrics, (attempt registry request job).run.run w =
      (((World.resolveResource request.path >>= job).run.run (w.logging request)).1,
        { ((World.resolveResource request.path >>= job).run.run (w.logging request)).2 with
          metrics }) := by
  rw [attempt_found h]
  exact World.run_recorded _ _ _

/-- The request for a step takes the next id and changes nothing else. -/
theorem run_stepRequest (request : Request) (step : JobStep) (w : World) :
    (stepRequest request step).run.run w =
      (.ok { request.child step.engine step.path (Request.idOf w.nextId) with
          params := request.params.overlaidBy step.params },
        { w with nextId := w.nextId + 1 }) := rfl

end ScriptHost
