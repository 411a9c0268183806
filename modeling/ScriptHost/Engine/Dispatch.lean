import ScriptHost.Engine.Basic
import ScriptHost.Engine.Registry

/-!
# Dispatching requests

A request is logged and goes to the engine that its token finds, and how it ends is counted for that
engine. A job dispatches its steps in order, one level deeper each, up to the first that fails;
their texts are put together. Levels are what bounds the nesting: `dispatch` is defined by recursion
on them.
-/

namespace ScriptHost

/-- Log a request, find its engine and run it; a job engine is given the path of the job. -/
def attempt (registry : Registry Engine) (request : Request) (job : String → WorldM Output) :
    WorldM Output := do
  World.logged request
  let (names, engine) ← MonadExcept.ofExcept (registry.lookup request.engine)
  World.recorded names.type (match engine with
    | .script run => run request
    | .job => World.resolveResource request.path >>= job)

/-- The request for a step: the parameters of the step stand above those of the job. -/
def stepRequest (request : Request) (step : JobStep) : WorldM Request := do
  let id ← World.freshId
  return { request.child step.engine step.path id with
    params := request.params.overlaidBy step.params }

/-- Run a step of a job, given what its request is dispatched to, and put its output after those of
the steps before it. -/
def runStep (dispatch : Request → WorldM Output) (request : Request) (output : Output)
    (step : JobStep) : WorldM Output := do
  let stepOutput ← dispatch (← stepRequest request step)
  return output.append stepOutput

/-- Run the steps of a job, one after another. -/
def runSteps (dispatch : Request → WorldM Output) (request : Request) (steps : List JobStep) :
    WorldM Output :=
  steps.foldlM (runStep dispatch request) .empty

/-- Run the job at a path, given what its steps are dispatched to. -/
def runJob (dispatch : Request → WorldM Output) (request : Request) (path : String) :
    WorldM Output := do
  let resource ← World.readResource path
  let job ← MonadExcept.ofExcept (JobDefinition.parse path resource.text)
  runSteps dispatch request job.steps

/-- Dispatch a request that may nest jobs on a number of levels. -/
def dispatch (registry : Registry Engine) : Nat → Request → WorldM Output
  | 0, request => attempt registry request fun path => throw (.execution (.nestedTooDeep path))
  | levels + 1, request => attempt registry request (runJob (dispatch registry levels) request)

/-- Execute a request; its depth says how many levels are left. -/
def execute (registry : Registry Engine) (request : Request) : WorldM Output :=
  dispatch registry (maxJobDepth - request.depth) request

end ScriptHost
