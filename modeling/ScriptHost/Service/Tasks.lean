import ScriptHost.Schedule.Basic
import ScriptHost.Service.Basic

/-!
# The tasks of a service

A service has a task that captures the metrics in the storage, where a number of captures is kept, and
one task for every scheduled job.
-/

namespace ScriptHost

/-- A task of a service. -/
inductive ServiceTask where
  | captureMetrics (retention : Nat)
  | job (path : String)
  deriving DecidableEq, Repr

namespace ServiceTask

/-- The name of a task. -/
def name : ServiceTask → String
  | captureMetrics _ => "metrics-capture"
  | job path => "job:" ++ path

end ServiceTask

/-- The path below which captured metrics are stored. -/
def metricsPath : String := "/metrics"

namespace Service

/-- The path of a capture at an instant. -/
def capturePath (instant : Nat) : String :=
  metricsPath ++ "/" ++ Calendar.stamp instant

/-- Delete the first of some paths from a storage until few enough are left. -/
def prune (storage : Storage) (paths : List String) (retention : Nat) :
    Except StorageFault Storage :=
  (paths.take (paths.length - retention)).foldlM (fun (s : Storage) path => (·.2) <$> s.delete path) storage

/-- Store the metrics under the present instant and delete the oldest captures beyond a number. -/
def captureMetrics (s : Service) (retention : Nat) : Except StorageFault Service := do
  let storage ← s.world.storage.put (capturePath s.world.host.clock) (s.snapshot true).render.toUTF8
  let captured ← storage.list metricsPath
  let storage ← prune storage (captured.map (·.1)) retention
  return { s with world := { s.world with storage } }

/-- Run a job as a task does. -/
def runJobTask (s : Service) (path : String) : Except Error Output × Service :=
  let (result, s) := s.onWorld do
    let id ← World.freshId
    return (⟨"job", path, .empty, .empty, none, id, 0⟩ : Request)
  match result with
  | .ok request => s.execute request
  | .error e => (.error e, s)

/-- Run a task: what it reports, and the service afterwards. -/
def runTask (s : Service) (task : ServiceTask) : Option TaskFault × Service :=
  match task with
  | .captureMetrics retention =>
    match s.captureMetrics retention with
    | .ok s => (none, s)
    | .error fault => (some (.failed task.name fault.message), s)
  | .job path =>
    match s.runJobTask path with
    | (.ok _, s) => (none, s)
    | (.error e, s) => (some (.failed task.name e.message), s)

end Service

namespace Settings

/-- The tasks that settings ask for: the capture of metrics first if it is enabled, then the jobs. -/
def tasks (s : Settings) : List (ScheduledTask ServiceTask) :=
  let scheduler := s.schedulerOrDefault
  let capture := ServiceTask.captureMetrics scheduler.metricsRetention
  (if scheduler.enabled then
    [⟨capture.name, .every (.ofSeconds scheduler.metricsIntervalSeconds), capture⟩] else [])
  ++ s.jobs.map fun job =>
    let task := ServiceTask.job job.path
    ⟨task.name, (Schedule.every (.ofSeconds job.intervalSeconds)).withDelay
      (.ofSeconds job.initialDelaySeconds), task⟩

/-- The scheduler with the tasks that settings ask for. -/
def taskScheduler (s : Settings) : Except Error (Scheduler ServiceTask) :=
  Scheduler.empty.addAll s.tasks

end Settings

end ScriptHost
