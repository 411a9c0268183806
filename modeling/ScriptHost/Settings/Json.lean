import ScriptHost.Json.Basic
import ScriptHost.Settings.Directories
import ScriptHost.Settings.Document

/-!
# Settings as JSON

Two views of settings: as they are given, with missing sections as null, and as they are resolved,
with every default filled in.
-/

namespace ScriptHost

open Json (Value)

/-- A list of texts. -/
def Json.Value.texts (texts : List String) : Value :=
  .array (texts.map .string)

/-- The locations section as given. -/
def Locations.toJson (l : Locations) : Value :=
  .object [("resource_root", .ofOption l.resourceRoot), ("cache_dir", .ofOption l.cacheDir)]

/-- The commands of a compiler. -/
def CompilerCommands.toJson (c : CompilerCommands) : Value :=
  .object [("extension", .string c.extension), ("compile", .texts c.compile),
    ("launch", .texts c.launch)]

/-- The commands of an interpreter. -/
def InterpreterCommands.toJson (c : InterpreterCommands) : Value :=
  .object [("interpreter", .texts c.interpreter), ("debug", .texts c.debug)]

/-- The engines section. -/
def EngineSettings.toJson (s : EngineSettings) : Value :=
  .object [("enabled", .texts s.enabled), ("java", s.java.toJson), ("groovy", s.groovy.toJson),
    ("js", s.js.toJson), ("run_timeout_secs", .nat s.runTimeoutSeconds)]

/-- The command section. -/
def PollLimits.toJson (l : PollLimits) : Value :=
  .object [("wait_time_ms", .nat l.waitMillis), ("loop_count", .nat l.loopCount)]

/-- The storage section. -/
def StorageSettings.toJson (s : StorageSettings) : Value :=
  .object [("backend", .string s.backend.name), ("path", .ofOption s.path),
    ("max_file_size", .nat s.maxFileSize)]

/-- The scheduler section. -/
def SchedulerSettings.toJson (s : SchedulerSettings) : Value :=
  .object [("enabled", .bool s.enabled), ("metrics_interval_secs", .nat s.metricsIntervalSeconds),
    ("metrics_retention", .nat s.metricsRetention)]

/-- A scheduled job. -/
def JobSchedule.toJson (j : JobSchedule) : Value :=
  .object [("path", .string j.path), ("interval_secs", .nat j.intervalSeconds),
    ("initial_delay_secs", .nat j.initialDelaySeconds)]

namespace Settings

/-- A section that may be missing. -/
def sectionJson {α : Type} (toJson : α → Value) : Option α → Value
  | none => .null
  | some a => toJson a

/-- The settings as they are given; without jobs there is no member for them. -/
def givenJson (s : Settings) : Value :=
  .object ([("runtime", sectionJson Locations.toJson s.locations),
    ("engines", sectionJson EngineSettings.toJson s.engines),
    ("command", sectionJson PollLimits.toJson s.command),
    ("storage", sectionJson StorageSettings.toJson s.storage),
    ("scheduler", sectionJson SchedulerSettings.toJson s.scheduler)]
    ++ if s.jobs.isEmpty then [] else [("jobs", .array (s.jobs.map JobSchedule.toJson))])

/-- The settings with all defaults filled in, as the environment determines them. -/
def resolvedJson (vars : Variables) (s : Settings) : Value :=
  let locations := s.locationsOrDefault
  .object [("resource_root", .string locations.resourceRootOrDefault),
    ("cache_dir", .string (Directories.cache vars locations)),
    ("engines", s.enginesOrDefault.toJson), ("command", s.commandOrDefault.toJson),
    ("storage", s.storageOrDefault.toJson), ("scheduler", s.schedulerOrDefault.toJson)]

end Settings

end ScriptHost
