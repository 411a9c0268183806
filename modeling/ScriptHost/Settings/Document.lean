import ScriptHost.Settings.Basic
import ScriptHost.Toml.Decode
import ScriptHost.Toml.Document

/-!
# Settings documents

Settings written as TOML. A document that is not TOML, or in which a known key has a value of
another kind, is malformed; `Settings.ofDocument` also refuses values that cannot be worked with.
-/

namespace ScriptHost

open Toml (Decoder Record)

/-- The locations section. -/
def Locations.decode : Decoder Locations := fun v => do
  let r ← Record.ofValue? v
  return {
    resourceRoot := ← r.optional 0 "resource_root" .string
    cacheDir := ← r.optional 1 "cache_dir" .string }

/-- The commands of a compiler, all of which must be given. -/
def CompilerCommands.decode : Decoder CompilerCommands := fun v => do
  let r ← Record.ofValue? v
  return {
    extension := ← r.required 0 "extension" .string
    compile := ← r.required 1 "compile" (.list .string)
    launch := ← r.required 2 "launch" (.list .string) }

/-- The commands of an interpreter. -/
def InterpreterCommands.decode : Decoder InterpreterCommands := fun v => do
  let r ← Record.ofValue? v
  return {
    interpreter := ← r.withDefault 0 "interpreter" (.list .string) default.interpreter
    debug := ← r.withDefault 1 "debug" (.list .string) default.debug }

/-- The engines section. -/
def EngineSettings.decode : Decoder EngineSettings := fun v => do
  let r ← Record.ofValue? v
  return {
    enabled := ← r.withDefault 0 "enabled" (.list .string) default.enabled
    java := ← r.withDefault 1 "java" CompilerCommands.decode default.java
    groovy := ← r.withDefault 2 "groovy" CompilerCommands.decode default.groovy
    js := ← r.withDefault 3 "js" InterpreterCommands.decode default.js
    runTimeoutSeconds := ← r.withDefault 4 "run_timeout_secs" .unsigned64 default.runTimeoutSeconds }

/-- The command section. -/
def PollLimits.decode : Decoder PollLimits := fun v => do
  let r ← Record.ofValue? v
  return {
    waitMillis := ← r.withDefault 0 "wait_time_ms" .unsigned64 default.waitMillis
    loopCount := ← r.withDefault 1 "loop_count" .unsigned32 default.loopCount }

/-- The kind of a storage by its name. -/
def StorageKind.ofName? : String → Option StorageKind
  | "memory" => some memory
  | "sqlite" => some sqlite
  | _ => none

/-- The name of a kind of storage. -/
def StorageKind.name : StorageKind → String
  | memory => "memory"
  | sqlite => "sqlite"

/-- A kind of storage: its name, or a table with the name as only key and nothing in it. -/
def StorageKind.decode : Decoder StorageKind
  | .string name => ofName? name
  | .table [(name, .table [])] => ofName? name
  | .table [(name, .array [])] => ofName? name
  | _ => none

/-- The storage section. -/
def StorageSettings.decode : Decoder StorageSettings := fun v => do
  let r ← Record.ofValue? v
  return {
    backend := ← r.withDefault 0 "backend" StorageKind.decode default.backend
    path := ← r.optional 1 "path" .string
    maxFileSize := ← r.withDefault 2 "max_file_size" .unsigned64 default.maxFileSize }

/-- The scheduler section. -/
def SchedulerSettings.decode : Decoder SchedulerSettings := fun v => do
  let r ← Record.ofValue? v
  return {
    enabled := ← r.withDefault 0 "enabled" .boolean default.enabled
    metricsIntervalSeconds :=
      ← r.withDefault 1 "metrics_interval_secs" .unsigned64 default.metricsIntervalSeconds
    metricsRetention := ← r.withDefault 2 "metrics_retention" .unsigned64 default.metricsRetention }

/-- A scheduled job. -/
def JobSchedule.decode : Decoder JobSchedule := fun v => do
  let r ← Record.ofValue? v
  return {
    path := ← r.required 0 "path" .string
    intervalSeconds := ← r.required 1 "interval_secs" .unsigned64
    initialDelaySeconds := ← r.withDefault 2 "initial_delay_secs" .unsigned64 0 }

namespace Settings

/-- The settings in the root table of a document. -/
def decode : Decoder Settings
  | .table members => do
    let r := Record.named members
    return {
      locations := ← r.optional 0 "runtime" Locations.decode
      engines := ← r.optional 1 "engines" EngineSettings.decode
      command := ← r.optional 2 "command" PollLimits.decode
      storage := ← r.optional 3 "storage" StorageSettings.decode
      scheduler := ← r.optional 4 "scheduler" SchedulerSettings.decode
      jobs := ← r.withDefault 5 "jobs" (.list JobSchedule.decode) [] }
  | _ => none

/-- The settings a document holds. -/
def ofDocument (text : String) : Except SettingsFault Settings :=
  match (Toml.read? text).bind decode with
  | some settings => settings.checked
  | none => .error .malformed

end Settings

end ScriptHost
