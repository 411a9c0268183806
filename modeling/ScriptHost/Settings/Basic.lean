import ScriptHost.Environment
import ScriptHost.Error

/-!
# Settings

The settings of a script host, in sections that may each be missing. A missing section stands for
its defaults. Laying settings over others replaces whole sections and appends scheduled jobs.
-/

namespace ScriptHost

/-- Where scripts live and where compilers work. -/
structure Locations where
  resourceRoot : Option String
  cacheDir : Option String
  deriving DecidableEq, Repr

/-- The commands of an engine that is backed by a compiler. In the arguments, names in braces stand
for the source file, the output directory and the main class. -/
structure CompilerCommands where
  extension : String
  compile : List String
  launch : List String
  deriving DecidableEq, Repr

/-- The commands of an interpreted engine: the script is piped to the interpreter, and given to the
debugger as a file. -/
structure InterpreterCommands where
  interpreter : List String
  debug : List String
  deriving DecidableEq, Repr

/-- Which engines there are and what they run. -/
structure EngineSettings where
  enabled : List String
  java : CompilerCommands
  groovy : CompilerCommands
  js : InterpreterCommands
  runTimeoutSeconds : Nat
  deriving DecidableEq, Repr

/-- How often and how many times a command's process is polled. -/
structure PollLimits where
  waitMillis : Nat
  loopCount : Nat
  deriving DecidableEq, Repr

/-- What keeps the entries of a storage. -/
inductive StorageKind where
  | memory
  | sqlite
  deriving DecidableEq, Repr

/-- The storage and the largest data it accepts. -/
structure StorageSettings where
  backend : StorageKind
  path : Option String
  maxFileSize : Nat
  deriving DecidableEq, Repr

/-- Whether and how metrics are captured in the background. -/
structure SchedulerSettings where
  enabled : Bool
  metricsIntervalSeconds : Nat
  metricsRetention : Nat
  deriving DecidableEq, Repr

/-- A job resource that runs on a fixed interval. -/
structure JobSchedule where
  path : String
  intervalSeconds : Nat
  initialDelaySeconds : Nat
  deriving DecidableEq, Repr

/-- The settings of a script host. -/
structure Settings where
  locations : Option Locations
  engines : Option EngineSettings
  command : Option PollLimits
  storage : Option StorageSettings
  scheduler : Option SchedulerSettings
  jobs : List JobSchedule
  deriving DecidableEq, Repr

/-- The largest data that any storage accepts: ten mebibytes. -/
def maxStoredBytes : Nat := 10485760

/-- No locations are given. -/
def Locations.default : Locations :=
  ⟨none, none⟩

/-- The default commands for Java sources. -/
def CompilerCommands.java : CompilerCommands where
  extension := "java"
  compile := ["javac", "-Xlint:all", "-d", "\x7bout_dir\x7d", "\x7bsource\x7d"]
  launch := ["java", "-cp", "\x7bout_dir\x7d", "\x7bmain_class\x7d"]

/-- The default commands for Groovy sources. -/
def CompilerCommands.groovy : CompilerCommands where
  extension := "groovy"
  compile := ["groovyc", "-d", "\x7bout_dir\x7d", "\x7bsource\x7d"]
  launch := ["groovy", "-cp", "\x7bout_dir\x7d", "-e", "\x7bmain_class\x7d.main(args)"]

/-- The default commands for scripts that are interpreted. -/
def InterpreterCommands.default : InterpreterCommands where
  interpreter := ["node", "-"]
  debug := ["node", "--inspect-brk=127.0.0.1:0"]

/-- All six engines with their default commands. -/
def EngineSettings.default : EngineSettings where
  enabled := ["js", "js-debug", "groovy", "java", "command", "job"]
  java := .java
  groovy := .groovy
  js := .default
  runTimeoutSeconds := 300

/-- Half a minute, polled every second. -/
def PollLimits.default : PollLimits :=
  ⟨1000, 30⟩

/-- A storage that lasts as long as the process. -/
def StorageSettings.default : StorageSettings :=
  ⟨.memory, none, maxStoredBytes⟩

/-- A capture every minute, of which a hundred are kept. -/
def SchedulerSettings.default : SchedulerSettings :=
  ⟨true, 60, 100⟩

namespace Settings

/-- Settings in which every section is missing. -/
def empty : Settings :=
  ⟨none, none, none, none, none, []⟩

/-- The locations, by default unspecified. -/
def locationsOrDefault (s : Settings) : Locations :=
  s.locations.getD .default

/-- The engine settings or their defaults. -/
def enginesOrDefault (s : Settings) : EngineSettings :=
  s.engines.getD .default

/-- The poll limits or their defaults. -/
def commandOrDefault (s : Settings) : PollLimits :=
  s.command.getD .default

/-- The storage settings or their defaults. -/
def storageOrDefault (s : Settings) : StorageSettings :=
  s.storage.getD .default

/-- The scheduler settings or their defaults. -/
def schedulerOrDefault (s : Settings) : SchedulerSettings :=
  s.scheduler.getD .default

/-- Settings with others laid over them: the sections of the upper ones win, and jobs add up. -/
def overlaidBy (lower upper : Settings) : Settings where
  locations := upper.locations <|> lower.locations
  engines := upper.engines <|> lower.engines
  command := upper.command <|> lower.command
  storage := upper.storage <|> lower.storage
  scheduler := upper.scheduler <|> lower.scheduler
  jobs := lower.jobs ++ upper.jobs

/-- The fault of the first job, counted from an index, that has no interval. -/
def jobFault? (index : Nat) : List JobSchedule → Option SettingsFault
  | [] => none
  | job :: rest =>
    if job.intervalSeconds = 0 then some (.invalid s!"jobs[{index}].interval_secs" "must be > 0")
    else jobFault? (index + 1) rest

/-- The fault of compiler commands of which one is empty. -/
def compilerFault? (name : String) (commands : CompilerCommands) : Option SettingsFault :=
  if commands.compile.isEmpty || commands.launch.isEmpty then
    some (.invalid s!"engines.{name}" "compile and launch commands must not be empty")
  else none

/-- The first value that cannot be worked with, if there is one. -/
def fault? (s : Settings) : Option SettingsFault :=
  let command := s.commandOrDefault
  let storage := s.storageOrDefault
  let engines := s.enginesOrDefault
  if command.waitMillis = 0 then some (.invalid "command.wait_time_ms" "must be > 0")
  else if command.loopCount = 0 then some (.invalid "command.loop_count" "must be > 0")
  else if storage.maxFileSize = 0 then some (.invalid "storage.max_file_size" "must be > 0")
  else if storage.maxFileSize > maxStoredBytes then
    some (.invalid "storage.max_file_size" s!"must be <= {maxStoredBytes}")
  else if storage.backend = .sqlite ∧ storage.path = none then
    some (.invalid "storage.path" "required when backend = \"sqlite\"")
  else if s.schedulerOrDefault.metricsIntervalSeconds = 0 then
    some (.invalid "scheduler.metrics_interval_secs" "must be > 0")
  else
    jobFault? 0 s.jobs
      <|> compilerFault? "java" engines.java
      <|> compilerFault? "groovy" engines.groovy
      <|> if engines.js.interpreter.isEmpty then
            some (.invalid "engines.js.interpreter" "must not be empty")
          else none

/-- The settings themselves when every value can be worked with. -/
def checked (s : Settings) : Except SettingsFault Settings :=
  match s.fault? with
  | some fault => .error fault
  | none => .ok s

end Settings

namespace Locations

/-- The root directory of the resources. -/
def resourceRootOrDefault (l : Locations) : String :=
  l.resourceRoot.getD "scripts"

end Locations

end ScriptHost
