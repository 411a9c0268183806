import ScriptHost.Compiler.Command
import ScriptHost.Service.Basic
import ScriptHost.Settings.Directories

/-!
# Building a service from settings

The settings name the engines, and for each of them what it runs. Building checks the settings, opens
the storage, looks up every engine and then registers them, in this order; the first fault ends it.
-/

namespace ScriptHost

namespace EngineSettings

/-- The limit for every run of a script. -/
def runner (s : EngineSettings) : Runner :=
  .withTimeout (.ofSeconds s.runTimeoutSeconds)

end EngineSettings

namespace Settings

/-- The engine of some type, given the environment. -/
def engine? (s : Settings) (vars : Variables) (type : String) : Option (EngineNames × Engine) :=
  let engines := s.enginesOrDefault
  let workDir := Directories.cache vars s.locationsOrDefault
  let compiled (commands : CompilerCommands) : Engine :=
    .compiled (CommandCompiler.toCompiler ⟨type, commands, workDir, engines.runner⟩)
  match type with
  | "java" => some (⟨type, "Java"⟩, compiled engines.java)
  | "groovy" => some (⟨type, "Groovy"⟩, compiled engines.groovy)
  | "js" => some (⟨type, "JavaScript"⟩, .interpreted engines.js.interpreter engines.runner)
  | "js-debug" =>
    let bridge := Inspector.Bridge.new engines.js.debug workDir
      (.ofSeconds engines.runTimeoutSeconds)
    some (⟨type, "JavaScript (debug)"⟩,
      .debugged engines.js.interpreter engines.runner bridge)
  | "command" => some (⟨type, "Command"⟩, .command (.ofLimits s.commandOrDefault))
  | "job" => some (⟨type, "Job"⟩, .job)
  | _ => none

/-- The engine of some type; there may be none. -/
def engine (s : Settings) (vars : Variables) (type : String) : Except Error (EngineNames × Engine) :=
  match s.engine? vars type with
  | some engine => .ok engine
  | none => .error (.unknownEngine type)

end Settings

namespace Service

/-- The service of settings over a storage that is open. -/
def ofStorage (settings : Settings) (host : Host) (storage : Storage) : Except Error Service := do
  let engines ← settings.enginesOrDefault.enabled.mapM (settings.engine host.environment)
  let store := ResourceStore.directory settings.locationsOrDefault.resourceRootOrDefault
  ofEngines (.new host store storage) engines

/-- Close the storage of a service and give up its host. -/
def close (s : Service) : Host :=
  let host := s.world.host
  host.withTree (s.world.storage.save host.view.tree host.view.cwd)

/-- A service as settings describe it, with its resources in files. After a fault the host is what has
become of it. -/
def ofSettings (settings : Settings) (host : Host) : Except (Error × Host) Service :=
  match settings.checked with
  | .error fault => .error (.settings fault, host)
  | .ok _ =>
    match Storage.ofSettings host.view.tree host.view.cwd settings.storageOrDefault with
    | (.error fault, tree) => .error (.storage fault, host.withTree tree)
    | (.ok storage, tree) =>
      let host := host.withTree tree
      match ofStorage settings host storage with
      | .ok service => .ok service
      | .error e => .error (e, host.withTree (storage.save tree host.view.cwd))

end Service

end ScriptHost
