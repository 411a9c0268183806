import ScriptHost.CommandLine
import ScriptHost.Diagnostic.Basic
import ScriptHost.Duration
import ScriptHost.FileTree

/-!
# Errors

Every way an operation can fail is a constructor here, with the facts that caused it. The wording
stands in the `message` functions alone. Reasons that come from the operating system or from a text
format are not worded: a placeholder stands for them.
-/

namespace ScriptHost

/-- Why an operation on resources fails. -/
inductive StoreFault where
  /-- Nothing is stored under the normal spelling of the path. -/
  | notFound (path : String)
  /-- The text names no path. -/
  | invalidPath (path : String)
  /-- The file system refuses. -/
  | io (path : String) (fault : FileFault)
  deriving DecidableEq, Repr

/-- The wording of a store fault. -/
def StoreFault.message : StoreFault → String
  | notFound path => s!"Resource not found: {path}"
  | invalidPath path => s!"Invalid resource path: '{path}'"
  | io path fault => s!"I/O error on '{path}': {fault.message}"

/-- Why a storage backend fails. -/
inductive BackendFault where
  /-- A database is asked for without saying where. -/
  | missingPath
  /-- The directory of the database cannot be made. -/
  | directory (path : String) (fault : FileFault)
  /-- The database file cannot be opened or is not a database. -/
  | database
  /-- Any other reason, in words. -/
  | reported (reason : String)
  deriving DecidableEq, Repr

/-- The wording of a backend fault. -/
def BackendFault.message : BackendFault → String
  | missingPath => "sqlite backend requires storage.path"
  | directory path fault => s!"{path}: {fault.message}"
  | database => "<os error>"
  | reported reason => reason

/-- Why an operation on the storage fails. -/
inductive StorageFault where
  /-- The data is longer than the storage accepts. -/
  | oversize (path : String) (size max : Nat)
  /-- The text names no path. -/
  | invalidPath (path : String)
  /-- The backend refuses. -/
  | backend (fault : BackendFault)
  deriving DecidableEq, Repr

/-- The wording of a storage fault. -/
def StorageFault.message : StorageFault → String
  | oversize path size max =>
    s!"Storage write to '{path}' rejected: {size} bytes exceeds maximum of {max} bytes"
  | invalidPath path => s!"Invalid storage path: '{path}'"
  | backend fault => s!"Storage backend error: {fault.message}"

/-- Why settings cannot be used. -/
inductive SettingsFault where
  /-- The file cannot be read. -/
  | unreadable (path : String)
  /-- The text is not TOML or does not have the shape of settings. -/
  | malformed
  /-- A value cannot be worked with. -/
  | invalid (field reason : String)
  deriving DecidableEq, Repr

/-- The wording of a settings fault. -/
def SettingsFault.message : SettingsFault → String
  | unreadable path => s!"failed to read config file '{path}': <os error>"
  | malformed => "failed to parse config: <parse error>"
  | invalid field reason => s!"invalid value for '{field}': {reason}"

/-- Why an engine cannot prepare a request. -/
inductive ConstructionFault where
  /-- The path is refused by the store. -/
  | store (fault : StoreFault)
  /-- There is no such resource. -/
  | missingResource
  /-- Any other reason, in words. -/
  | reported (reason : String)
  deriving DecidableEq, Repr

/-- The wording of a construction fault. -/
def ConstructionFault.message : ConstructionFault → String
  | store fault => fault.message
  | missingResource => "resource does not exist"
  | reported reason => reason

/-- How deep jobs may be nested in each other. -/
def maxJobDepth : Nat := 8

/-- Why an execution fails. -/
inductive ExecutionFault where
  /-- There is no program to start. -/
  | emptyCommand
  /-- The program cannot be started. -/
  | startFailed (program : String) (fault : FileFault)
  /-- The program of a resource ended with a code other than zero. -/
  | exited (subject : String) (code : Int) (stderr : String)
  /-- A job is nested too deep. -/
  | nestedTooDeep (path : String)
  /-- Any other reason, in words. -/
  | reported (reason : String)
  deriving DecidableEq, Repr

/-- The wording of an execution fault. -/
def ExecutionFault.message : ExecutionFault → String
  | emptyCommand => "empty command"
  | startFailed program fault => s!"Failed to start '{program}': {fault.message}"
  | exited subject code stderr => s!"{subject} exited with code {code}: {Text.trimmedEnd stderr}"
  | nestedTooDeep path => s!"job nesting deeper than {maxJobDepth} at {path}"
  | reported reason => reason

/-- Why a definition cannot be used. -/
inductive DefinitionFault where
  /-- The text does not have the shape of a definition. -/
  | malformed
  /-- A command definition has no commands. -/
  | noCommands
  /-- A command definition has no command for the operating system. -/
  | noCommandFor (os : String)
  /-- The command line of a command cannot be split. -/
  | commandLine (fault : CommandLine.Fault)
  /-- A job definition has no steps. -/
  | noSteps
  /-- A schedule has a zero interval. -/
  | zeroInterval
  deriving DecidableEq, Repr

/-- The wording of a definition fault. -/
def DefinitionFault.message : DefinitionFault → String
  | malformed => "<parse error>"
  | noCommands => "no commands defined"
  | noCommandFor os => s!"no command for os '{os}'"
  | commandLine fault => fault.message
  | noSteps => "job has no steps"
  | zeroInterval => "schedule interval must be greater than zero"

/-- Why a debug session fails. -/
inductive DebugFault where
  /-- There is no debugger to start. -/
  | emptyCommand
  /-- The script cannot be written where the debugger finds it. -/
  | scriptFile (path : String) (fault : FileFault)
  /-- The debugger cannot be started. -/
  | startFailed (program : String) (fault : FileFault)
  /-- The debugger ended or stayed silent before naming its inspector. -/
  | noUrl
  /-- The inspector cannot be reached. -/
  | connectFailed
  /-- The controller ended the session. -/
  | terminated (session : String)
  /-- A command was sent to a session that is over. -/
  | ended (session : String)
  /-- Any other reason, in words. -/
  | reported (reason : String)
  deriving DecidableEq, Repr

/-- The wording of a debug fault. -/
def DebugFault.message : DebugFault → String
  | emptyCommand => "empty debug command"
  | scriptFile path fault => s!"{path}: {fault.message}"
  | startFailed program fault => s!"Failed to start '{program}': {fault.message}"
  | noUrl => "inspector did not announce a URL"
  | connectFailed => "inspector connect failed: <connect error>"
  | terminated session => s!"session {session} terminated by controller"
  | ended session => s!"session {session} has ended"
  | reported reason => reason

/-- Every way an operation fails. -/
inductive Error where
  | unknownEngine (token : String)
  | duplicateEngine (token : String)
  | construction (path : String) (fault : ConstructionFault)
  | compilation (path : String) (report : Report)
  | execution (fault : ExecutionFault)
  | timeout (ceiling : Duration)
  | nonZeroExit (code : Int) (stdout stderr : String)
  | invalidDefinition (path : String) (fault : DefinitionFault)
  | debug (fault : DebugFault)
  | duplicateTask (name : String)
  | store (fault : StoreFault)
  | storage (fault : StorageFault)
  | settings (fault : SettingsFault)
  /-- The time a process may take is more than the clock can hold. Nothing handles this: it ends
  the whole program. -/
  | clockOverflow
  deriving DecidableEq, Repr

/-- The wording of an error. -/
def Error.message : Error → String
  | unknownEngine token => s!"Unknown engine type: {token}"
  | duplicateEngine token => s!"Engine type or alias already registered: {token}"
  | construction path fault => s!"Executor construction failed for '{path}': {fault.message}"
  | compilation path report => s!"Compilation failed for '{path}':\n{report.errors}"
  | execution fault => s!"Execution failed: {fault.message}"
  | timeout ceiling => s!"Process timed out after {ceiling.text}"
  | nonZeroExit code _ stderr => s!"Process exited with code {code}: {stderr}"
  | invalidDefinition path fault => s!"Invalid definition in '{path}': {fault.message}"
  | debug fault => s!"Debug session error: {fault.message}"
  | duplicateTask name => s!"Task already registered: {name}"
  | store fault => fault.message
  | storage fault => fault.message
  | settings fault => s!"Configuration error: {fault.message}"
  | clockOverflow => "overflow when multiplying duration by scalar"

/-- Why a scheduled task fails. -/
inductive TaskFault where
  /-- The task reports an error. -/
  | failed (task message : String)
  /-- The task breaks off. -/
  | panicked (task message : String)
  deriving DecidableEq, Repr

/-- The wording of a task fault. -/
def TaskFault.message : TaskFault → String
  | failed task message => s!"Task '{task}' failed: {message}"
  | panicked task message => s!"Task '{task}' panicked: {message}"

end ScriptHost
