import ScriptHost.Engine.CommandDefinition
import ScriptHost.Engine.JobDefinition
import ScriptHost.Inspector.Bridge
import ScriptHost.Json.Writer
import ScriptHost.Program.Run
import ScriptHost.World

/-!
# Engines

An engine runs a resource for a request. Job engines send the steps of a job back to all engines and
are therefore a kind of their own; every other engine is a function of the request and the world.
-/

namespace ScriptHost

/-- The operating system that commands run on. -/
def operatingSystem : String := "linux"

/-- How an engine runs a request. -/
inductive Engine where
  | script (run : Request → WorldM Output)
  | job

namespace Engine

/-- The engine of a compiler: it runs the artifact of the resource and discloses the warnings of the
compilation. -/
def compiled (compiler : Compiler) : Engine :=
  .script fun request => do
    let path ← World.resolveResource request.path
    let held ← World.artifact compiler path
    let output ← World.onHost (held.artifact.invoke request)
    return { output with warnings := held.artifact.warnings }

/-- The process of an interpreter, which reads a resource from its standard input. -/
def interpreterInvocation (interpreter : List String) (request : Request) (resource : Resource) :
    Invocation :=
  { Invocation.new interpreter with
    environment := .ofVariables request.processVariables, stdin := some resource.content }

/-- Run a resource by an interpreter. -/
def interpret (interpreter : List String) (runner : Runner) (request : Request)
    (resource : Resource) : WorldM Output := do
  let output ← World.onHost
    (runner.run (interpreterInvocation interpreter request resource))
  if output.success then return output.toOutput
  else throw (.execution (.exited resource.path output.exitCode output.stderr))

/-- The engine of an interpreter. -/
def interpreted (interpreter : List String) (runner : Runner) : Engine :=
  .script fun request => do
    let path ← World.resolveResource request.path
    interpret interpreter runner request (← World.readResource path)

/-- The engine of an interpreter that runs a request with breakpoints under an inspector. No program
that a debugger may be listens for connections. -/
def debugged (interpreter : List String) (runner : Runner) (bridge : Inspector.Bridge) : Engine :=
  .script fun request => do
    let path ← World.resolveResource request.path
    let resource ← World.readResource path
    if request.breakpoints.isNone then interpret interpreter runner request resource
    else
      let session ← World.freshId
      World.onHost (bridge.run (fun _ => .refused) session resource
        (.ofVariables request.processVariables))

/-- The words of the command that a definition has for the operating system. -/
def commandWords (path : String) (definition : CommandDefinition) : Except Error (List String) :=
  match definition.commandFor? operatingSystem with
  | none => .error (.invalidDefinition path (.noCommandFor operatingSystem))
  | some command =>
    (CommandLine.split command.command).mapError fun fault =>
      .invalidDefinition path (.commandLine fault)

/-- The process of a command. What its definition sets stands above the variables of the request. -/
def commandInvocation (definition : CommandDefinition) (argv : List String) (request : Request) :
    Invocation :=
  { Invocation.new argv with
    environment := definition.environment.layeredOver request.processVariables }

/-- The engine of command resources. -/
def command (runner : Runner) : Engine :=
  .script fun request => do
    let path ← World.resolveResource request.path
    let resource ← World.readResource path
    let definition ← MonadExcept.ofExcept (CommandDefinition.parse path resource.content)
    let argv ← MonadExcept.ofExcept (commandWords path definition)
    let output ← World.onHost (runner.run (commandInvocation definition argv request))
    if output.success then
      return { output.toOutput with contentType := definition.contentType }
    else throw (.nonZeroExit output.exitCode output.stdout output.stderr)

end Engine

end ScriptHost
