import ScriptHost.Error
import ScriptHost.Host
import ScriptHost.Program.Invocation
import ScriptHost.Program.Launch
import ScriptHost.Program.Search
import ScriptHost.Runner
import ScriptHost.Text.Utf8

/-!
# Running processes under a limit

A runner starts a process and waits until it has ended and everything it wrote has been read. A
process that takes longer than the runner's ceiling is given up.
-/

namespace ScriptHost

/-- The first number of seconds that no instant of the clock shows. -/
def instantBound : Nat := Nat.pow 2 63

/-- A process ready to start: what it can reach, what it is handed, and the tool it is. -/
structure Start where
  view : FileView
  environment : EnvironmentBlock
  tool : String

namespace Invocation

/-- The variables that the process of an invocation is given on a host. -/
def variablesOn (i : Invocation) (host : Host) : Variables :=
  i.environment.apply host.environment

/-- The environment that the process of an invocation is handed on a host. -/
def blockOn (i : Invocation) (host : Host) : EnvironmentBlock :=
  (i.variablesOn host).block

/-- Whether an invocation says something about the search path. -/
def changesSearchPath (i : Invocation) : Bool :=
  i.environment.set.contains searchPathVariable || i.environment.unset.contains searchPathVariable

/-- The search path that the program of an invocation is found by: the one its process is handed if
the invocation changes it, or else that of the host. -/
def searchPathOn (i : Invocation) (host : Host) : Option String :=
  if i.changesSearchPath then ((i.blockOn host).valuesOf searchPathVariable).head?
  else host.environment[searchPathVariable]?

/-- Whether an argument or an entry of the environment cannot be handed to a process. -/
def hasNul (i : Invocation) (host : Host) : Bool :=
  (i.argv ++ i.blockOn host).any (·.toList.contains '\x00')

/-- The files that the process of an invocation starts with. -/
def viewOn (i : Invocation) (host : Host) : Except FileFault FileView :=
  match i.cwd with
  | none => return host.view
  | some dir => do
    match ← host.view.tree.lookup host.view.cwd dir with
    | (place, .directory) => return { host.view with cwd := place }
    | _ => throw .notDirectory

/-- Find the working directory and the tool of an invocation. -/
def start (i : Invocation) (program : String) (host : Host) : Except FileFault Start := do
  if i.hasNul host then throw .invalidName
  let view ← i.viewOn host
  return ⟨view, i.blockOn host, ← view.findTool (i.searchPathOn host) program⟩

end Invocation

namespace Runner

/-- Nanoseconds that starting a program takes at least. -/
def startUp : Nat := 2000000

/-- Whether the clock of a host has an instant at which a time is up. -/
def hasDeadline (ceiling : Duration) (host : Host) : Bool :=
  host.uptime + ceiling.nanos < instantBound * Duration.perSecond

/-- Get the process of an invocation ready to start, with the time that it may take. -/
def ready (r : Runner) (i : Invocation) (host : Host) : Except Error (Duration × Start) :=
  match i.argv, r.ceiling? with
  | [], _ => .error (.execution .emptyCommand)
  | _ :: _, none => .error .clockOverflow
  | program :: _, some ceiling =>
    if hasDeadline ceiling host then
      match i.start program host with
      | .error fault => .error (.execution (.startFailed program fault))
      | .ok start => .ok (ceiling, start)
    else .error .clockOverflow

/-- Start a process and wait until it ends, but not longer than it may take. -/
def await (ceiling : Duration) (i : Invocation) (start : Start) : HostM Error ProcessOutput :=
  ExceptT.mk fun host =>
    let ended := launch start.view start.environment start.tool i.argv i.stdin
      (ceiling.nanos - startUp)
    let duration := startUp + ended.duration
    let host := (host.withTree ended.tree).later (min duration ceiling.nanos)
    match ended.status with
    | some status =>
      if duration > ceiling.nanos then (.error (.timeout ceiling), host)
      else (.ok ⟨Text.lossy ended.stdout, Text.lossy ended.stderr, status.code⟩, host)
    | none => (.error (.timeout ceiling), host)

/-- Run a process, unless it does not end in time. -/
def run (r : Runner) (i : Invocation) : HostM Error ProcessOutput := do
  let (ceiling, start) ← MonadExcept.ofExcept (r.ready i (← getThe Host))
  await ceiling i start

end Runner

end ScriptHost
