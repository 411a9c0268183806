import ScriptHost.Environment
import ScriptHost.Output

/-!
# Invocations

A process to start, and what is left of it once it has ended.
-/

namespace ScriptHost

/-- A process to start: program and arguments, changes to the inherited environment, what it can
read, and where it works. -/
structure Invocation where
  argv : List String
  environment : EnvironmentPatch
  stdin : Option ByteArray
  cwd : Option String

namespace Invocation

/-- A process in the inherited environment and directory, with nothing to read. -/
def new (argv : List String) : Invocation :=
  ⟨argv, .none, none, none⟩

end Invocation

/-- A process that has ended. One that was ended by a signal has the code `-1`. -/
structure ProcessOutput where
  stdout : String
  stderr : String
  exitCode : Int
  deriving DecidableEq, Repr

namespace ProcessOutput

/-- Whether the process says that it succeeded. -/
def success (o : ProcessOutput) : Bool :=
  o.exitCode == 0

/-- The output of a script that has ended in success. -/
def toOutput (o : ProcessOutput) : Output :=
  { Output.empty with stdout := o.stdout, stderr := o.stderr, exitCode := o.exitCode }

end ProcessOutput

end ScriptHost
