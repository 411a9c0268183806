import ScriptHost.Shell.Interpreter

/-!
# Launching programs

A program is run as the first process of a machine of its own, with a stream for everything it can
read and two for what it writes. It has ended when it has left a status and no process holds one of
these two streams any more.
-/

namespace ScriptHost

/-- How a process ends. -/
inductive ExitStatus where
  | exited (code : Nat)
  | signalled (signal : Nat)
  deriving DecidableEq, Repr

namespace ExitStatus

/-- The code of an end; a signal leaves none and counts as `-1`. -/
def code : ExitStatus → Int
  | exited code => code
  | signalled _ => -1

end ExitStatus

/-- What a process leaves: the files, how it ended if it did, what it wrote, and the nanoseconds
until the end of everything that could still write. -/
structure Ended where
  tree : FileTree
  status : Option ExitStatus
  stdout : ByteArray
  stderr : ByteArray
  duration : Nat

namespace Shell

/-- The number of the first process of a machine. -/
def firstPid : Nat := 4242

/-- A machine with one process that has three descriptors. -/
def Machine.initial (view : FileView) (stdin : Option ByteArray) (limit : Nat) : Machine where
  system := {
    tree := view.tree
    channels := #[(match stdin with
      | some data => Machine.sourceOf data
      | none => .null), .stream [] 0 [], .stream [] 0 []]
    now := 0
    limit
    firstPid
    nextPid := firstPid + 1
    pending := [] }
  process := {
    pid := firstPid, cwd := view.cwd, descriptors := [(0, 0), (1, 1), (2, 2)], vars := .empty,
    exported := [], readonly := [], name := "", shellPid := firstPid, arguments := [],
    functions := [], status := 0, flow := .running, line := 1, jobs := [], lastJob := none,
    options := [], loopDepth := 0, locals := none,
    conditionDepth := 0, traps := [], raised := [], speaker := none, optionOffset := 0 }

/-- What was written to a stream of a machine, and the time until which it is held. -/
def Machine.written (m : Machine) (id : Nat) : ByteArray × Nat :=
  match m.system.channels[id]? with
  | some (.stream chunks _ holds) => (streamData chunks, lastHold holds)
  | _ => (.empty, 0)

end Shell

/-- Run the tool that a program is, with its own name first among the arguments. -/
def launch (view : FileView) (environment : EnvironmentBlock) (tool : String) (argv : List String)
    (stdin : Option ByteArray) (limit : Nat) : Ended :=
  let m := Shell.runTool (Shell.exec Shell.maxDepth) Shell.maxDepth tool (argv.map Text.byteText)
    (EnvironmentBlock.pairs (environment.map Text.byteText)) (.initial view stdin limit)
  let (stdout, stdoutHeld) := m.written 1
  let (stderr, stderrHeld) := m.written 2
  { tree := m.system.tree
    status := match m.process.flow with
      | .expired => none
      | .signalled signal => some (.signalled signal)
      | _ => some (.exited (m.process.status % 256))
    stdout
    stderr
    duration := max m.system.now (max stdoutHeld stderrHeld) }

end ScriptHost
