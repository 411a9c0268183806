import ScriptHost.Shell.Format
import ScriptHost.Shell.Tool.Files
import ScriptHost.Shell.Tool.Test

/-!
# Tools that print, wait and signal

What `echo`, `printf`, `test`, `sleep` and `kill` do, both as programs and inside the shell, where
some of them differ.
-/

namespace ScriptHost.Shell.Tool

/-- The leading arguments of `echo` that are options when it is a program. -/
def echoOptions : List String → List Char × List String
  | [] => ([], [])
  | arg :: rest =>
    if arg.length > 1 && arg.startsWith "-" && (arg.toList.drop 1).all ("neE".toList.contains ·) then
      let (more, words) := echoOptions rest
      (arg.toList.drop 1 ++ more, words)
    else ([], arg :: rest)

/-- Print arguments, as a program. -/
def echo : Tool := fun argv m =>
  let (options, words) := echoOptions (argv.drop 1)
  let escapes := (options.reverse.find? fun c => c == 'e' || c == 'E') == some 'e'
  let text := " ".intercalate words
  let (cs, stopped) := if escapes then Format.unescaped Format.requestedEscapes text
    else (text.toList, false)
  (m.print 1 (.ofList cs ++ (if stopped || options.contains 'n' then "" else "\n"))).withStatus 0

/-- Print arguments, inside the shell. -/
def shellEcho : Tool := fun argv m =>
  let words := argv.drop 1
  let silent := words.head? == some "-n"
  let (cs, stopped) := Format.unescaped Format.echoEscapes
    (" ".intercalate (if silent then words.drop 1 else words))
  (m.print 1 (.ofList cs ++ (if stopped || silent then "" else "\n"))).withStatus 0

/-- What is said about an argument that should be a number. -/
def numberFaultText (program : Bool) : Format.NumberFault → String
  | .notNumeric s => if program then s!"{quote s}: expected a numeric value" else s!"{s}: expected numeric value"
  | .partlyConverted s =>
    if program then s!"{quote s}: value not completely converted" else s!"{s}: not completely converted"
  | .outOfRange s => (if program then quote s else s) ++ ": Numerical result out of range"

/-- Print arguments under a format; the flag says whether it is a program. -/
def printf (program : Bool) : Tool := fun argv m =>
  let name := argv.headD "printf"
  let complain (m : Machine) (message : String) : Machine :=
    if program then m.print 2 s!"{name}: {message}\n" else m.complain message
  let operands := if argv[1]? == some "--" then argv.drop 2 else argv.drop 1
  match operands with
  | [] =>
    if program then report name s!"missing operand\nTry '{name} --help' for more information." 1 m
    else (m.complain "usage: printf format [arg ...]").withStatus 2
  | format :: arguments =>
    if !program && argv[1]? != some "--" && format.startsWith "-" && format.length > 1 then
      (m.complain ("Illegal option " ++ .ofList (format.toList.take 2))).withStatus 2
    else
      let (o, left) := Format.printf program format (arguments.length + 1) arguments
      let m := o.faults.foldl (fun m fault => complain m (numberFaultText program fault)) m
      let m := m.print 1 (.ofList o.text)
      match o.ending with
      | .missingConversion =>
        if program then (complain m "%: invalid conversion specification").withStatus 1
        else (complain m "missing format character").withStatus 2
      | .badDirective text =>
        if program then (complain m s!"{text}: invalid conversion specification").withStatus 1
        else (complain m s!"{text}: invalid directive").withStatus 2
      | _ =>
        let m := match left with
          | extra :: _ =>
            if program && o.ending == Format.Ending.complete then
              complain m s!"warning: ignoring excess arguments, starting with {quote extra}"
            else m
          | [] => m
        m.withStatus (if o.faults.isEmpty then 0 else 1)

/-- Test a condition; the flag says whether it is a program. -/
def test (program : Bool) : Tool := fun argv m =>
  let name := argv.headD "test"
  let complain (message : String) : Machine :=
    (if program then m.print 2 s!"{name}: {message}\n" else m.complain message).withStatus 2
  let conditions := argv.drop 1
  let bracket := name == "[" || name.endsWith "/["
  if bracket && conditions.getLast? != some "]" then
    complain (if program then "missing ']'" else "missing ]")
  else
    let eval := if program then Test.evalByCount else Test.eval
    match eval m.view (if bracket then conditions.dropLast else conditions) with
    | .ok value => m.withStatus (if value then 0 else 1)
    | .error message => complain message

/-- The nanoseconds that a text of seconds stands for, with a fraction and a unit if it has them. -/
def interval? (s : String) : Option Nat :=
  let cs := s.toList
  let whole := cs.takeWhile Char.isDigit
  let rest := cs.drop whole.length
  let (fraction, rest) := match rest with
    | '.' :: rest => (rest.takeWhile Char.isDigit, rest.dropWhile Char.isDigit)
    | rest => ([], rest)
  let scale? : Option Nat := match rest with
    | [] | ['s'] => some 1
    | ['m'] => some 60
    | ['h'] => some 3600
    | ['d'] => some 86400
    | _ => none
  if whole.isEmpty && fraction.isEmpty then none
  else scale?.map fun scale =>
    let digits := (fraction ++ List.replicate 9 '0').take 9
    let value (cs : List Char) : Nat := cs.foldl (fun n c => 10 * n + (c.toNat - '0'.toNat)) 0
    (value whole * 1000000000 + value digits) * scale

/-- Wait for some time. -/
def sleep : Tool := fun argv m =>
  let name := argv.headD "sleep"
  let times := if argv[1]? == some "--" then argv.drop 2 else argv.drop 1
  let endless (s : String) : Bool := s == "infinity" || s == "inf"
  let isOption (s : String) : Bool := s.startsWith "-" && s.length > 1
  match times.find? isOption with
  | some option => badOption name (.ofList ((option.toList.drop 1).take 1)) 1 m
  | none =>
    if times.isEmpty then
      report name s!"missing operand\nTry '{name} --help' for more information." 1 m
    else match times.find? fun s => (interval? s).isNone && !endless s with
      | some bad =>
        report name s!"invalid time interval {quote bad}\nTry '{name} --help' for more information." 1 m
      | none =>
        if times.any endless then m.withFlow .expired
        else (m.elapse ((times.filterMap interval?).foldr (· + ·) 0)).withStatus 0

/-- The names of the signals. -/
def signals : List (String × Nat) :=
  [("HUP", 1), ("INT", 2), ("QUIT", 3), ("ILL", 4), ("TRAP", 5), ("ABRT", 6), ("BUS", 7), ("FPE", 8),
    ("KILL", 9), ("USR1", 10), ("SEGV", 11), ("USR2", 12), ("PIPE", 13), ("ALRM", 14), ("TERM", 15),
    ("CHLD", 17), ("CONT", 18), ("STOP", 19), ("TSTP", 20), ("TTIN", 21), ("TTOU", 22), ("URG", 23),
    ("XCPU", 24), ("XFSZ", 25), ("VTALRM", 26), ("PROF", 27), ("WINCH", 28), ("IO", 29), ("PWR", 30),
    ("SYS", 31)]

/-- The signal of a name or number. A program also takes names with `SIG` in front. -/
def signal? (program : Bool) (s : String) : Option Nat :=
  match s.toNat? with
  | some n => if n < 65 then some n else none
  | none =>
    let name := s.map Char.toUpper
    signals.lookup (if program && name.startsWith "SIG" then .ofList (name.toList.drop 3) else name)

/-- Whether a signal ends a process that does not care for it. -/
def isDeadly (signal : Nat) : Bool :=
  signal != 0 && !([17, 18, 19, 20, 21, 22, 23, 28].contains signal)

/-- The words by which the shell reports that a signal ended a process. -/
def signalText? : Nat → Option String
  | 1 => some "Hangup"
  | 3 => some "Quit"
  | 4 => some "Illegal instruction"
  | 6 => some "Aborted"
  | 7 => some "Bus error"
  | 8 => some "Floating point exception"
  | 9 => some "Killed"
  | 10 => some "User defined signal 1"
  | 11 => some "Segmentation fault"
  | 12 => some "User defined signal 2"
  | 14 => some "Alarm clock"
  | 15 => some "Terminated"
  | _ => none

/-- Send a signal to a process. -/
def sendSignal (signal pid : Nat) (m : Machine) : Machine :=
  if pid = m.process.pid then
    if isDeadly signal || m.process.traps.any (·.1 == signal) then m.receive signal else m
  else if !isDeadly signal then m
  else
    match m.process.jobs.find? (·.pid == pid) with
    | some job =>
      if job.ends ≤ m.system.now then m
      else
        let ended : Job := { job with
          ends := m.system.now, status := Machine.signalStatus signal, signal := some signal }
        let m := m.silence pid
        { m with process := { m.process with
          jobs := m.process.jobs.map fun j => if j.pid == pid then ended else j } }
    | none => { m with system := { m.system with
        pending := ⟨pid, signal, m.system.now⟩ :: m.system.pending } }

/-- Hand the signals on that were sent to processes in the background. -/
def handOn (m : Machine) : Machine :=
  let (mine, others) := m.system.pending.partition fun s => m.process.jobs.any (·.pid == s.pid)
  mine.foldr (fun s m => sendSignal s.signal s.pid m) { m with system := { m.system with pending := others } }

/-- Whether a process that a signal can be sent to is there. -/
def isAlive (m : Machine) (pid : Nat) : Bool :=
  pid == m.process.pid || m.process.jobs.any (fun j => j.pid == pid && (!j.noticed || j.ends > m.system.now))
    -- Processes that were started earlier and are still there wait for this one or run beside it.
    || (m.system.firstPid ≤ pid && pid < m.process.pid && m.process.jobs.all (·.pid != pid))

/-- The name of the signal that a number or the status of a process stands for. -/
def signalName? (s : String) : Option String := do
  let n ← s.toNat?
  let n := if n > 128 then n - 128 else n
  if n = 0 || n > 64 then none
  else some (((signals.find? (·.2 == n)).map (·.1)).getD (toString n))

/-- What `kill` was asked to do. -/
inductive KillTask where
  | send (signal : Nat) (operands : List String)
  | list (operands : List String)
  | badOption (letter : Char)
  | badSignal (name : String)

/-- The options of `kill`. -/
def killTask (program : Bool) : List String → KillTask
  | "-s" :: s :: rest =>
    match signal? program s with
    | some signal => .send signal rest
    | none => .badSignal s
  | "-l" :: rest => .list rest
  | "--" :: rest => .send 15 rest
  | arg :: rest =>
    match arg.toList with
    | '-' :: c :: more =>
      match signal? program (.ofList (c :: more)) with
      | some signal => .send signal (if rest.head? == some "--" then rest.drop 1 else rest)
      | none => .badOption c
    | _ => .send 15 (arg :: rest)
  | [] => .send 15 []

/-- Send a signal to processes. -/
def kill (program : Bool) : Tool := fun argv m =>
  let name := argv.headD "kill"
  let complain (message : String) (m : Machine) : Machine :=
    if program then m.print 2 s!"{name}: {message}\n" else m.complain message
  match killTask program (argv.drop 1) with
  | .badOption letter => (complain s!"Illegal option -{letter}" m).withStatus 2
  | .badSignal s => (complain s!"invalid signal number or name: {s}" m).withStatus 2
  | .list operands =>
    match operands with
    | [] => (m.print 1 (.join ("0\n" :: signals.map fun (name, _) => name ++ "\n"))).withStatus 0
    | operand :: _ =>
      match signalName? operand with
      | some found => (m.print 1 (found ++ "\n")).withStatus 0
      | none => (complain s!"Illegal number: {operand}" m).withStatus 2
  | .send signal operands =>
    if operands.isEmpty then
      (complain "Usage: kill [-s sigspec | -signum | -sigspec] [pid | job]... or\nkill -l [exitstatus]"
        m).withStatus 2
    else operands.foldl (fun m operand =>
      match operand.toNat? with
      | none =>
        if operand.startsWith "%" && !program then (complain "No such process\n" m).withStatus 1
        else (complain s!"Illegal number: {operand}" m).withStatus 2
      | some pid =>
        if isAlive m pid then sendSignal signal pid m
        else (complain (if program then "No such process" else "No such process\n") m).withStatus 1)
      (m.withStatus 0)

end ScriptHost.Shell.Tool
