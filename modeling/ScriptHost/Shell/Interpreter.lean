import ScriptHost.Program.Search
import ScriptHost.Shell.Builtin
import ScriptHost.Shell.Expansion
import ScriptHost.Shell.Reader
import ScriptHost.Shell.Tool.Edit

/-!
# The shell and the programs it starts

`exec` runs a command on the machine. It is bounded in two ways: in the depth to which commands may
be nested in each other, and in the number of rounds of a loop. A process that reaches a bound is
taken for one that never ends.
-/

namespace ScriptHost.Shell

/-- The depth to which commands may be nested. -/
def maxDepth : Nat := 600

/-- The number of rounds that a loop may have. -/
def maxRounds : Nat := 1000000

/-- How a command is run. -/
abbrev Run := Command → Machine → Machine

/-! ## Processes -/

/-- Run something in a process of its own, a copy of the present one. The streams that it can write
to are open until it ends. -/
def inChild (body : Machine → Machine) (m : Machine) : Machine :=
  let pid := m.system.nextPid
  body { system := { m.system with nextPid := pid + 1 },
         process := { m.process with
          pid, jobs := [], loopDepth := 0, flow := .running, raised := [],
          traps := m.process.traps.filter (·.2.isEmpty) } }

/-- The status that a process leaves. -/
def leftStatus (m : Machine) : Nat :=
  match m.process.flow with
  | .signalled signal => Machine.signalStatus signal
  | _ => m.process.status

/-- Go on in the parent after a child has ended. -/
def rejoin (parent child : Machine) : Machine :=
  let child := child.holdStreams
  let m := Builtin.noticeEnds { system := child.system, process := parent.process }
  match child.process.flow with
  | .expired => m.withFlow .expired
  | .signalled signal =>
    let m := match Tool.signalText? signal with
      | some text => m.print 2 (text ++ "\n")
      | none => m
    arrive (m.withStatus (leftStatus child))
  | _ => arrive (m.withStatus child.process.status)
where
  /-- Take signals in the parent. One that ends it has done so when it came. -/
  arrive (m : Machine) : Machine :=
    let after := (Tool.handOn m).takeSignals
    match after.process.flow with
    | .signalled signal =>
      let sent := m.system.pending.find? fun s => s.pid == m.process.pid && s.signal == signal
      let time := max parent.system.now ((sent.map (·.time)).getD m.system.now)
      { after with system := { after.system with now := min m.system.now time } }
    | _ => after

/-- Run the trap at the end of a shell. -/
def atExit (runText : String → Machine → Machine) (m : Machine) : Machine :=
  match m.process.traps.lookup 0, m.process.flow with
  | none, _ | _, .expired | _, .signalled _ => m
  | some action, flow =>
    let status := m.process.status
    let after := runText action
      { m with process := { m.process with
        traps := m.process.traps.filter (·.1 != 0), flow := .running } }
    match after.process.flow with
    | .running => { after with process := { after.process with status, flow } }
    | _ => after

/-- Run a source line by line. -/
def runSource (run : Run) : Nat → Source → Machine → Machine
  | 0, _, m => m.withFlow .expired
  | fuel + 1, source, m =>
    if !m.isRunning then m
    else
      match Reader.line?.run source with
      | .error (line, fault) =>
        let m := { m with process := { m.process with line } }
        m.abort fault.message
      | .ok (none, _) => m
      | .ok (some command, rest) =>
        runSource run fuel rest (run command m)

/-- Run a text as a source. -/
def runText (run : Run) (text : String) (m : Machine) : Machine :=
  runSource run (text.length + 2) ⟨text.toList, 1⟩ m

/-- Run the traps of the signals that have arrived. The status of before is kept. -/
def runTraps (run : Run) (m : Machine) : Machine :=
  let raised := m.process.raised
  if raised.isEmpty || !m.isRunning then m
  else
    let status := m.process.status
    raised.foldr (fun signal m =>
      match m.process.traps.lookup signal with
      | some action =>
        let m := runText run action m
        if m.isRunning then m.withStatus status else m
      | none => m) { m with process := { m.process with raised := [] } }

/-- Run the commands of a word and take their output. -/
def substituteWith (run : Run) : Substitute := fun source m =>
  let (id, m) := m.newChannel (.stream [] 0 [])
  let child := inChild (fun c => runText run source (c.bind 1 id)) m
  let after := rejoin m child
  match after.system.channels[id]? with
  | some (.stream chunks _ holds) =>
    let after := after.waitUntil (Machine.lastHold holds)
    (Tool.textOf (Machine.streamData chunks), after)
  | _ => ("", after)

/-! ## Redirections -/

/-- Open a path for reading. -/
def openInput (path : String) (m : Machine) : Except String Channel :=
  match Tool.lookup m path with
  | .ok (place, .file _) | .ok (place, .program _) => .ok (.file place 0 false)
  | .ok (place, .directory) => .ok (.directory place)
  | .ok (_, .nullDevice) => .ok .null
  | .error .notFound => .error s!"cannot open {path}: No such file"
  | .error fault => .error s!"cannot open {path}: {fault.text}"

/-- Open a path for writing, making the file when it is missing. -/
def openOutput (path : String) (append keep : Bool) (m : Machine) : Except String (Channel × Machine) :=
  let name := Text.ofByteText path
  let cwd := m.process.cwd
  match m.system.tree.resolve cwd name with
  | .error .notFound => .error s!"cannot create {path}: Directory nonexistent"
  | .error fault => .error s!"cannot create {path}: {fault.text}"
  | .ok place =>
    match m.system.tree.node? place with
    | some .nullDevice => .ok (.null, m)
    | _ =>
      match m.system.tree.modify cwd name fun old => if append || keep then old else .empty with
      | .ok tree => .ok (.file place 0 append, m.withTree tree)
      | .error .notFound => .error s!"cannot create {path}: Directory nonexistent"
      | .error fault => .error s!"cannot create {path}: {fault.text}"

/-- Carry out redirections in order; the flag says whether all could be. -/
def redirect (substitute : Substitute) : List Redirect → Machine → Bool × Machine
  | [], m => (true, m)
  | r :: rest, m =>
    let (target, m) := Expansion.single substitute r.target m
    if !m.isRunning then (false, m)
    else
      let fail (message : String) : Bool × Machine := (false, (m.complain message).withStatus 2)
      let opened (c : Channel) (m : Machine) : Bool × Machine :=
        let (id, m) := m.newChannel c
        redirect substitute rest (m.bind r.descriptor id)
      match r.kind with
      | .document => opened (Machine.sourceOf (Text.bytesOfText target)) m
      | .input =>
        match openInput target m with
        | .ok c => opened c m
        | .error message => fail message
      | .output | .append =>
        match openOutput target (r.kind == .append) false m with
        | .ok (c, m) => opened c m
        | .error message => fail message
      | .readWrite =>
        match openOutput target false true m with
        | .ok (c, m) => opened c m
        | .error message => fail message
      | .duplicate =>
        if target == "-" then redirect substitute rest (m.unbind r.descriptor)
        else
          match target.toNat? with
          | none => (false, m.abort "Syntax error: Bad fd number")
          | some n =>
            match m.process.descriptors.lookup n with
            | some id => redirect substitute rest (m.bind r.descriptor id)
            | none => fail s!"{n}: Bad file descriptor"

/-- Go back to the descriptors of before. -/
def restoreDescriptors (before m : Machine) : Machine :=
  { m with process := { m.process with descriptors := before.process.descriptors } }

/-! ## Programs -/

/-- The programs that start no other programs. -/
def tool? (name : String) : Option Tool :=
  match name with
  | "cat" => some Tool.cat
  | "echo" => some Tool.echo
  | "printf" => some (Tool.printf true)
  | "ls" => some Tool.ls
  | "pwd" => some Tool.pwd
  | "wc" => some Tool.wc
  | "true" => some fun _ m => m.withStatus 0
  | "false" => some fun _ m => m.withStatus 1
  | "sleep" => some Tool.sleep
  | "kill" => some (Tool.kill true)
  | "grep" => some Tool.grep
  | "sed" => some Tool.sed
  | "sort" => some Tool.sort
  | "cp" => some Tool.cp
  | "touch" => some Tool.touch
  | "test" | "[" => some (Tool.test true)
  | "head" => some Tool.head
  | _ => none

/-- What `sh` was asked to do. -/
inductive ShellTask where
  | text (source name : String) (arguments : List String)
  | file (path : String) (arguments : List String)
  | standardInput (name : String) (arguments : List String)
  | missingText
  | badOption (option : String)

/-- The options of `sh`: what to do and which options of the shell are set. -/
def shellTask (name : String) (fromInput fromText : Bool) (set : List Char) :
    List String → ShellTask × List Char
  | [] => (if fromText then .missingText else .standardInput name [], set)
  | arg :: rest =>
    if (arg.startsWith "-" || arg.startsWith "+") && arg.length > 1 && arg != "--" then
      let on := arg.startsWith "-"
      let letters := arg.toList.drop 1
      let outcome : Except String (List Char) := if letters == ['o'] then .ok set
        else Builtin.switched on (letters.filter fun c => c != 'c' && c != 'l') set
      match outcome, letters, rest with
      | .error option, _, _ => (.badOption ((if on then "-" else "+") ++ option), [])
      | .ok set, ['o'], option :: rest =>
        match Builtin.switchedByName on option set with
        | .ok set => shellTask name fromInput fromText set rest
        | .error option => (.badOption ((if on then "-" else "+") ++ option), [])
      | .ok set, _, rest =>
        shellTask name (fromInput || letters.contains 's') (fromText || letters.contains 'c') set rest
    else
      let operands := if arg == "--" || arg == "-" then rest else arg :: rest
      match operands with
      | [] => (if fromText then .missingText else .standardInput name [], set)
      | first :: more =>
        if fromText then (.text first (more.headD name) (more.drop 1), set)
        else if fromInput then (.standardInput name operands, set)
        else (.file first more, set)

/-- The variables that a shell sets for itself at its start. -/
def ownVariables : Variables :=
  .ofPairs [("IFS", " \t\n"), ("OPTIND", "1"), (searchPathVariable, FileView.defaultSearchPath),
    ("PS2", "> "), ("PS4", "+ ")]

/-- The state of a shell that has just been started. Variables of the environment whose names are no
names for the shell are dropped. -/
def newShell (name : String) (arguments : List String) (set : List Char) (vars : Variables)
    (p : Process) : Process :=
  let vars := (vars.filter fun name _ => Reader.isName name).erase "IFS"
  { pid := p.pid
    cwd := p.cwd
    descriptors := p.descriptors
    vars := ((ownVariables.overlaidBy vars).insert "PWD" (Text.byteText (FileTree.pathOf p.cwd))).insert
      "OPTIND" "1"
    exported := "PWD" :: vars.keys
    readonly := []
    name
    shellPid := p.pid
    arguments
    functions := []
    status := 0
    flow := .running
    line := 1
    jobs := []
    lastJob := none
    options := set
    loopDepth := 0
    locals := none
    conditionDepth := 0
    traps := p.traps.filter (·.2.isEmpty)
    raised := []
    speaker := none
    optionOffset := 0 }

/-- Run a shell in the present process. -/
def runShell (run : Run) (argv : List String) (vars : Variables) (m : Machine) : Machine :=
  let name := argv.headD "sh"
  let (task, set) := shellTask name false false [] (argv.drop 1)
  let start (name : String) (arguments : List String) (m : Machine) : Machine :=
    { m with process := newShell name arguments set vars m.process }
  let finish (m : Machine) : Machine := atExit (runText run) m
  match task with
  | .text source name arguments => finish (runText run source (start name arguments m))
  | .missingText => ((start name [] m).print 2 s!"{name}: 0: -c requires an argument\n").withStatus 2
  | .badOption option => ((start name [] m).print 2 s!"{name}: 0: Illegal option {option}\n").withStatus 2
  | .standardInput name arguments =>
    let (data, m) := (start name arguments m).readAll 0
    finish (runText run (Tool.textOf data) m)
  | .file path arguments =>
    match m.system.tree.read m.process.cwd (Text.ofByteText path) with
    | .ok data => finish (runText run (Tool.textOf data) (start path arguments m))
    | .error fault =>
      let reason := if fault = .notFound then "No such file" else fault.text
      ((start name [] m).print 2 s!"{name}: 0: cannot open {path}: {reason}\n").withStatus 2

/-- The options of `env`: the environment, and the command with its arguments. -/
def envCommand : Nat → List String → List (String × String) → List (String × String) × List String
  | 0, _, vars => (vars, [])
  | _, [], vars => (vars, [])
  | fuel + 1, arg :: rest, vars =>
    if arg == "-i" || arg == "-" then envCommand fuel rest []
    else if arg == "--" then envCommand fuel rest vars
    else if arg == "-u" then envCommand fuel (rest.drop 1) (vars.filter (·.1 != rest.headD ""))
    else
      match Builtin.assignmentOf arg with
      | (name, some value) => envCommand fuel rest (withValue name value vars)
      | (_, none) => (vars, arg :: rest)
where
  /-- An environment with another value for a variable; a new variable comes last. -/
  withValue (name value : String) (vars : List (String × String)) : List (String × String) :=
    if vars.any (·.1 == name) then vars.map fun v => if v.1 == name then (name, value) else v
    else vars ++ [(name, value)]

/-- Run the tool that a program is in the present process, in an environment that is given in order. -/
def runTool (run : Run) : Nat → String → List String → List (String × String) → Machine → Machine
  | 0, _, _, _, m => m.withFlow .expired
  | fuel + 1, tool, argv, vars, m =>
    match tool with
    | "sh" => runShell run argv (.ofPairs vars) m
    | "env" =>
      let (vars, command) := envCommand (argv.length + 1) (argv.drop 1) vars
      match command with
      | [] => (m.print 1 (.join (vars.map fun (name, value) => s!"{name}={value}\n"))).withStatus 0
      | program :: _ =>
        let searchPath? := (vars.lookup searchPathVariable).map Text.ofByteText
        match m.view.findTool searchPath? (Text.ofByteText program) with
        | .ok tool => runTool run fuel tool command vars m
        | .error fault =>
          (m.print 2 s!"env: {Tool.quote program}: {fault.text}\n").withStatus
            (if fault = .notFound then 127 else 126)
    | tool =>
      match tool? tool with
      | some f => f argv m
      | none => m.withStatus 127

/-- Start a program for a command, in a process of its own unless the present one is given up. -/
def startProgram (run : Run) (inPlace : Bool) (argv : List String) (m : Machine) : Machine :=
  let program := argv.headD ""
  let searchPath := Text.ofByteText (m.process.vars.getD searchPathVariable "")
  match m.view.findTool searchPath (Text.ofByteText program) with
  | .error fault =>
    if fault = .notExecutable || fault = .isDirectory then
      (m.complain s!"{program}: Permission denied").withStatus 126
    else if program.contains '/' && fault = .notDirectory then
      (m.complain s!"{program}: {fault.text}").withStatus 126
    else (m.complain s!"{program}: not found").withStatus 127
  | .ok tool =>
    let body (c : Machine) : Machine := runTool run maxDepth tool argv m.environment c
    if inPlace then (body m).holdStreams else rejoin m (inChild body m)

/-! ## Commands -/

/-- Assign the values of words to variables; the flag says whether they are exported. The assignments
that were made come back. -/
def assign (substitute : Substitute) (exporting : Bool) :
    List (String × Word) → Machine → List (String × String) × Machine
  | [], m => ([], m)
  | (name, word) :: rest, m =>
    let (value, m) := Expansion.single substitute word m
    if !m.isRunning then ([], m)
    else if m.process.readonly.contains name then ([], m.abort s!"{name}: is read only")
    else
      let m := m.setVariable name value
      let (made, m) := assign substitute exporting rest
        (if exporting || m.hasOption 'a' then m.exportVariable name else m)
      ((name, value) :: made, m)

/-- Print what is about to be run, if the shell is told to, where its standard error was before the
redirections. -/
def trace (before : Machine) (assigned : List (String × String)) (fields : List String) (m : Machine) :
    Machine :=
  if m.hasOption 'x' && m.isRunning then
    let words := assigned.map (fun (name, value) => s!"{name}={value}") ++ fields
    let lead := (m.valueOf? "PS4").getD ""
    let printed := (restoreDescriptors before m).print 2 (lead ++ " ".intercalate words ++ "\n")
    restoreDescriptors m printed
  else m

/-- Give variables back the values and marks they had before. -/
def restoreVariables (names : List String) (before m : Machine) : Machine :=
  names.foldl (fun m name =>
    let m := match before.valueOf? name with
      | some value => m.setVariable name value
      | none => m.unsetVariable name
    let exported := m.process.exported.filter (· != name)
    { m with process := { m.process with
      exported := if before.process.exported.contains name then name :: exported else exported } }) m

/-- Leave the shell after a failure if it is told to. -/
def checkError (m : Machine) : Machine :=
  if m.isRunning && m.hasOption 'e' && m.process.status != 0 && m.process.conditionDepth = 0 then
    m.withFlow .exiting
  else m

/-- Run something whose failure is not an error of its own. -/
def asCondition (body : Machine → Machine) (m : Machine) : Machine :=
  let deeper (m : Machine) (d : Nat) : Machine :=
    { m with process := { m.process with conditionDepth := d } }
  let depth := m.process.conditionDepth
  deeper (body (deeper m (depth + 1))) depth

/-- Run the body of a function. -/
def callFunction (run : Run) (body : Command) (arguments : List String) (m : Machine) : Machine :=
  let outer := m.process
  let inner := run body { m with process := { m.process with
    arguments, locals := some [], loopDepth := 0 } }
  let locals := inner.process.locals.getD []
  let inner := locals.foldl (fun m (name, value) =>
    match value with
    | some value => m.setVariable name value
    | none => m.unsetVariable name) inner
  let flow := match inner.process.flow with
    | .returning | .breaking _ | .continuing _ => .running
    | flow => flow
  { inner with process := { inner.process with
    arguments := outer.arguments, locals := outer.locals, loopDepth := outer.loopDepth, flow } }

/-- How `command -v` and `type` name a command. -/
def commandName? (name : String) (m : Machine) : Option String :=
  if Reader.reservedWords.contains name then some name
  else if m.process.functions.any (·.1 == name) || Builtin.isBuiltin name then some name
  else
    let file (path : String) : Bool := (m.view.toolAt (Text.ofByteText path)).toBool
    if name.contains '/' then if file name then some name else none
    else
      let path := (m.valueOf? searchPathVariable).getD ""
      ((directoriesOf path).map (joinPath · name)).find? file

/-- Run a command by its words. The flag says that the present process is given up for it. -/
def runWords (run : Run) (inPlace skipFunctions : Bool) : Nat → List String → Machine → Machine
  | 0, _, m => m.withFlow .expired
  | fuel + 1, words, m =>
    let name := words.headD ""
    let args := words.drop 1
    let function? := if skipFunctions || Builtin.special.contains name then none
      else m.process.functions.lookup name
    match function?, Builtin.plain? name with
    | some body, _ => callFunction run body args m
    | none, some f => m.speakingAs name (f args)
    | none, none =>
      match name with
      | "eval" => m.speakingAs name fun m => runText run (" ".intercalate args) (m.withStatus 0)
      | "." => m.speakingAs name fun m =>
        match m.system.tree.read m.process.cwd (Text.ofByteText (args.headD "")) with
        | .ok data =>
          let m := runText run (Tool.textOf data) (m.withStatus 0)
          if m.process.flow == .returning then m.withFlow .running else m
        | .error _ => m.abort ("cannot open " ++ args.headD "" ++ ": No such file")
      | "exec" =>
        if args.isEmpty then m.withStatus 0
        else
          let m := m.speakingAs name (startProgram run true args)
          if m.isRunning then m.withFlow .exiting else m
      | "command" =>
        match args with
        | "-v" :: name :: _ =>
          match commandName? name m with
          | some found => (m.print 1 (found ++ "\n")).withStatus 0
          | none => m.withStatus 127
        | ["-v"] => m.withStatus 0
        | [] => m.withStatus 0
        | args => runWords run inPlace true fuel args m
      | "type" => args.foldl (fun m name =>
          match commandName? name m with
          | some found =>
            let text := if Reader.reservedWords.contains name then s!"{name} is a shell keyword\n"
              else if found.contains '/' then s!"{name} is {found}\n"
              else if m.process.functions.any (·.1 == name) then s!"{name} is a shell function\n"
              else if Builtin.special.contains name then s!"{name} is a special shell builtin\n"
              else s!"{name} is a shell builtin\n"
            m.print 1 text
          | none => (m.print 1 s!"{name}: not found\n").withStatus 127) (m.withStatus 0)
      | _ => startProgram run inPlace words m

/-- Run a simple command. -/
def runSimple (run : Run) (inPlace : Bool) (line : Nat) (assignments : List (String × Word))
    (words : List Word) (redirects : List Redirect) (m : Machine) : Machine :=
  let before := m
  let substitute := substituteWith run
  let m := { m with process := { m.process with line } }
  let (fields, m) := Expansion.allFields substitute words m
  if !m.isRunning then m
  else
    match fields with
    | [] =>
      let m := if words.isEmpty then m.withStatus 0 else m
      let (fine, m) := redirect substitute redirects m
      let m := restoreDescriptors before m
      if fine && m.isRunning then
        let (assigned, m) := assign substitute false assignments m
        if assigned.isEmpty then m else trace before assigned [] m
      else m
    | name :: _ =>
      let isSpecial := Builtin.special.contains name
      let (fine, m) := redirect substitute redirects m
      if !fine then
        let m := restoreDescriptors before m
        if isSpecial && m.isRunning then m.withFlow .exiting else m
      else
        let outer := m
        let (assigned, m) := assign substitute (!isSpecial) assignments m
        let m := trace before assigned fields m
        if !m.isRunning then restoreDescriptors before m
        else
          let m := runWords run inPlace false (maxDepth) fields m
          let m := if isSpecial || assignments.isEmpty then m
            else restoreVariables (assignments.map (·.1)) outer m
          if name == "exec" && fields.length = 1 then m else restoreDescriptors before m

/-- Rounds of a loop. The status of the last round is kept. -/
def rounds (test body : Machine → Machine) (untilTrue : Bool) : Nat → Nat → Machine → Machine
  | 0, _, m => m.withFlow .expired
  | n + 1, last, m =>
    let m := asCondition test m
    if !m.isRunning then m
    else if (m.process.status == 0) == untilTrue then m.withStatus last
    else
      let m := body m
      match m.process.flow with
      | .running => rounds test body untilTrue n m.process.status m
      | .continuing 1 => rounds test body untilTrue n m.process.status (m.withFlow .running)
      | _ => m

/-- A loop over texts. -/
def eachText (name : String) (body : Machine → Machine) : List String → Machine → Machine
  | [], m => m
  | text :: rest, m =>
    let m := if m.process.readonly.contains name then m.abort s!"{name}: is read only"
      else body (m.setVariable name text)
    match m.process.flow with
    | .running => eachText name body rest m
    | .continuing 1 => eachText name body rest (m.withFlow .running)
    | _ => m

/-- Run a loop, one level deeper; leaving several loops goes on outside. -/
def inLoop (body : Machine → Machine) (m : Machine) : Machine :=
  let m := body { m with process := { m.process with loopDepth := m.process.loopDepth + 1 } }
  let m := { m with process := { m.process with loopDepth := m.process.loopDepth - 1 } }
  match m.process.flow with
  | .breaking 1 | .breaking 0 => m.withFlow .running
  | .breaking (n + 1) => m.withFlow (.breaking n)
  | .continuing (n + 1) => if n = 0 then m.withFlow .running else m.withFlow (.continuing n)
  | _ => m

/-- The commands of a pipeline, each in a process of its own that reads what the one before it has
written. All start at the same time; the last one leaves its status. -/
def runStages (run : Run) (start : Nat) : List Command → Machine → Machine
  | [], m => m
  | [last], m => stage last m
  | first :: rest, m =>
    let outer := m
    let (id, m) := m.newChannel (.stream [] 0 [])
    let m := restoreDescriptors outer (stage first (m.bind 1 id))
    if m.process.flow == .expired then m
    else
      let ended := m.system.now
      let m := { m with system := { m.system with now := start } }
      let input := outer.process.descriptors.lookup 0
      let m := runStages run start rest (m.bind 0 id)
      let m := match input with
        | some id => m.bind 0 id
        | none => m.unbind 0
      m.waitUntil ended
where
  /-- One command in a process of its own. -/
  stage (c : Command) (m : Machine) : Machine :=
    rejoin m (inChild (run c) m)

/-- Start a command in the background: it runs to its end on a clock of its own. -/
def runBackground (run : Run) (runInPlace : Command → Option (Machine → Machine)) (body : Command)
    (m : Machine) : Machine :=
  let start := m.system.now
  let (id, m) := m.newChannel .null
  let pid := m.system.nextPid
  let child := inChild (fun c => match runInPlace body with
    | some f => f (c.bind 0 id)
    | none => (run body (c.bind 0 id)).holdStreams) m
  let expired := child.process.flow == .expired
  let ends := if expired then m.system.limit + 1 else child.system.now
  let child := if expired then
      { child with system := { child.system with now := ends } }.holdStreams else child
  let signal := match child.process.flow with
    | .signalled signal => some signal
    | _ => none
  let job : Job := ⟨pid, ends, leftStatus child, signal, false⟩
  let m : Machine := { system := { child.system with now := start }, process := m.process }
  { (m.withStatus 0) with process := { m.process with
    status := 0, jobs := job :: m.process.jobs, lastJob := some pid } }

/-- The first arm of a case distinction that a text falls under. -/
def chooseArm (substitute : Substitute) (text : String) :
    List (List Word × Command) → Machine → Option Command × Machine
  | [], m => (none, m)
  | (patterns, body) :: rest, m =>
    let (found, m) := patterns.foldl (fun (found, m) word =>
      if found then (found, m)
      else
        let (p, m) := Expansion.wordPattern substitute word m
        (Pattern.«matches» p text.toList, m)) (false, m)
    if found then (some body, m) else chooseArm substitute text rest m

/-- Run a command that may be nested to some depth. Under the option `n` commands are only read. -/
def exec : Nat → Command → Machine → Machine
  | 0, _, m => m.withFlow .expired
  | depth + 1, c, m =>
    if !m.isRunning || m.hasOption 'n' then m
    else
      let run : Run := exec depth
      match c with
      | .nothing => m
      | .simple line assignments words redirects =>
        checkError (runTraps run (runSimple run false line assignments words redirects m))
      | .sequence a b => run b (run a m)
      | .conjunction a b =>
        let m := asCondition (run a) m
        if m.isRunning && m.process.status == 0 then run b m else m
      | .disjunction a b =>
        let m := asCondition (run a) m
        if m.isRunning && m.process.status != 0 then run b m else m
      | .pipeline negated stages =>
        let m := if negated then asCondition (runPipe run stages) m else runPipe run stages m
        if negated && m.isRunning then m.withStatus (if m.process.status == 0 then 1 else 0)
        else checkError m
      | .background body =>
        runBackground run (fun c => match c with
          | .simple line assignments words redirects =>
            some (runSimple run true line assignments words redirects)
          | _ => none) body m
      | .subshell body =>
        checkError (runTraps run (rejoin m (inChild (fun c => atExit (runText run) (run body c)) m)))
      | .conditional test thenBranch elseBranch =>
        let m := asCondition (run test) m
        if !m.isRunning then m
        else if m.process.status == 0 then run thenBranch m
        else match elseBranch with
          | some c => run c m
          | none => m.withStatus 0
      | .loop untilTrue test body =>
        inLoop (rounds (run test) (run body) untilTrue maxRounds 0) m
      | .forEach name words body =>
        let (texts, m) := match words with
          | some words => Expansion.allFields (substituteWith run) words m
          | none => (m.process.arguments, m)
        if !m.isRunning then m
        else inLoop (eachText name (run body) texts) (m.withStatus 0)
      | .cases word arms =>
        let (text, m) := Expansion.single (substituteWith run) word m
        match chooseArm (substituteWith run) text arms m with
        | (some body, m) => run body (m.withStatus 0)
        | (none, m) => m.withStatus 0
      | .define name body =>
        { (m.withStatus 0) with process := { m.process with
          status := 0
          functions := (name, body) :: m.process.functions.filter (·.1 != name) } }
      | .redirected body line redirects =>
        let before := m
        let m := { m with process := { m.process with line } }
        let (fine, m) := redirect (substituteWith run) redirects m
        restoreDescriptors before (if fine then run body m else m)
where
  /-- Run the commands of a pipeline; a single one needs no process of its own. -/
  runPipe (run : Run) (stages : List Command) (m : Machine) : Machine :=
    match stages with
    | [c] => run c m
    | stages => runStages run m.system.now stages m

end ScriptHost.Shell
