import ScriptHost.Shell.Reader
import ScriptHost.Shell.Tool.Control

/-!
# Commands of the shell itself

The commands that change the shell instead of starting a program, as far as they do not run other
commands. Special ones end the shell when they fail, and assignments before them stay. Faults are
reported in the name of the command.
-/

namespace ScriptHost.Shell.Builtin

/-- The special commands. -/
def special : List String :=
  [":", ".", "break", "continue", "eval", "exec", "exit", "export", "readonly", "return", "set",
    "shift", "times", "trap", "unset"]

/-- Report a fault of a special command, which ends the shell. -/
def fault (message : String) (m : Machine) : Machine :=
  m.abort message

/-- The number that an argument is, or the present status. The flag says whether it may have a sign. -/
def statusArgument (signed : Bool) (args : List String) (m : Machine) : Except Machine Nat :=
  match args with
  | [] => .ok m.process.status
  | s :: _ =>
    match s.toNat? with
    | some n => .ok (n % 256)
    | none =>
      match s.toInt? with
      | some n => if signed then .ok (n % 256).toNat else .error (fault s!"Illegal number: {s}" m)
      | none => .error (fault s!"Illegal number: {s}" m)

/-- End the shell. -/
def exit (args : List String) (m : Machine) : Machine :=
  match statusArgument false args m with
  | .error m => m
  | .ok n => (m.withStatus n).withFlow .exiting

/-- Leave the present function. -/
def «return» (args : List String) (m : Machine) : Machine :=
  match statusArgument true args m with
  | .error m => m
  | .ok n => (m.withStatus n).withFlow .returning

/-- Leave or continue some of the present loops. -/
def leaveLoops (flow : Nat → Flow) (args : List String) (m : Machine) : Machine :=
  match (args.headD "1").toNat? with
  | some 0 | none => fault ("Illegal number: " ++ args.headD "") m
  | some n =>
    if m.process.loopDepth = 0 then m.withStatus 0
    else (m.withStatus 0).withFlow (flow (min n m.process.loopDepth))

/-- An argument split at its first equals sign. -/
def assignmentOf (arg : String) : String × Option String :=
  match EnvironmentBlock.entryParts? arg with
  | some (name, value) => (name, some value)
  | none => (arg, none)

/-- What keeps a variable from being set, if anything does. -/
def obstacle? (m : Machine) (name : String) : Option String :=
  if !Reader.isName name then some s!"{name}: bad variable name"
  else if m.process.readonly.contains name then some s!"{name}: is read only"
  else none

/-- Set the variables among arguments that are assignments, and do something with every name. -/
def eachVariable (f : String → Machine → Machine) (args : List String) (m : Machine) : Machine :=
  args.foldl (fun m arg =>
    if !m.isRunning then m
    else
      let (name, value) := assignmentOf arg
      match value with
      | some value =>
        match obstacle? m name with
        | some message => fault message m
        | none => f name (m.setVariable name value)
      | none => if Reader.isName name then f name m else fault s!"{name}: bad variable name" m)
    (m.withStatus 0)

/-- A text in quotes: runs of single quotes stand in double ones. -/
def inQuotes (text : String) : String :=
  let runs := text.toList.splitBy fun a b => (a == '\'') == (b == '\'')
  if runs.isEmpty then "''"
  else
    let lead := if text.startsWith "'" then "''" else ""
    lead ++ .join (runs.map fun run =>
      let sign := if run.head? == some '\'' then "\"" else "'"
      sign ++ String.ofList run ++ sign)

/-- Print variables as assignments after a word. -/
def listVariables (word : String) (chosen : String → Bool) (m : Machine) : Machine :=
  let found := m.process.vars.toList.filter fun (name, _) => chosen name
  (m.print 1 (.join (found.map fun (name, value) => s!"{word}{name}={inQuotes value}\n"))).withStatus 0

/-- Mark variables, or list those that are marked. -/
def declare (word : String) (mark : String → Machine → Machine) (isMarked : Machine → String → Bool)
    (args : List String) (m : Machine) : Machine :=
  let names := args.filter (· != "-p")
  if names.isEmpty then listVariables (word ++ " ") (isMarked m) m else eachVariable mark names m

/-- Mark variables as readonly. -/
def markReadonly (name : String) (m : Machine) : Machine :=
  { m with process := { m.process with readonly := name :: m.process.readonly } }

/-- Make a variable local to the present function. -/
def makeLocal (name : String) (m : Machine) : Machine :=
  match m.process.locals with
  | some locals =>
    if locals.any (·.1 == name) then m
    else { m with process := { m.process with locals := some ((name, m.valueOf? name) :: locals) } }
  | none => m

/-- Declare variables local to the present function. -/
def «local» (args : List String) (m : Machine) : Machine :=
  match m.process.locals with
  | none => fault "not in a function" m
  | some _ => args.foldl (fun m arg =>
      let (name, value) := assignmentOf arg
      match obstacle? m name with
      | some message => fault message m
      | none =>
        let m := makeLocal name m
        match value with
        | some value => m.setVariable name value
        | none => m) (m.withStatus 0)

/-- Remove variables or functions. -/
def unset (args : List String) (m : Machine) : Machine :=
  match args with
  | "-f" :: names =>
    { (m.withStatus 0) with process := { m.process with
      status := 0
      functions := m.process.functions.filter fun (name, _) => !names.contains name } }
  | "-v" :: names | names => names.foldl (fun m name =>
      match obstacle? m name with
      | some message => fault message m
      | none => m.unsetVariable name) (m.withStatus 0)

/-- The names of the options of the shell, with their letters if they have one. -/
def optionNames : List (String × Option Char) :=
  [("errexit", 'e'), ("noglob", 'f'), ("ignoreeof", 'I'), ("interactive", 'i'), ("monitor", 'm'),
    ("noexec", 'n'), ("stdin", 's'), ("xtrace", 'x'), ("verbose", 'v'), ("vi", 'V'), ("emacs", 'E'),
    ("noclobber", 'C'), ("allexport", 'a'), ("notify", 'b'), ("nounset", 'u'), ("privileged", 'p'),
    ("nolog", none), ("debug", none)]

/-- The letters of options. -/
def optionLetters : List Char := optionNames.filterMap (·.2)

/-- The letters that are set after some of them are switched, or the first that is none. -/
def switched (on : Bool) (letters set : List Char) : Except String (List Char) :=
  letters.foldlM (fun set c =>
    if !optionLetters.contains c then .error (.singleton c)
    else .ok (if on then c :: set.filter (· != c) else set.filter (· != c))) set

/-- The letters that are set after an option is switched by its name. -/
def switchedByName (on : Bool) (name : String) (set : List Char) : Except String (List Char) :=
  match optionNames.lookup name with
  | none => .error s!"o {name}"
  | some none => .ok set
  | some (some c) => switched on [c] set

/-- The state of all options as text. -/
def optionReport (on : Bool) (m : Machine) : String :=
  let isSet (c : Option Char) : Bool := c.any m.hasOption
  if on then
    "Current option settings\n" ++ .join (optionNames.map fun (name, c) =>
      name ++ .ofList (List.replicate (16 - name.length) ' ') ++ (if isSet c then "on" else "off") ++ "\n")
  else .join (optionNames.map fun (name, c) =>
    "set " ++ (if isSet c then "-o " else "+o ") ++ name ++ "\n")

/-- Change the options of the shell, or its arguments. -/
def set (args : List String) (m : Machine) : Machine :=
  let options (letters : List Char) (m : Machine) : Machine :=
    { m with process := { m.process with options := letters } }
  let arguments (words : List String) (m : Machine) : Machine :=
    { m with process := { m.process with arguments := words } }
  let rec go : Nat → List String → Machine → Machine
    | 0, _, m => m
    | _, [], m => m
    | _, "--" :: rest, m => arguments rest m
    | _, "-" :: rest, m => if rest.isEmpty then m else arguments rest m
    | fuel + 1, arg :: rest, m =>
      let on := arg.startsWith "-"
      if (arg == "-o" || arg == "+o") && rest.isEmpty then m.print 1 (optionReport on m)
      else if on || arg.startsWith "+" then
        let letters := arg.toList.drop 1
        let outcome : Except String (List Char × List String) :=
          if letters == ['o'] then
            (switchedByName on (rest.headD "") m.process.options).map (·, rest.drop 1)
          else (switched on letters m.process.options).map (·, rest)
        match outcome with
        | .ok (set, rest) => go fuel rest (options set m)
        | .error option => fault ("Illegal option " ++ (if on then "-" else "+") ++ option) m
      else arguments (arg :: rest) m
  if args.isEmpty then listVariables "" (fun _ => true) m
  else go (args.length + 1) args (m.withStatus 0)

/-- Drop the first arguments of the shell. -/
def shift (args : List String) (m : Machine) : Machine :=
  match (args.headD "1").toNat? with
  | none => fault ("Illegal number: " ++ args.headD "") m
  | some n =>
    if n > m.process.arguments.length then fault "can't shift that many" m
    else
      let m := m.withStatus 0
      { m with process := { m.process with arguments := m.process.arguments.drop n } }

/-- The working directory as the shell knows it. -/
def directoryText (m : Machine) : String :=
  Text.byteText (FileTree.pathOf m.process.cwd)

/-- Change the working directory. -/
def cd (args : List String) (m : Machine) : Machine :=
  let args := if args.head? == some "--" then args.drop 1 else args
  let target := match args with
    | [] => m.valueOf? "HOME"
    | "-" :: _ => m.valueOf? "OLDPWD"
    | path :: _ => some path
  match target with
  | none => m.withStatus 0
  | some path =>
    match Tool.lookup m path with
    | .ok (place, .directory) =>
      let old := directoryText m
      let m := { m with process := { m.process with cwd := place } }
      let m := (m.setVariable "OLDPWD" old).setVariable "PWD" (directoryText m)
      let m := (m.exportVariable "OLDPWD").exportVariable "PWD"
      let m := if args.head? == some "-" then m.print 1 (directoryText m ++ "\n") else m
      m.withStatus 0
    | _ => (m.complain s!"can't cd to {path}").withStatus 2

/-- A line of input: its characters with the mark whether they are escaped, and whether its end was
found. A backslash before a line end joins lines. -/
def inputLine (raw : Bool) : Nat → List Char → List (Char × Bool) × Nat × Bool
  | n, [] => ([], n, false)
  | n, '\n' :: _ => ([], n + 1, true)
  | n, ['\\'] => if raw then ([('\\', false)], n + 1, false) else ([], n + 1, false)
  | n, '\\' :: c :: rest =>
    if raw then
      let (line, k, ended) := inputLine raw (n + 1) (c :: rest)
      (('\\', false) :: line, k, ended)
    else
      let (line, k, ended) := inputLine raw (n + 2) rest
      (if c == '\n' then line else (c, true) :: line, k, ended)
  | n, c :: rest =>
    let (line, k, ended) := inputLine raw (n + 1) rest
    ((c, false) :: line, k, ended)

/-- The texts for a number of names: all but the last get a field, the last one gets what is left. -/
def distribute (separators : List Char) : Nat → List (Char × Bool) → List String
  | 0, _ => []
  | n + 1, line =>
    let separates (p : Char × Bool) : Bool := !p.2 && separators.contains p.1
    let isBlank (p : Char × Bool) : Bool :=
      separates p && (p.1 == ' ' || p.1 == '\t' || p.1 == '\n')
    let line := line.dropWhile isBlank
    if n = 0 then
      let trimmed := (line.reverse.dropWhile isBlank).reverse
      -- A single separator after a single field does not belong to it.
      let field := trimmed.takeWhile (!separates ·)
      let after := (trimmed.drop field.length).dropWhile isBlank
      let trimmed := match after with
        | [last] => if separates last then field else trimmed
        | _ => trimmed
      [.ofList (trimmed.map (·.1))]
    else
      let field := line.takeWhile (!separates ·)
      let rest := (line.drop field.length).dropWhile isBlank
      let rest := match rest, (line.drop field.length).head? with
        | p :: more, some q => if separates p && !isBlank p && (isBlank q || p == q) then more else rest
        | rest, _ => rest
      .ofList (field.map (·.1)) :: distribute separators n rest

/-- Read a line into variables. -/
def read (args : List String) (m : Machine) : Machine :=
  let raw := args.head? == some "-r"
  let names := if raw then args.drop 1 else args
  let obstacle := names.findSome? (obstacle? m)
  if names.isEmpty then (m.complain "arg count").withStatus 2
  else if let some message := obstacle then (m.complain message).withStatus 2
  else
    let (line, length, ended) := inputLine raw 0 (Text.charsOfBytes (m.unread 0))
    let m := m.consume 0 length
    let m := if ended then m else (m.readAll 0).2
    let values := distribute m.fieldSeparators names.length line
    let m := (names.zip values).foldl (fun m (name, value) => m.setVariable name value) m
    m.withStatus (if ended then 0 else 1)

/-- Take note of the ends of processes in the background. -/
def noticeEnds (m : Machine) : Machine :=
  { m with process := { m.process with jobs := m.process.jobs.map fun job =>
    if job.ends ≤ m.system.now then { job with noticed := true } else job } }

/-- The first signal that arrives while the shell waits until some time, or at its end. -/
def interruption? (target : Nat) (m : Machine) : Option Sent :=
  (m.system.pending.reverse.mergeSort fun a b => decide (a.time ≤ b.time)).find? fun s =>
    s.pid == m.process.pid && s.time ≤ target && m.process.traps.lookup s.signal != some ""

/-- End waiting because a signal arrives. -/
def interrupted (s : Sent) (m : Machine) : Machine :=
  ((m.waitUntil s.time).withStatus (Machine.signalStatus s.signal)).takeSignals

/-- Wait for processes in the background. -/
def wait (args : List String) (m : Machine) : Machine :=
  match args with
  | [] =>
    let target := (m.process.jobs.map (·.ends)).foldl max 0
    match interruption? target m with
    | some s => interrupted s m
    | none => noticeEnds ((m.waitUntil target).withStatus 0)
  | pids => pids.foldl (fun m pid =>
      match pid.toNat? with
      | none => (m.complain s!"Illegal number: {pid}").withStatus 2
      | some n =>
        match m.process.jobs.find? (·.pid == n) with
        | none => m.withStatus 127
        | some job =>
          if let some s := interruption? job.ends m then interrupted s m else
          let m := m.waitUntil job.ends
          let m := match job.signal.bind Tool.signalText? with
            | some text => if job.noticed then m else m.print 2 (text ++ "\n")
            | none => m
          noticeEnds (m.withStatus job.status)) m

/-- The signal that an argument of `trap` names; zero is the end of the shell. -/
def trapped? (s : String) : Option Nat :=
  if s.map Char.toUpper == "EXIT" then some 0
  else match s.toNat? with
    | some n => if n < 65 then some n else none
    | none => Tool.signals.lookup (s.map Char.toUpper)

/-- What is run on a signal, as a command. -/
def trapText (signal : Nat) (action : String) : String :=
  let name := if signal = 0 then "EXIT"
    else ((Tool.signals.find? (·.2 == signal)).map (·.1)).getD (toString signal)
  s!"trap -- {inQuotes action} {name}\n"

/-- Set what is run on signals and at the end of the shell, or list it. -/
def trap (args : List String) (m : Machine) : Machine :=
  let args := if args.head? == some "--" then args.drop 1 else args
  match args with
  | [] =>
    let sorted := m.process.traps.mergeSort fun a b => decide (a.1 ≤ b.1)
    (m.print 1 (.join (sorted.map fun (signal, action) => trapText signal action))).withStatus 0
  | first :: rest =>
    let (action, names) : Option String × List String :=
      if rest.isEmpty || (trapped? first).isSome then (none, args)
      else (if first == "-" then none else some first, rest)
    names.foldl (fun m name =>
      if m.process.status != 0 then m
      else match trapped? name with
        | none => (m.print 2 s!"trap: {name}: bad trap\n").withStatus 1
        | some signal =>
          let others := m.process.traps.filter (·.1 != signal)
          { m with process := { m.process with traps := match action with
            | some action => (signal, action) :: others
            | none => others } }) (m.withStatus 0)

/-- An option that `getopts` found: its letter, its argument, what is said about it, and the index and
offset at which reading goes on. -/
structure FoundOption where
  letter : Char
  argument : Option String
  message : Option String
  next : Nat
  offset : Nat

/-- The next option among arguments, given by the index and offset of the next character to read. -/
def nextOption? (options : List Char) (args : List String) (index offset : Nat) : Option FoundOption := do
  let (word, index, offset) ← (match (if offset > 0 && index > 1 then args[index - 2]? else none) with
    | some word => if offset < word.length then some (word, index, offset) else fresh index
    | none => fresh index)
  let letter ← word.toList[offset]?
  let isLast := offset + 1 ≥ word.length
  let offset := if isLast then 0 else offset + 1
  let quiet := options.head? == some ':'
  match (options.dropWhile (· != letter)).drop 1 with
  | ':' :: _ =>
    if letter == ':' then return unknown quiet letter index offset
    else if !isLast then
      return ⟨letter, some (.ofList (word.toList.drop offset)), none, index, 0⟩
    else match args[index - 1]? with
      | some argument => return ⟨letter, some argument, none, index + 1, 0⟩
      | none =>
        if quiet then return ⟨':', some (.singleton letter), none, index, 0⟩
        else return ⟨'?', none, some s!"No arg for -{letter} option\n", index, 0⟩
  | _ =>
    if letter != ':' && options.contains letter then return ⟨letter, some "", none, index, offset⟩
    else return unknown quiet letter index offset
where
  /-- The word at an index, if it holds options, and where reading goes on. -/
  fresh (index : Nat) : Option (String × Nat × Nat) := do
    let word ← args[index - 1]?
    if word.startsWith "-" && word.length > 1 && word != "--" then some (word, index + 1, 1) else none
  /-- An option that is not known. -/
  unknown (quiet : Bool) (letter : Char) (index offset : Nat) : FoundOption :=
    if quiet then ⟨'?', some (.singleton letter), none, index, offset⟩
    else ⟨'?', none, some s!"Illegal option -{letter}\n", index, offset⟩

/-- Read the next option of the shell or of given arguments into a variable. -/
def getopts (args : List String) (m : Machine) : Machine :=
  match args with
  | options :: name :: given =>
    let words := if given.isEmpty then m.process.arguments else given
    let index := max 1 (((m.valueOf? "OPTIND").bind String.toNat?).getD 1)
    let offset := if index ≤ 1 then 0 else m.process.optionOffset
    match nextOption? options.toList words index offset with
    | some found =>
      let m := m.setVariable name (.singleton found.letter)
      let m := m.setVariable "OPTIND" (toString found.next)
      let m := match found.argument with
        | some argument => m.setVariable "OPTARG" argument
        | none => m.unsetVariable "OPTARG"
      let m := { m with process := { m.process with optionOffset := found.offset } }
      (m.print 2 (found.message.getD "")).withStatus 0
    | none =>
      let index := if words[index - 1]? == some "--" then index + 1 else index
      let m := (m.setVariable name "?").setVariable "OPTIND" (toString index)
      { (m.withStatus 1) with process := { m.process with status := 1, optionOffset := 0 } }
  | _ => fault "Usage: getopts optstring var [arg...]" m

/-- The commands that run no other commands. -/
def plain? (name : String) : Option (List String → Machine → Machine) :=
  match name with
  | ":" | "true" => some fun _ m => m.withStatus 0
  | "false" => some fun _ m => m.withStatus 1
  | "echo" => some fun args => Tool.shellEcho (name :: args)
  | "printf" => some fun args => Tool.printf false (name :: args)
  | "test" | "[" => some fun args => Tool.test false (name :: args)
  | "kill" => some fun args => Tool.kill false (name :: args)
  | "pwd" => some fun args => Tool.pwd (name :: args)
  | "cd" | "chdir" => some cd
  | "exit" => some exit
  | "return" => some «return»
  | "break" => some (leaveLoops .breaking)
  | "continue" => some (leaveLoops .continuing)
  | "export" => some (declare name (fun name m => m.exportVariable name) fun m name =>
      m.process.exported.contains name)
  | "readonly" => some (declare name markReadonly fun m name => m.process.readonly.contains name)
  | "local" => some «local»
  | "unset" => some unset
  | "set" => some set
  | "shift" => some shift
  | "read" => some read
  | "wait" => some wait
  | "trap" => some trap
  | "umask" => some fun args m =>
      (if args.isEmpty then m.print 1 "0022\n" else m).withStatus 0
  | "getopts" => some getopts
  | "alias" | "unalias" => some fun args m => args.foldl (fun m arg =>
      if arg.contains '=' then m else (m.print 2 s!"{name}: {arg} not found\n").withStatus 1) (m.withStatus 0)
  | "times" | "ulimit" | "hash" | "bg" | "fg" | "jobs" => some fun _ m => m.withStatus 0
  | _ => none

/-- The commands that run other commands. -/
def running : List String := ["eval", ".", "exec", "command", "type"]

/-- Whether a name is a command of the shell. -/
def isBuiltin (name : String) : Bool :=
  (plain? name).isSome || running.contains name

end ScriptHost.Shell.Builtin
