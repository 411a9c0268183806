import ScriptHost.Shell.Machine

/-!
# Tools for files

What `cat`, `ls`, `cp`, `touch` and `pwd` do. A tool is a function of its arguments, its own name first,
and the machine. Paths and contents are texts of bytes.
-/

namespace ScriptHost.Shell

/-- What a program does: given its arguments it changes the machine and leaves a status. -/
abbrev Tool := List String → Machine → Machine

namespace Tool

/-- Report a fault on standard error; the tool fails in the end. -/
def report (tool message : String) (status : Nat) (m : Machine) : Machine :=
  (m.print 2 s!"{tool}: {message}\n").withStatus status

/-- A path with the quotes of messages. -/
def quote (path : String) : String := s!"'{path}'"

/-- What a path leads to. -/
def lookup (m : Machine) (path : String) : Except FileFault (List String × Node) :=
  m.system.tree.lookup m.process.cwd (Text.ofByteText path)

/-- The content of a file, or of standard input for a dash. -/
def readInput (path : String) (m : Machine) : Except FileFault ByteArray × Machine :=
  if path == "-" then
    match m.channelOf? 0 with
    | some (_, .directory _) => (.error .isDirectory, m)
    | _ =>
      let (data, m) := m.readAll 0
      (.ok data, m)
  else (m.system.tree.read m.process.cwd (Text.ofByteText path), m)

/-- The option in an argument that is not known: a whole word after two dashes, or a letter. -/
def unknownOption? (known : List Char) (arg : String) : Option String :=
  if arg.startsWith "--" then some arg
  else ((arg.toList.drop 1).find? fun c => !known.contains c).map String.singleton

/-- Single-letter options that take no value: the letters, the operands, or the first unknown one. -/
def flags (known : List Char) : List String → Except String (List Char × List String)
  | [] => .ok ([], [])
  | "--" :: rest => .ok ([], rest)
  | arg :: rest =>
    if arg.startsWith "-" && arg.length > 1 then
      match unknownOption? known arg with
      | some option => .error option
      | none => do
        let (more, operands) ← flags known rest
        return (arg.toList.drop 1 ++ more, operands)
    else do
      let (more, operands) ← flags known rest
      return (more, arg :: operands)

/-- Refuse an option. -/
def badOption (tool option : String) (status : Nat) (m : Machine) : Machine :=
  let fault := if option.startsWith "--" then s!"unrecognized option '{option}'"
    else s!"invalid option -- '{option}'"
  (m.print 2 s!"{tool}: {fault}\nTry '{tool} --help' for more information.\n").withStatus status

/-- The parts of a text between line ends; the last line may lack its end. -/
def linesOf (text : String) : List String :=
  let pieces := text.splitOn "\n"
  if pieces.getLast? == some "" then pieces.dropLast else pieces

/-- The text of some bytes. -/
def textOf (data : ByteArray) : String :=
  .ofList (Text.charsOfBytes data)

/-- The lines of a text with their numbers in front. -/
def numbered (text : String) (start : Nat) : String :=
  let lines := linesOf text
  let complete := text.endsWith "\n"
  .join ((lines.zipIdx start).map fun (line, n) =>
    let digits := toString n
    let last := n + 1 = start + lines.length
    String.ofList (List.replicate (6 - digits.length) ' ') ++ digits ++ "\t" ++ line
      ++ (if last && !complete then "" else "\n"))

/-- Copy files to standard output. -/
def cat : Tool := fun argv m =>
  let name := argv.headD "cat"
  match flags ['n', 'u'] (argv.drop 1) with
  | .error option => badOption name option 1 m
  | .ok (options, operands) =>
    let paths := if operands.isEmpty then ["-"] else operands
    (paths.foldl (fun (m, line) path =>
      match readInput path m with
      | (.error fault, m) => (report name s!"{path}: {fault.text}" 1 m, line)
      | (.ok data, m) =>
        if options.contains 'n' then
          let text := textOf data
          (m.print 1 (numbered text line), line + (linesOf text).length)
        else (m.write 1 data, line)) (m.withStatus 0, 1)).1

/-- The entries of a directory as they are listed. -/
def entries (m : Machine) (place : List String) (options : List Char) : List String :=
  let names := (m.system.tree.children place).map Text.byteText
  let names := if options.contains 'a' then "." :: ".." :: names else names
  let shown := names.filter fun n =>
    !n.startsWith "." || options.contains 'a' || options.contains 'A'
  let sorted := shown.mergeSort fun a b => decide (a ≤ b)
  if options.contains 'r' then sorted.reverse else sorted

/-- A name as it is listed, with a sign for its kind on request. -/
def marked (m : Machine) (place : List String) (options : List Char) (name : String) : String :=
  let sign := match m.system.tree.node? place with
    | some .directory => "/"
    | some (.program _) => if options.contains 'F' then "*" else ""
    | _ => ""
  if options.contains 'F' || options.contains 'p' then name ++ sign else name

/-- List files and directories. -/
def ls : Tool := fun argv m =>
  let name := argv.headD "ls"
  match flags "aA1drFpCR".toList (argv.drop 1) with
  | .error option => badOption name option 2 m
  | .ok (options, operands) =>
    let paths := if operands.isEmpty then ["."] else operands
    let paths := paths.mergeSort fun a b => decide (a ≤ b)
    let (m, files, directories) := paths.foldl (fun (m, files, directories) path =>
      match lookup m path with
      | .error fault =>
        (report name s!"cannot access {quote path}: {fault.text}" 2 m, files, directories)
      | .ok (place, .directory) =>
        if options.contains 'd' then (m, files ++ [marked m place options path], directories)
        else (m, files, directories ++ [(path, place)])
      | .ok (place, _) => (m, files ++ [marked m place options path], directories))
      (m.withStatus 0, [], [])
    let m := m.print 1 (.join (files.map (· ++ "\n")))
    let titled := paths.length > 1
    (directories.foldl (fun (m, first) (path, place) =>
      let title := if titled then (if first then "" else "\n") ++ path ++ ":\n" else ""
      let names := entries m place options
      let lines := names.map fun n =>
        marked m (if n == "." then place else if n == ".." then place.dropLast else place ++ [Text.ofByteText n])
          options n ++ "\n"
      (m.print 1 (title ++ .join lines), false)) (m, files.isEmpty)).1

/-- The last name of a path. -/
def baseName (path : String) : String :=
  ((path.splitOn "/").filter (· != "")).getLast?.getD path

/-- Copy one file. -/
def copyTo (name source target : String) (m : Machine) : Machine :=
  match lookup m source with
  | .error fault => report name s!"cannot stat {quote source}: {fault.text}" 1 m
  | .ok (_, .directory) => report name s!"-r not specified; omitting directory {quote source}" 1 m
  | .ok (place, node) =>
    let cwd := m.process.cwd
    match m.system.tree.resolve cwd (Text.ofByteText target) with
    | .error fault =>
      let fault := if target.endsWith "/" && fault = .notFound then FileFault.notDirectory else fault
      report name s!"cannot create regular file {quote target}: {fault.text}" 1 m
    | .ok goal =>
      if place == goal then report name s!"{quote source} and {quote target} are the same file" 1 m
      else
        let content : ByteArray := match node with
          | .file content => content
          | _ => .empty
        match node, m.system.tree.node? goal with
        | .program _, none => m.withTree (m.system.tree.put goal node)
        | _, _ =>
          match m.system.tree.write cwd (Text.ofByteText target) content with
          | .error fault =>
            let fault := if target.endsWith "/" && fault = .notFound then FileFault.notDirectory else fault
            report name s!"cannot create regular file {quote target}: {fault.text}" 1 m
          | .ok tree => m.withTree tree

/-- Copy files. -/
def cp : Tool := fun argv m =>
  let name := argv.headD "cp"
  match flags ['f', 'p', 'a', 'r', 'R'] (argv.drop 1) with
  | .error option => badOption name option 1 m
  | .ok (_, operands) =>
    let m := m.withStatus 0
    match operands.reverse with
    | [] => report name s!"missing file operand\nTry '{name} --help' for more information." 1 m
    | [source] => report name
        s!"missing destination file operand after {quote source}\nTry '{name} --help' for more information." 1 m
    | target :: sources =>
      let into : Bool := match lookup m target with
        | .ok (_, .directory) => true
        | _ => false
      if !into && sources.length > 1 then
        report name s!"target {quote target}: {FileFault.notDirectory.text}" 1 m
      else sources.reverse.foldl (fun m source =>
        copyTo name source
          (if into then
            (if target.endsWith "/" then target else target ++ "/") ++ baseName source
          else target) m) m

/-- Make files that are missing. -/
def touch : Tool := fun argv m =>
  let name := argv.headD "touch"
  match flags ['a', 'c', 'm'] (argv.drop 1) with
  | .error option => badOption name option 1 m
  | .ok (options, operands) =>
    if operands.isEmpty then
      report name s!"missing file operand\nTry '{name} --help' for more information." 1 m
    else operands.foldl (fun m path =>
      match lookup m path with
      | .ok _ => m
      | .error fault =>
        if options.contains 'c' && fault = .notFound then m
        else match m.system.tree.write m.process.cwd (Text.ofByteText path) .empty with
          | .ok tree => m.withTree tree
          | .error fault => report name s!"cannot touch {quote path}: {fault.text}" 1 m)
      (m.withStatus 0)

/-- Print the working directory. -/
def pwd : Tool := fun _ m =>
  (m.print 1 (Text.byteText (FileTree.pathOf m.process.cwd) ++ "\n")).withStatus 0

end Tool

end ScriptHost.Shell
