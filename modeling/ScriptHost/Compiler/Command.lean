import ScriptHost.Compiler.Basic
import ScriptHost.Compiler.Template
import ScriptHost.Diagnostic.Output
import ScriptHost.Program.Run
import ScriptHost.Settings.Basic

/-!
# Compilers that are programs

A compiler given by commands writes the source of a unit into a directory of its own, runs the compile
command in a fresh output directory below it and reads the output as diagnostics. Without an error
among them, and with a successful exit, the artifact runs the launch command in the same place.
-/

namespace ScriptHost

/-- A compiler that runs commands, with its work directory and the limit for every run. -/
structure CommandCompiler where
  name : String
  commands : CompilerCommands
  workDir : String
  runner : Runner

/-- The last name of a path, if it ends in one. -/
def lastName? (path : String) : Option String :=
  match ((path.splitOn "/").filter fun s => s != "" && s != ".").getLast? with
  | some ".." => none
  | name => name

namespace Diagnostic

/-- A diagnostic whose source is the written file, under any directory, with the path of the unit as
its source. -/
def renamed (written unitPath : String) (d : Diagnostic) : Diagnostic :=
  match d.source with
  | some reported =>
    if lastName? reported = lastName? written then { d with source := some unitPath } else d
  | none => d

end Diagnostic

namespace CommandCompiler

/-- The name of the directory of a unit. Path and content are both in it. -/
def unitName (unit : SourceUnit) : String :=
  unit.stem ++ "-" ++ (Fingerprint.of unit.path.toUTF8).short ++ "-" ++ unit.fingerprint.short

/-- The directory of a unit. -/
def unitDir (c : CommandCompiler) (unit : SourceUnit) : String :=
  joinPath (joinPath c.workDir c.name) (unitName unit)

/-- The file that the source of a unit is written to. -/
def sourceFile (c : CommandCompiler) (unit : SourceUnit) : String :=
  joinPath (joinPath (c.unitDir unit) "src") (unit.stem ++ "." ++ c.commands.extension)

/-- The output directory of a unit. -/
def outDir (c : CommandCompiler) (unit : SourceUnit) : String :=
  joinPath (c.unitDir unit) "classes"

/-- Empty the output directory of a unit and write its source. After a fault the steps before it
stay done. -/
def prepare (c : CommandCompiler) (unit : SourceUnit) (v : FileView) :
    FileTree × Option FileFault :=
  let emptied : Except FileFault FileTree :=
    match v.tree.lookup v.cwd (c.outDir unit) with
    | .ok (place, .directory) => .ok (v.tree.removeAll place)
    | .ok _ => .error .notDirectory
    | .error _ => .ok v.tree
  match emptied with
  | .error fault => (v.tree, some fault)
  | .ok tree =>
    match tree.makeDirectoryPath v.cwd (joinPath (c.unitDir unit) "src") with
    | (tree, some fault) => (tree, some fault)
    | (tree, none) =>
      match tree.makeDirectoryPath v.cwd (c.outDir unit) with
      | (tree, some fault) => (tree, some fault)
      | (tree, none) =>
        match tree.write v.cwd (c.sourceFile unit) unit.text.toUTF8 with
        | .error fault => (tree, some fault)
        | .ok tree => (tree, none)

/-- The error for a compile command that fails without saying why. -/
def silentFailure (c : CommandCompiler) (unit : SourceUnit) (code : Int) (output : String) :
    Diagnostic :=
  let program := c.commands.compile.head?.getD "compiler"
  { Diagnostic.error s!"{program} exited with code {code}\n{Text.trimmedEnd output}" with
    source := some unit.path }

/-- The diagnostics of a compile command that has ended. -/
def diagnostics (c : CommandCompiler) (unit : SourceUnit) (o : ProcessOutput) : List Diagnostic :=
  let combined := o.stdout ++ o.stderr
  let found := (Diagnostic.ofOutput combined).map
    (Diagnostic.renamed (c.sourceFile unit) unit.path)
  if !o.success && found.all (·.kind != .error) then
    found ++ [c.silentFailure unit o.exitCode combined]
  else found

/-- The process of a launch command. -/
def launchInvocation (argv : List String) (cwd : String) (request : Request) : Invocation :=
  { Invocation.new argv with
    environment := .ofVariables request.processVariables, cwd := some cwd }

/-- Run the launch command for a request. -/
def runLaunch (runner : Runner) (argv : List String) (cwd : String) (request : Request) :
    HostM Error Output := do
  let output ← runner.run (launchInvocation argv cwd request)
  if output.success then return output.toOutput
  else throw (.execution (.exited request.path output.exitCode output.stderr))

/-- What the placeholders in the commands stand for. -/
def placeholders (c : CommandCompiler) (unit : SourceUnit) : Placeholders :=
  ⟨c.sourceFile unit, c.outDir unit, unit.mainClass⟩

/-- The process of the compile command. -/
def compileInvocation (c : CommandCompiler) (unit : SourceUnit) : Invocation :=
  { Invocation.new ((c.placeholders unit).render c.commands.compile) with
    cwd := some (c.outDir unit) }

/-- Compile a unit, given what runs the process of the compile command. -/
def compileBy (c : CommandCompiler) (run : Invocation → HostM Error ProcessOutput)
    (unit : SourceUnit) : HostM Report Artifact := do
  let host ← getThe Host
  let (tree, fault) := c.prepare unit host.view
  set (host.withTree tree)
  if let some fault := fault then
    throw (.singleError s!"Failed to write source for {unit.path}: {fault.message}")
  let output ← ((run (c.compileInvocation unit)).adapt fun e => Report.singleError e.message)
  let report := Report.ofList (c.diagnostics unit output)
  if report.hasErrors then throw report
  else return {
    sourcePath := unit.path
    fingerprint := unit.fingerprint
    warnings := report.warnings
    invoke := runLaunch c.runner ((c.placeholders unit).render c.commands.launch) (c.outDir unit) }

/-- Compile a unit. -/
def compile (c : CommandCompiler) (unit : SourceUnit) : HostM Report Artifact :=
  c.compileBy c.runner.run unit

/-- The compiler that these commands make up. -/
def toCompiler (c : CommandCompiler) : Compiler :=
  ⟨c.name, c.compile⟩

end CommandCompiler

end ScriptHost
