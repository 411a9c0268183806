import ScriptHost.Compiler.Basic
import ScriptHost.Text.Lines

/-!
# The directive compiler

A compiler for a language of directives, one to a line: a word and, after the first space, a rest.
Some directives report a diagnostic at their line, others make up the program: what it prints and
whether it fails. A line without a directive means nothing.
-/

namespace ScriptHost.Directives

/-- What a line says. -/
inductive Directive where
  | report (kind : DiagnosticKind) (message : String)
  | print (text : String)
  | fail (reason : String)
  | nothing
  deriving DecidableEq, Repr

/-- A line at its first space: the word before it and the rest after it. -/
def splitWord (line : String) : String × String :=
  let cs := line.toList
  (.ofList (cs.takeWhile (· != ' ')), .ofList ((cs.dropWhile (· != ' ')).drop 1))

/-- The directive of a line. -/
def ofLine (line : String) : Directive :=
  let (word, rest) := splitWord line
  match word with
  | "ERR" => .report .error rest
  | "WARN" => .report .warning rest
  | "NOTE" => .report .note rest
  | "OUT" => .print rest
  | "FAIL" => .fail rest
  | _ => .nothing

/-- The directives of a text. -/
def ofText (text : String) : List Directive :=
  (Text.linesOf text).map ofLine

/-- The diagnostics that directives report, given the path of their unit; lines are counted from
one. -/
def diagnostics (path : String) (directives : List Directive) : List Diagnostic :=
  (directives.zipIdx 1).filterMap fun (directive, line) =>
    match directive with
    | .report kind message => some ⟨kind, some path, message, line, 1⟩
    | _ => none

/-- What the program prints: the texts of its print directives, each on a line. -/
def printed (directives : List Directive) : String :=
  .join (directives.map fun
    | .print text => text ++ "\n"
    | _ => "")

/-- Why the program fails, if it does: the last reason counts. -/
def failure? (directives : List Directive) : Option String :=
  (directives.filterMap fun
    | .fail reason => some reason
    | _ => none).getLast?

/-- What running the program yields. -/
def outcome (directives : List Directive) : Except Error Output :=
  match failure? directives with
  | some reason => .error (.execution (.reported reason))
  | none => .ok { Output.empty with stdout := printed directives }

/-- The artifact of a unit, or the report on it. -/
def compile (unit : SourceUnit) : Except Report Artifact :=
  let directives := ofText unit.text
  let report := Report.ofList (diagnostics unit.path directives)
  if report.hasErrors then .error report
  else .ok ⟨unit.path, unit.fingerprint, report.warnings, fun _ => ExceptT.mk (pure (outcome directives))⟩

end ScriptHost.Directives

namespace ScriptHost

/-- A directive compiler with a name. -/
def Compiler.directives (name : String) : Compiler :=
  ⟨name, fun unit => ExceptT.mk (pure (Directives.compile unit))⟩

end ScriptHost
