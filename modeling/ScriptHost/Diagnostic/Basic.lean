import ScriptHost.Text.Blank

/-!
# Diagnostics

A message of a compiler with its kind and position, and the report that collects them: errors in one
stream of text, everything else in another, with both counts and the entries themselves in the
order they came.
-/

namespace ScriptHost

/-- How serious a diagnostic is. -/
inductive DiagnosticKind where
  | error
  | warning
  | mandatoryWarning
  | note
  | other
  deriving DecidableEq, Repr

namespace DiagnosticKind

/-- The label a kind is written with. -/
def label : DiagnosticKind → String
  | error => "ERROR"
  | warning => "WARNING"
  | mandatoryWarning => "MANDATORY_WARNING"
  | note => "NOTE"
  | other => "OTHER"

/-- The kind that a compiler's word stands for; case and surrounding blanks do not count. -/
def ofWord (word : String) : DiagnosticKind :=
  match String.ofList ((Text.trim word.toList).map Char.toLower) with
  | "error" | "fatal error" => error
  | "warning" => warning
  | "mandatory warning" | "mandatory_warning" => mandatoryWarning
  | "note" | "info" | "help" => note
  | _ => other

end DiagnosticKind

/-- One message of a compiler. Line and column are zero where the compiler gives none. -/
structure Diagnostic where
  kind : DiagnosticKind
  source : Option String
  message : String
  line : Nat
  column : Nat
  deriving DecidableEq, Repr

namespace Diagnostic

/-- An error without a source or position. -/
def error (message : String) : Diagnostic :=
  ⟨.error, none, message, 0, 0⟩

/-- The text of a diagnostic: label, source if any, message, line and column, each on a line. -/
def render (d : Diagnostic) : String :=
  let source := match d.source with
    | some source => source ++ "\n"
    | none => ""
  d.kind.label ++ "\n" ++ source ++ d.message ++ "\n" ++ "Line: " ++ toString d.line ++ "\n"
    ++ "Column: " ++ toString d.column ++ "\n"

end Diagnostic

/-- The diagnostics of one compilation. -/
structure Report where
  errors : String
  warnings : String
  errorCount : Nat
  warningCount : Nat
  entries : List Diagnostic
  deriving DecidableEq, Repr

namespace Report

/-- The report without diagnostics. -/
def empty : Report :=
  ⟨"", "", 0, 0, []⟩

/-- A report with one more diagnostic. Whatever is not an error counts as a warning. -/
def add (r : Report) (d : Diagnostic) : Report :=
  match d.kind with
  | .error =>
    { r with errors := r.errors ++ d.render, errorCount := r.errorCount + 1,
             entries := r.entries ++ [d] }
  | _ =>
    { r with warnings := r.warnings ++ d.render, warningCount := r.warningCount + 1,
             entries := r.entries ++ [d] }

/-- The report of a sequence of diagnostics. -/
def ofList (ds : List Diagnostic) : Report :=
  ds.foldl add empty

/-- The report of a single error message. -/
def singleError (message : String) : Report :=
  empty.add (.error message)

/-- Whether there is an error. -/
def hasErrors (r : Report) : Bool :=
  r.errorCount > 0

/-- Whether there is a diagnostic that is not an error. -/
def hasWarnings (r : Report) : Bool :=
  r.warningCount > 0

end Report

end ScriptHost
