import ScriptHost.Diagnostic.Form
import ScriptHost.Text.Lines

/-!
# Reading the output of a compiler

The lines of an output are read from first to last. A located line may be followed by an echo of
the source and a caret, which then give the column and are skipped; a bare line may be followed by
an arrow, which then gives the position and is skipped. A line of no form is skipped.
-/

namespace ScriptHost.Diagnostic

/-- The diagnostic of a form with the position that the lines below its line give, and how many of
them belong to it. -/
def Form.complete (below : List (List Char)) : Form → Diagnostic × Nat
  | .located d =>
    match below[1]?.bind caretColumn? with
    | some column => ({ d with column := column }, 2)
    | none => (d, 0)
  | .bare d =>
    match below.head?.bind arrow? with
    | some (file, row, column) =>
      ({ d with source := some file, line := row, column := column }, 1)
    | none => (d, 0)
  | form => (form.diagnostic, 0)

/-- The diagnostics that lines announce, in order. -/
def ofLines : List (List Char) → List Diagnostic
  | [] => []
  | line :: rest =>
    match Form.ofLine? line with
    | none => ofLines rest
    | some form => (form.complete rest).1 :: ofLines (rest.drop (form.complete rest).2)
termination_by lines => lines.length

/-- The diagnostics that an output announces, in order. -/
def ofOutput (output : String) : List Diagnostic :=
  ofLines (Text.lines output.toList)

end ScriptHost.Diagnostic
