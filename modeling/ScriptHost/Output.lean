/-!
# Outputs

What a successful execution yields.
-/

namespace ScriptHost

/-- The result of an execution. -/
structure Output where
  stdout : String
  stderr : String
  exitCode : Int
  warnings : String
  contentType : Option String
  deriving DecidableEq, Repr

namespace Output

/-- The output of an execution that says nothing. -/
def empty : Output :=
  ⟨"", "", 0, "", none⟩

/-- Two outputs in sequence: the texts are concatenated, and nothing else is kept. -/
def append (a b : Output) : Output :=
  ⟨a.stdout ++ b.stdout, a.stderr ++ b.stderr, 0, a.warnings ++ b.warnings, none⟩

end Output

end ScriptHost
