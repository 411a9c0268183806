import ScriptHost.Text.Replace

/-!
# Command templates

The arguments of a compiler's commands may hold placeholders for the source file, the output
directory and the main class. They are replaced one after the other, in this order.
-/

namespace ScriptHost

/-- What the placeholders of a command stand for. -/
structure Placeholders where
  source : String
  outDir : String
  mainClass : String
  deriving DecidableEq, Repr

namespace Placeholders

/-- An argument with its placeholders replaced. -/
def fill (p : Placeholders) (argument : String) : String :=
  Text.replaced "\x7bmain_class\x7d" p.mainClass
    (Text.replaced "\x7bout_dir\x7d" p.outDir (Text.replaced "\x7bsource\x7d" p.source argument))

/-- A command with the placeholders in all its arguments replaced. -/
def render (p : Placeholders) (template : List String) : List String :=
  template.map p.fill

end Placeholders

end ScriptHost
