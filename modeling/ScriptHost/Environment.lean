import Std.Data.TreeMap

/-!
# Environments

The variables a process is given, and patches that change them. A patch first sets its variables and
then removes those it unsets, so a variable in both is removed. What a process is handed is not the
variables themselves but a block of texts, in which a name ends at the first equals sign.
-/

namespace ScriptHost

/-- Named texts, ordered by name: environment variables or request parameters. -/
abbrev Variables := Std.TreeMap String String

/-- Variables with the given values; of several values for a name the last one counts. -/
def Variables.ofPairs (pairs : List (String × String)) : Variables :=
  pairs.foldl (fun vars (name, value) => vars.insert name value) .empty

/-- Variables in which another set of variables takes precedence. -/
def Variables.overlaidBy (vars top : Variables) : Variables :=
  top.foldl (fun vars name value => vars.insert name value) vars

/-- What a process is handed as its environment: a text `NAME=VALUE` for every variable. -/
abbrev EnvironmentBlock := List String

/-- The block that hands down variables, in the order of their names. -/
def Variables.block (vars : Variables) : EnvironmentBlock :=
  vars.toList.map fun (name, value) => name ++ "=" ++ value

namespace EnvironmentBlock

/-- The name and the value in an entry, which its first equals sign divides. -/
def entryParts? (entry : String) : Option (String × String) :=
  match entry.toList.span (· != '=') with
  | (_, []) => none
  | (name, _ :: value) => some (.ofList name, .ofList value)

/-- The names and values that the entries of a block stand for. -/
def pairs (block : EnvironmentBlock) : List (String × String) :=
  block.filterMap entryParts?

/-- The values that a block has for a name, in their order. -/
def valuesOf (block : EnvironmentBlock) (name : String) : List String :=
  (block.pairs.filter (·.1 == name)).map (·.2)

end EnvironmentBlock

/-- Changes to an environment. -/
structure EnvironmentPatch where
  set : Variables
  unset : List String

namespace EnvironmentPatch

/-- The patch that changes nothing. -/
def none : EnvironmentPatch :=
  ⟨.empty, []⟩

/-- The patch that sets variables and removes none. -/
def ofVariables (vars : Variables) : EnvironmentPatch :=
  ⟨vars, []⟩

/-- A patch that also sets the given variables where it does not set them itself. -/
def layeredOver (patch : EnvironmentPatch) (vars : Variables) : EnvironmentPatch :=
  { patch with set := vars.overlaidBy patch.set }

/-- The environment after a patch. -/
def apply (patch : EnvironmentPatch) (inherited : Variables) : Variables :=
  patch.unset.foldl (fun vars name => vars.erase name) (inherited.overlaidBy patch.set)

end EnvironmentPatch

end ScriptHost
