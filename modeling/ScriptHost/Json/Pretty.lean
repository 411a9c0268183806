import ScriptHost.Json.Writer

/-!
# JSON texts for reading

The form with every item and member on a line of its own, two spaces further in than what encloses it.
-/

namespace ScriptHost.Json.Value

/-- A line break, and the indentation of a level. -/
def lineBreak (level : Nat) : String :=
  .ofList ('\n' :: List.replicate (2 * level) ' ')

mutual

/-- The text of a value that stands on some level. -/
def prettyAt (level : Nat) : Value → String
  | .array (item :: rest) =>
    "[" ++ prettyItems (level + 1) (item :: rest) ++ lineBreak level ++ "]"
  | .object (member :: rest) =>
    "\x7b" ++ prettyMembers (level + 1) (member :: rest) ++ lineBreak level ++ "\x7d"
  | v => v.render

/-- The items of an array, each on a line of some level. -/
def prettyItems (level : Nat) : List Value → String
  | [] => ""
  | item :: rest =>
    lineBreak level ++ prettyAt level item ++ (if rest.isEmpty then "" else ",")
      ++ prettyItems level rest

/-- The members of an object, each on a line of some level. -/
def prettyMembers (level : Nat) : List (String × Value) → String
  | [] => ""
  | (key, value) :: rest =>
    lineBreak level ++ quote key ++ ": " ++ prettyAt level value
      ++ (if rest.isEmpty then "" else ",") ++ prettyMembers level rest

end

/-- The text of a value for reading. -/
def pretty (v : Value) : String :=
  v.prettyAt 0

end ScriptHost.Json.Value
