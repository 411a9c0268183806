/-!
# TOML values

The values of a TOML document. Floats are only told from other values: nothing reads their content.
A date is kept as its normal text.
-/

namespace ScriptHost.Toml

/-- A TOML value; a table keeps its members in the order they are written. -/
inductive Value where
  | string (s : String)
  | integer (n : Int)
  | float
  | boolean (b : Bool)
  /-- A date, a time or both, in the normal form. -/
  | datetime (text : String)
  | array (items : List Value)
  | table (members : List (String × Value))
  deriving Repr

/-- The first nesting depth of arrays, inline tables and dotted keys that is too deep. -/
def nestingBound : Nat := 80

/-- The key under which a date holds its text when it is read as a table. -/
def datetimeKey : String := "$__toml_private_datetime"

/-- The members of a value that can be read as a table: a table or a date. -/
def Value.members? : Value → Option (List (String × Value))
  | table members => some members
  | datetime text => some [(datetimeKey, .string text)]
  | _ => none

/-- The first value under a key. -/
def find? {α : Type} (key : String) (members : List (String × α)) : Option α :=
  (members.find? (·.1 == key)).map (·.2)

end ScriptHost.Toml
