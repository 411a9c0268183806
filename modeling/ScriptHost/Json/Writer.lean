import ScriptHost.Json.Basic
import ScriptHost.Text.Hex

/-!
# Writing JSON texts

The compact form: no space between tokens, and in a string only the quote, the backslash and the
control characters below U+0020 escaped.
-/

namespace ScriptHost.Json

/-- A character of a string literal. -/
def escapeChar (c : Char) : String :=
  if c = '"' then "\\\""
  else if c = '\\' then "\\\\"
  else if c = '\x08' then "\\b"
  else if c = '\x0c' then "\\f"
  else if c = '\n' then "\\n"
  else if c = '\r' then "\\r"
  else if c = '\t' then "\\t"
  else if c.toNat < 0x20 then
    "\\u00" ++ .ofList [Text.hexDigit (c.toNat / 16), Text.hexDigit (c.toNat % 16)]
  else .singleton c

/-- A string literal with its quotes. -/
def quote (s : String) : String :=
  s.foldl (fun text c => text ++ escapeChar c) "\"" ++ "\""

/-- A number; one that is not plain is written with its scale as an exponent. -/
def Numeral.render (n : Numeral) : String :=
  let sign := if n.negative then "-" else ""
  if n.plain then sign ++ toString n.digits
  else sign ++ toString n.digits ++ "e" ++ toString n.scale

namespace Value

mutual

/-- The compact text of a value. -/
def render : Value → String
  | .null => "null"
  | .bool b => if b then "true" else "false"
  | .number n => n.render
  | .string s => quote s
  | .array items => "[" ++ renderItems true items ++ "]"
  | .object members => "\x7b" ++ renderMembers true members ++ "\x7d"

/-- The items of an array; `first` says that none is written yet. -/
def renderItems (first : Bool) : List Value → String
  | [] => ""
  | item :: rest => (if first then "" else ",") ++ render item ++ renderItems false rest

/-- The members of an object; `first` says that none is written yet. -/
def renderMembers (first : Bool) : List (String × Value) → String
  | [] => ""
  | (key, value) :: rest =>
    (if first then "" else ",") ++ quote key ++ ":" ++ render value ++ renderMembers false rest

end

/-- An object with one text member per pair. -/
def ofTexts (pairs : List (String × String)) : Value :=
  .object (pairs.map fun (key, text) => (key, .string text))

end Value

end ScriptHost.Json
