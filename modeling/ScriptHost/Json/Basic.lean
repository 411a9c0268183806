/-!
# JSON values

A value as a reader delivers it, and the raw form a text has before its numbers and strings are
checked. `Raw.value?` is the check: it bounds the nesting, and refuses a number that no binary64
holds and a string that is not Unicode text. A part that a program skips needs no check.
-/

namespace ScriptHost.Json

/-- A number as it is written: its sign, the number its digits form without the point, and the
power of ten that scales it. `plain` numbers have neither a fraction nor an exponent. -/
structure Numeral where
  negative : Bool
  digits : Nat
  scale : Int
  plain : Bool
  deriving DecidableEq, Repr

namespace Numeral

/-- A natural number as it is written. -/
def ofNat (n : Nat) : Numeral :=
  ⟨false, n, 0, true⟩

/-- An integer as it is written. -/
def ofInt (n : Int) : Numeral :=
  ⟨n < 0, n.natAbs, 0, true⟩

/-- The number as a 64-bit unsigned integer, when it is written as one. -/
def unsigned64? (n : Numeral) : Option Nat :=
  if n.plain ∧ n.negative = false ∧ n.digits < Nat.pow 2 64 then some n.digits else none

/-- The smallest magnitude that rounds to no finite binary64. -/
def overflowBound : Nat :=
  Nat.pow 2 1024 - Nat.pow 2 970

/-- Whether the number rounds to a finite binary64. -/
def isFinite (n : Numeral) : Bool :=
  if n.digits = 0 then true
  else if n.scale > 400 then false
  else if 0 ≤ n.scale then n.digits * Nat.pow 10 n.scale.toNat < overflowBound
  else
    let places := (-n.scale).toNat
    n.digits.log2 < places || n.digits < overflowBound * Nat.pow 10 places

end Numeral

/-- A JSON value; an object keeps its members in the order they are written. -/
inductive Value where
  | null
  | bool (b : Bool)
  | number (n : Numeral)
  | string (s : String)
  | array (items : List Value)
  | object (members : List (String × Value))
  deriving Repr

/-- The form of a JSON text. A string literal without a text holds a lone surrogate or bytes that
are not UTF-8. -/
inductive Raw where
  | null
  | bool (b : Bool)
  | number (n : Numeral)
  | string (s : Option String)
  | array (items : List Raw)
  | object (members : List (Option String × Raw))

/-- How deep arrays and objects may nest in each other. -/
def maxNesting : Nat := 127

namespace Raw

mutual

/-- The value of a form nested at most `depth` deep, when all its parts are sound. -/
def checked? (depth : Nat) : Raw → Option Value
  | .null => some .null
  | .bool b => some (.bool b)
  | .number n => if n.isFinite then some (.number n) else none
  | .string s => s.map .string
  | .array items =>
    match depth with
    | 0 => none
    | depth + 1 => (checkedItems? depth items).map .array
  | .object members =>
    match depth with
    | 0 => none
    | depth + 1 => (checkedMembers? depth members).map .object

/-- The values of the items of an array. -/
def checkedItems? (depth : Nat) : List Raw → Option (List Value)
  | [] => some []
  | item :: rest => do
    let value ← checked? depth item
    let values ← checkedItems? depth rest
    return value :: values

/-- The members of an object. -/
def checkedMembers? (depth : Nat) : List (Option String × Raw) → Option (List (String × Value))
  | [] => some []
  | (key, item) :: rest => do
    let key ← key
    let value ← checked? depth item
    let values ← checkedMembers? depth rest
    return (key, value) :: values

end

/-- The value of a form that nests no deeper than the limit. -/
def value? (raw : Raw) : Option Value :=
  raw.checked? maxNesting

end Raw

namespace Value

/-- A number value. -/
def nat (n : Nat) : Value :=
  .number (.ofNat n)

/-- The text when there is one, else null. -/
def ofOption (s : Option String) : Value :=
  match s with
  | some s => .string s
  | none => .null

/-- The member of an object under a key; of several the last one counts. -/
def get? (key : String) : Value → Option Value
  | .object members => (members.reverse.find? (·.1 == key)).map (·.2)
  | _ => none

/-- The text of a string value. -/
def string? : Value → Option String
  | .string s => some s
  | _ => none

/-- The items of an array value. -/
def array? : Value → Option (List Value)
  | .array items => some items
  | _ => none

/-- The members of an object value. -/
def object? : Value → Option (List (String × Value))
  | .object members => some members
  | _ => none

/-- The truth value of a boolean. -/
def bool? : Value → Option Bool
  | .bool b => some b
  | _ => none

/-- The 64-bit unsigned integer of a number value written as one. -/
def unsigned64? : Value → Option Nat
  | .number n => n.unsigned64?
  | _ => none

/-- Follow member names and array positions down into a value. -/
def at? : List (String ⊕ Nat) → Value → Option Value
  | [], value => some value
  | .inl key :: path, value => (value.get? key).bind (at? path)
  | .inr index :: path, value => (value.array?.bind (·[index]?)).bind (at? path)

end Value

end ScriptHost.Json
