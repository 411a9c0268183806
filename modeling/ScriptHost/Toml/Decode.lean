import ScriptHost.Toml.Basic

/-!
# Decoding TOML values

Decoders take a TOML value to a value of the program. A record may be written as a table, or as an
array that lists the values of its fields in order; further members and further items do not count.
-/

namespace ScriptHost.Toml

/-- A decoder for one kind of value. -/
abbrev Decoder (α : Type) := Value → Option α

namespace Decoder

/-- A text. -/
def string : Decoder String
  | .string s => some s
  | _ => none

/-- A truth value. -/
def boolean : Decoder Bool
  | .boolean b => some b
  | _ => none

/-- An integer from zero up to but not including a bound. -/
def natBelow (bound : Nat) : Decoder Nat
  | .integer n => if 0 ≤ n ∧ n < bound then some n.toNat else none
  | _ => none

/-- An unsigned integer of 64 bits. -/
def unsigned64 : Decoder Nat :=
  natBelow (Nat.pow 2 64)

/-- An unsigned integer of 32 bits. -/
def unsigned32 : Decoder Nat :=
  natBelow (Nat.pow 2 32)

/-- An array whose items are all of one kind. -/
def list {α : Type} (item : Decoder α) : Decoder (List α)
  | .array items => items.mapM item
  | _ => none

/-- A table whose values are texts. -/
def texts : Decoder (List (String × String)) := fun v => do
  (← v.members?).mapM fun (key, v) => (string v).map (key, ·)

end Decoder

/-- The fields of a record as they are written: by name or by position. -/
inductive Record where
  | named (members : List (String × Value))
  | listed (items : List Value)

namespace Record

/-- The record that a value holds. -/
def ofValue? : Value → Option Record
  | .array items => some (.listed items)
  | v => v.members?.map .named

/-- The value of a field, given its position and its name. -/
def field? (r : Record) (index : Nat) (name : String) : Option Value :=
  match r with
  | .named members => find? name members
  | .listed items => items[index]?

/-- A field that must be there. -/
def required {α : Type} (r : Record) (index : Nat) (name : String) (d : Decoder α) : Option α :=
  (r.field? index name).bind d

/-- A field that may be left out. -/
def optional {α : Type} (r : Record) (index : Nat) (name : String) (d : Decoder α) :
    Option (Option α) :=
  match r.field? index name with
  | none => some none
  | some v => (d v).map some

/-- A field with a default. -/
def withDefault {α : Type} (r : Record) (index : Nat) (name : String) (d : Decoder α)
    (default : α) : Option α :=
  (r.optional index name d).map (·.getD default)

end Record

end ScriptHost.Toml
