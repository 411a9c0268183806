/-!
# Entries kept in a database

Entries as the rows of a relation with the path as its key, and the queries on it in the terms of a
relational database: the length of a text counts the characters before its first NUL, and a
substring takes leading characters. The relation has a written form, in which it lies in a file.
-/

namespace ScriptHost

/-- A row of the relation. -/
structure Row where
  path : String
  data : ByteArray

/-- The relation of paths and data. -/
structure Database where
  rows : List Row

namespace Database

/-- The relation without rows. -/
def empty : Database :=
  ⟨[]⟩

/-- The data of the row with a path. -/
def get? (d : Database) (path : String) : Option ByteArray :=
  (d.rows.find? (·.path == path)).map (·.data)

/-- Insert a row, or update the row that has the path already. -/
def put (d : Database) (path : String) (data : ByteArray) : Database :=
  if d.rows.any (·.path == path) then
    ⟨d.rows.map fun row => if row.path == path then ⟨path, data⟩ else row⟩
  else ⟨d.rows ++ [⟨path, data⟩]⟩

/-- Delete the rows with a path, and tell whether there were any. -/
def delete (d : Database) (path : String) : Bool × Database :=
  (d.rows.any (·.path == path), ⟨d.rows.filter (·.path != path)⟩)

/-- Delete all rows, and tell how many there were. -/
def clear (d : Database) : Nat × Database :=
  (d.rows.length, empty)

/-- The length of a text: the number of characters before its first NUL. -/
def textLength (s : String) : Nat :=
  (s.toList.takeWhile (· != '\x00')).length

/-- The leading characters of a text. -/
def leading (s : String) (n : Nat) : List Char :=
  s.toList.take n

/-- The condition of a listing: the path is the top, or starts with the top and a slash. -/
def isListed (path top : String) : Bool :=
  top == "/" || path == top || leading path (textLength top + 1) == top.toList ++ ['/']

/-- The listed rows ordered by path, each with the length of its data. -/
def list (d : Database) (top : String) : List (String × Nat) :=
  ((d.rows.filter fun row => isListed row.path top).map fun row => (row.path, row.data.size)).mergeSort
    fun a b => decide (a.1 ≤ b.1)

/-- What every written form starts with. -/
def signature : List UInt8 :=
  "script host storage\n".toUTF8.toList

/-- A number as decimal digits and a colon. -/
def writeLength (n : Nat) : ByteArray :=
  (toString n ++ ":").toUTF8

/-- The written form of a row: path and data, each after its length. -/
def writeRow (row : Row) : ByteArray :=
  let path := row.path.toUTF8
  writeLength path.size ++ path ++ writeLength row.data.size ++ row.data

/-- The written form of the relation. -/
def write (d : Database) : ByteArray :=
  d.rows.foldl (fun bytes row => bytes ++ writeRow row) ⟨signature.toArray⟩

/-- The number at a position, and the position after its colon. -/
def readLength? (bytes : ByteArray) (fuel pos n : Nat) : Option (Nat × Nat) :=
  match fuel, bytes[pos]? with
  | fuel + 1, some b =>
    if b = 0x3A then some (n, pos + 1)
    else if 0x30 ≤ b ∧ b ≤ 0x39 then readLength? bytes fuel (pos + 1) (10 * n + (b.toNat - 0x30))
    else none
  | _, _ => none

/-- The bytes of a given length at a position, and the position after them. -/
def readBytes? (bytes : ByteArray) (pos : Nat) : Option (ByteArray × Nat) := do
  let (n, pos) ← readLength? bytes bytes.size pos 0
  if pos + n ≤ bytes.size then some (bytes.extract pos (pos + n), pos + n) else none

/-- The rows written from a position on, after those read so far in reverse. -/
def readRows? (bytes : ByteArray) (fuel pos : Nat) (rows : List Row) : Option (List Row) :=
  match fuel with
  | 0 => none
  | fuel + 1 =>
    if pos = bytes.size then some rows.reverse
    else do
      let (path, pos) ← readBytes? bytes pos
      let (data, pos) ← readBytes? bytes pos
      let path ← String.fromUTF8? path
      readRows? bytes fuel pos (⟨path, data⟩ :: rows)

/-- The relation that a file holds; an empty file holds the empty relation. -/
def read? (bytes : ByteArray) : Option Database :=
  if bytes.size = 0 then some empty
  else if (bytes.extract 0 signature.length).toList = signature then
    (readRows? bytes (bytes.size + 1) signature.length []).map (⟨·⟩)
  else none

end Database

end ScriptHost
