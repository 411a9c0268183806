import ScriptHost.Toml.Scalar

/-!
# TOML documents

A document is read statement by statement into a tree of entries that remembers how each table came
to be: a table that only a longer header or a dotted key implied may still be defined, one that is
defined may not be defined again, and what was written inline is closed. `read?` gives the members
of the root table.
-/

namespace ScriptHost.Toml

/-- How a table came to be: `implicit` while nothing defined it, `dotted` when a dotted key made
it. -/
structure Origin where
  implicit : Bool
  dotted : Bool
  deriving DecidableEq

/-- The origin of a table that a header defines, and of the root table. -/
def Origin.defined : Origin := ⟨false, false⟩

/-- An entry of a table while the document is being read. -/
inductive Entry where
  | value (v : Value)
  | table (origin : Origin) (members : List (String × Entry))
  | tables (elements : List (List (String × Entry)))

/-- The members of a table while the document is being read. -/
abbrev Members := List (String × Entry)

/-- Members in which a key has a new entry, in its old place if it had one. -/
def replace (key : String) (entry : Entry) (members : Members) : Members :=
  if members.any (·.1 == key) then
    members.map fun (k, e) => if k == key then (k, entry) else (k, e)
  else members ++ [(key, entry)]

/-- A change to a table, given how it came to be. -/
abbrev Change := Origin → Members → Option Members

/-- Change the table that a path leads to. Missing tables on the way are made; of an array of tables
the last element counts. A dotted path may not enter a table that is defined elsewhere. -/
def descend (dotted : Bool) (change : Change) : List String → Change
  | [], origin, members => change origin members
  | key :: path, _, members =>
    match find? key members with
    | none => do
      let origin : Origin := ⟨true, dotted⟩
      let sub ← descend dotted change path origin []
      return replace key (.table origin sub) members
    | some (.value _) => none
    | some (.tables elements) =>
      match elements.getLast? with
      | none => none
      | some last => do
        let sub ← descend dotted change path .defined last
        return replace key (.tables (elements.dropLast ++ [sub])) members
    | some (.table origin sub) =>
      if dotted && !origin.implicit then none
      else do
        let sub ← descend dotted change path origin sub
        return replace key (.table origin sub) members

/-- Give a table a value under a new key. The last table on a dotted path must have been made by a
dotted key. -/
def addValue (viaDots : Bool) (key : String) (v : Value) : Change := fun origin members =>
  if origin.dotted != viaDots then none
  else if (find? key members).isSome then none
  else some (members ++ [(key, .value v)])

/-- Define a table under a key, which may only be implied so far. -/
def defineTable (key : String) : Change := fun _ members =>
  match find? key members with
  | none => some (members ++ [(key, .table .defined [])])
  | some (.table origin sub) =>
    if origin.implicit && !origin.dotted then some (replace key (.table .defined sub) members)
    else none
  | some _ => none

/-- Add an element to the array of tables under a key. -/
def addElement (key : String) : Change := fun _ members =>
  match find? key members with
  | none => some (members ++ [(key, .tables [[]])])
  | some (.tables elements) => some (replace key (.tables (elements ++ [[]])) members)
  | some _ => none

mutual

/-- The value of a finished entry. -/
def Entry.toValue : Entry → Value
  | .value v => v
  | .table _ members => .table (Entry.membersToValues members)
  | .tables elements => .array (Entry.elementsToValues elements)

/-- The values of finished members. -/
def Entry.membersToValues : List (String × Entry) → List (String × Value)
  | [] => []
  | (key, entry) :: rest => (key, entry.toValue) :: Entry.membersToValues rest

/-- The values of the elements of a finished array of tables. -/
def Entry.elementsToValues : List (List (String × Entry)) → List Value
  | [] => []
  | members :: rest => .table (Entry.membersToValues members) :: Entry.elementsToValues rest

end

/-- Add a key and value to the members of an inline table. -/
def addInline (members : Members) (key : List String) (v : Value) : Option Members :=
  match key.getLast? with
  | none => none
  | some last =>
    descend true (addValue (key.length > 1) last v) key.dropLast .defined members

mutual

/-- A value, within `depth` further levels of nesting. -/
def value? (fuel depth : Nat) (cs : List Char) : Option (Value × List Char) :=
  match fuel with
  | 0 => none
  | fuel + 1 =>
    match cs with
    | [] => none
    | c :: rest =>
      if c = '"' || c = '\'' then (string? cs).map fun (s, rest) => (.string s, rest)
      else if c = '[' then
        match depth with
        | 0 => none
        | depth + 1 => arrayItems? fuel depth [] rest
      else if c = '\x7b' then
        match depth with
        | 0 => none
        | depth + 1 =>
          match skipBlanks rest with
          | '\x7d' :: rest => some (.table [], rest)
          | rest => inlineMembers? fuel depth [] rest
      else if c = 't' then (word? "true" cs).map (.boolean true, ·)
      else if c = 'f' then (word? "false" cs).map (.boolean false, ·)
      else if c = 'i' || c = 'n' then float? cs
      else if c.isDigit || c = '+' || c = '-' then numberOrDate? cs
      else none

/-- The rest of an array; `read` holds its items so far in reverse. -/
def arrayItems? (fuel depth : Nat) (read : List Value) (cs : List Char) :
    Option (Value × List Char) :=
  match fuel with
  | 0 => none
  | fuel + 1 => do
    match ← skipLines cs.length cs with
    | ']' :: rest => return (.array read.reverse, rest)
    | cs =>
      let (item, rest) ← value? fuel depth cs
      match ← skipLines rest.length rest with
      | ',' :: rest => arrayItems? fuel depth (item :: read) rest
      | ']' :: rest => return (.array (item :: read).reverse, rest)
      | _ => none

/-- The rest of an inline table that has a further member. -/
def inlineMembers? (fuel depth : Nat) (members : Members) (cs : List Char) :
    Option (Value × List Char) :=
  match fuel with
  | 0 => none
  | fuel + 1 => do
    let (key, rest) ← key? (nestingBound - 1) cs
    let rest ← char? '=' rest
    let (v, rest) ← value? fuel depth (skipBlanks rest)
    let members ← addInline members key v
    match skipBlanks rest with
    | ',' :: rest => inlineMembers? fuel depth members rest
    | '\x7d' :: rest => return (.table (Entry.membersToValues members), rest)
    | _ => none

end

/-- A document being read: the members of its root table and the header that the next keys belong
to. -/
structure Draft where
  root : Members
  header : List String

namespace Draft

/-- A document of which nothing is read. -/
def empty : Draft :=
  ⟨[], []⟩

/-- Read a table header, `[key]` or `[[key]]`, up to the end of its line. -/
def readHeader? (draft : Draft) (cs : List Char) : Option (Draft × List Char) := do
  let (isArray, cs) := match cs with
    | '[' :: rest => (true, rest)
    | rest => (false, rest)
  let (key, rest) ← key? (nestingBound - 1) cs
  let rest ← char? ']' rest
  let rest ← if isArray then char? ']' rest else some rest
  let last ← key.getLast?
  let change := if isArray then addElement last else defineTable last
  let root ← descend false change key.dropLast .defined draft.root
  return (⟨root, key⟩, ← restOfLine? rest)

/-- Read a key and its value up to the end of the line. -/
def readMember? (draft : Draft) (cs : List Char) : Option (Draft × List Char) := do
  let (key, rest) ← key? (nestingBound - 1) cs
  let rest ← char? '=' rest
  let rest := skipBlanks rest
  let (v, rest) ← value? (2 * rest.length + 2) (nestingBound - 1) rest
  let last ← key.getLast?
  let change := descend true (addValue (key.length > 1) last v) key.dropLast
  let root ← descend false change draft.header .defined draft.root
  return ({ draft with root }, ← restOfLine? rest)

/-- Read the statements ahead; every statement takes at least one character. -/
def readAll? (fuel : Nat) (draft : Draft) (cs : List Char) : Option Draft :=
  match fuel, skipBlanks cs with
  | _, [] => some draft
  | 0, _ => none
  | fuel + 1, cs =>
    match cs with
    | '#' :: _ => do readAll? fuel draft (← restOfLine? cs)
    | '\n' :: rest => readAll? fuel draft rest
    | '\r' :: '\n' :: rest => readAll? fuel draft rest
    | '[' :: rest => do
      let (draft, rest) ← draft.readHeader? rest
      readAll? fuel draft rest
    | cs => do
      let (draft, rest) ← draft.readMember? cs
      readAll? fuel draft rest

end Draft

/-- The text after a byte order mark, if it starts with one. -/
def skipMark : List Char → List Char
  | '\ufeff' :: rest => rest
  | cs => cs

/-- The root table of a document. -/
def read? (text : String) : Option Value := do
  let cs := skipMark text.toList
  let draft ← Draft.readAll? cs.length .empty cs
  return .table (Entry.membersToValues draft.root)

end ScriptHost.Toml
