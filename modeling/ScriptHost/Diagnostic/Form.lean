import ScriptHost.Diagnostic.Basic
import ScriptHost.Text.WordChar

/-!
# The forms of a diagnostic line

Compilers announce a diagnostic on one line in one of five forms, here in the order in which a line
is tried against them:

* scripted: `F: N: M @ line L, column C.`, an error;
* located with column: `F:L:C: K: M`;
* located: `F:L: K: M`, the column perhaps given by a caret two lines below;
* bare: `K: M` or `K[CODE]: M`, the position perhaps given by an arrow on the next line;
* note: `Note: M`.

A line may decompose in several ways: then `F` is as short as possible without being empty, and the
message of the scripted form as long as possible.
-/

namespace ScriptHost.Diagnostic

/-- Cut a line after its shortest non-empty beginning whose rest is accepted. `before` holds, in
reverse, what is cut off already. -/
def shortestHead {α : Type} (accept : List Char → Option α) (before : List Char) :
    List Char → Option (List Char × α)
  | [] => none
  | c :: rest =>
    match accept rest with
    | some a => some ((c :: before).reverse, a)
    | none => shortestHead accept (c :: before) rest

/-- Cut a line after its longest non-empty beginning whose rest is accepted. `before` holds, in
reverse, what is cut off already. -/
def longestHead {α : Type} (accept : List Char → Option α) (before : List Char) :
    List Char → Option (List Char × α)
  | [] => none
  | c :: rest =>
    match longestHead accept (c :: before) rest with
    | some found => some found
    | none => (accept rest).map fun a => ((c :: before).reverse, a)

/-- The rest of a text that starts with a given text. -/
def after? (start : String) (cs : List Char) : Option (List Char) :=
  start.toList.isPrefixOf? cs

/-- A non-empty run of decimal digits at the start of a text, and what follows it. -/
def digits? (cs : List Char) : Option (List Char × List Char) :=
  let run := cs.takeWhile Text.isDecimalDigit
  if run.isEmpty then none else some (run, cs.dropWhile Text.isDecimalDigit)

/-- The value of an ASCII digit. -/
def asciiDigit? (c : Char) : Option Nat :=
  if '0' ≤ c ∧ c ≤ '9' then some (c.toNat - '0'.toNat) else none

/-- The number that digits stand for. Digits that are not ASCII, and numbers of 2^64 and more, read
as zero. -/
def number (digits : List Char) : Nat :=
  match digits.mapM asciiDigit? with
  | some ds =>
    let n := ds.foldl (fun n d => 10 * n + d) 0
    if n < Nat.pow 2 64 then n else 0
  | none => 0

/-- The first of the given words that starts a text and is followed by a colon and a space, and
what follows them. -/
def kind? (words : List String) (cs : List Char) : Option (DiagnosticKind × List Char) :=
  words.findSome? fun word => (after? (word ++ ": ") cs).map fun rest => (.ofWord word, rest)

/-- The kinds of a located line with a column. -/
def columnKinds : List String := ["fatal error", "error", "warning", "note", "mandatory warning"]

/-- The kinds of a located line without a column. -/
def lineKinds : List String := ["error", "warning", "note", "mandatory warning"]

/-- The kinds of a bare line. -/
def bareKinds : List String := ["error", "warning", "note"]

/-- The end of a scripted line: line and column, an optional full stop, and blanks. -/
def scriptedPosition? (cs : List Char) : Option (Nat × Nat) := do
  let cs ← after? " @ line " cs
  let (line, cs) ← digits? cs
  let cs ← after? ", column " cs
  let (column, cs) ← digits? cs
  let cs := (after? "." cs).getD cs
  if cs.all Text.isBlank then some (number line, number column) else none

/-- What follows the file name of a scripted line: the message and the position. -/
def scriptedTail? (cs : List Char) : Option (List Char × Nat × Nat) := do
  let cs ← after? ": " cs
  let (_, cs) ← digits? cs
  let cs ← after? ": " cs
  longestHead scriptedPosition? [] cs

/-- The diagnostic of a scripted line. -/
def scripted? (line : List Char) : Option Diagnostic :=
  (shortestHead scriptedTail? [] line).map fun (file, message, row, column) =>
    ⟨.error, some (.ofList file), .ofList (Text.trim message), row, column⟩

/-- What follows the file name of a located line with a column: position, kind and message. -/
def columnTail? (cs : List Char) : Option (Nat × Nat × DiagnosticKind × List Char) := do
  let cs ← after? ":" cs
  let (line, cs) ← digits? cs
  let cs ← after? ":" cs
  let (column, cs) ← digits? cs
  let cs ← after? ": " cs
  let (kind, message) ← kind? columnKinds cs
  return (number line, number column, kind, message)

/-- The diagnostic of a located line with a column. -/
def locatedColumn? (line : List Char) : Option Diagnostic :=
  (shortestHead columnTail? [] line).map fun (file, row, column, kind, message) =>
    ⟨kind, some (.ofList file), .ofList message, row, column⟩

/-- What follows the file name of a located line without a column: line, kind and message. -/
def lineTail? (cs : List Char) : Option (Nat × DiagnosticKind × List Char) := do
  let cs ← after? ":" cs
  let (line, cs) ← digits? cs
  let cs ← after? ": " cs
  let (kind, message) ← kind? lineKinds cs
  return (number line, kind, message)

/-- The diagnostic of a located line without a column. -/
def located? (line : List Char) : Option Diagnostic :=
  (shortestHead lineTail? [] line).map fun (file, row, kind, message) =>
    ⟨kind, some (.ofList file), .ofList message, row, 0⟩

/-- A text without a leading code in square brackets, if it has one. -/
def skipCode (cs : List Char) : List Char :=
  match after? "[" cs with
  | none => cs
  | some inner =>
    match inner.takeWhile Text.isWordChar, after? "]" (inner.dropWhile Text.isWordChar) with
    | _ :: _, some rest => rest
    | _, _ => cs

/-- The diagnostic of a bare line. -/
def bare? (line : List Char) : Option Diagnostic :=
  bareKinds.findSome? fun word => do
    let cs ← after? word line
    let message ← after? ": " (skipCode cs)
    return ⟨.ofWord word, none, .ofList message, 0, 0⟩

/-- The diagnostic of a note line. -/
def note? (line : List Char) : Option Diagnostic :=
  (after? "Note: " line).map fun message => ⟨.note, none, .ofList message, 0, 0⟩

/-- What a single line announces, by its form. -/
inductive Form where
  | scripted (d : Diagnostic)
  | locatedColumn (d : Diagnostic)
  | located (d : Diagnostic)
  | bare (d : Diagnostic)
  | note (d : Diagnostic)

namespace Form

/-- The first form that a line has. -/
def ofLine? (line : List Char) : Option Form :=
  (scripted? line).map scripted
    <|> (locatedColumn? line).map locatedColumn
    <|> (located? line).map located
    <|> (bare? line).map bare
    <|> (note? line).map note

/-- The diagnostic of a form. -/
def diagnostic : Form → Diagnostic
  | scripted d | locatedColumn d | located d | bare d | note d => d

end Form

/-- The column that a caret line points at, counted in bytes from one. A caret line holds a single
caret with blanks around it. -/
def caretColumn? (line : List Char) : Option Nat :=
  let indent := line.takeWhile Text.isBlank
  match line.dropWhile Text.isBlank with
  | '^' :: rest =>
    if rest.all Text.isBlank then some ((indent.map Char.utf8Size).foldr (· + ·) 1) else none
  | _ => none

/-- The end of an arrow line: line and column, then blanks. -/
def arrowPosition? (cs : List Char) : Option (Nat × Nat) := do
  let cs ← after? ":" cs
  let (line, cs) ← digits? cs
  let cs ← after? ":" cs
  let (column, cs) ← digits? cs
  if cs.all Text.isBlank then some (number line, number column) else none

/-- The file and position that an arrow line `--> F:L:C` points at. -/
def arrow? (line : List Char) : Option (String × Nat × Nat) := do
  let cs ← after? "--> " (line.dropWhile Text.isBlank)
  let (file, row, column) ← shortestHead arrowPosition? [] cs
  return (.ofList file, row, column)

end ScriptHost.Diagnostic
