import Mathlib.Data.Nat.Digits.Defs
import ScriptHost.Diagnostic.Output

/-!
# What compilers print

The output of a compiler as a list of items: a message in one of six layouts, or a line that means
nothing. `Item.lines` says how an item is written and `Item.diagnostic?` what it announces; neither
refers to how output is read. `Item.Proper` asks of an item what the layouts leave open: that the
line which announces a message does not also look like a message of a form that is tried before.
-/

namespace ScriptHost.Diagnostic

/-! ## Parts of a message -/

/-- The words by which compilers grade their messages. -/
inductive Severity where
  | error
  | fatalError
  | warning
  | mandatoryWarning
  | note
  deriving DecidableEq, Repr

namespace Severity

/-- The word that is printed. -/
def word : Severity → List Char
  | error => "error".toList
  | fatalError => "fatal error".toList
  | warning => "warning".toList
  | mandatoryWarning => "mandatory warning".toList
  | note => "note".toList

/-- The kind that the word stands for. -/
def kind : Severity → DiagnosticKind
  | error | fatalError => .error
  | warning => .warning
  | mandatoryWarning => .mandatoryWarning
  | note => .note

end Severity

/-- The name of a source file: neither a colon nor an arrow is in it. -/
structure FileName where
  chars : List Char
  ne_nil : chars ≠ []
  no_colon : ':' ∉ chars
  no_newline : '\n' ∉ chars
  no_arrow : ¬ "-->".toList <:+: chars

/-- A decimal numeral in ASCII digits. -/
structure Numeral where
  digits : List Char
  ne_nil : digits ≠ []
  ascii : ∀ c ∈ digits, '0' ≤ c ∧ c ≤ '9'

namespace Numeral

/-- The number that a numeral writes. -/
def value (n : Numeral) : Nat :=
  Nat.ofDigits 10 (n.digits.reverse.map fun c => c.toNat - '0'.toNat)

/-- The line or column that a numeral gives. A number that does not fit into 64 bits gives none. -/
def position (n : Numeral) : Nat :=
  if n.value < 2 ^ 64 then n.value else 0

end Numeral

/-- The text of a message. It contains no line end, of which a carriage return at the end of the
text would become part. -/
structure Message where
  chars : List Char
  no_newline : '\n' ∉ chars
  no_return : chars.getLast? ≠ some '\r'

/-- The code of an error. -/
structure ErrorCode where
  chars : List Char
  ne_nil : chars ≠ []
  word : ∀ c ∈ chars, Text.isWordChar c = true

/-- A code in square brackets, if there is one. -/
def bracketed : Option ErrorCode → List Char
  | none => []
  | some code => '[' :: (code.chars ++ [']'])

/-! ## Items -/

/-- A part of the output of a compiler. In the comments `F` is a file name, `L`, `C` and `N` are
numerals, `K` is a severity and `M` a message. -/
inductive Item where
  /-- `F:L: K: M`, then an echo of the source, then a caret between spaces. -/
  | caret (file : FileName) (line : Numeral) (severity : Severity) (message : Message)
      (echo : List Char) (indent trail : Nat)
  /-- `F:L:C: K: M`. -/
  | located (file : FileName) (line column : Numeral) (severity : Severity) (message : Message)
  /-- `K: M` or `K[CODE]: M`, then ` --> F:L:C`. -/
  | arrow (severity : Severity) (code : Option ErrorCode) (message : Message) (file : FileName)
      (line column : Numeral)
  /-- `K: M`. -/
  | bare (severity : Severity) (message : Message)
  /-- `F: N: M @ line L, column C.` -/
  | scripted (file : FileName) (number : Numeral) (message : Message) (line column : Numeral)
  /-- `Note: M`. -/
  | note (message : Message)
  /-- A line that announces nothing. -/
  | other (text : List Char)

namespace Item

/-- The line by which an item starts. -/
def firstLine : Item → List Char
  | caret file line severity message _ _ _ =>
    file.chars ++ (":".toList ++ (line.digits ++ (": ".toList ++ (severity.word ++
      (": ".toList ++ message.chars)))))
  | located file line column severity message =>
    file.chars ++ (":".toList ++ (line.digits ++ (":".toList ++ (column.digits ++
      (": ".toList ++ (severity.word ++ (": ".toList ++ message.chars)))))))
  | arrow severity code message _ _ _ =>
    severity.word ++ (bracketed code ++ (": ".toList ++ message.chars))
  | bare severity message => severity.word ++ (": ".toList ++ message.chars)
  | scripted file number message line column =>
    file.chars ++ (": ".toList ++ (number.digits ++ (": ".toList ++ (message.chars ++
      (" @ line ".toList ++ (line.digits ++ (", column ".toList ++
        (column.digits ++ ".".toList))))))))
  | note message => ['N', 'o', 't', 'e', ':', ' '] ++ message.chars
  | other text => text

/-- The lines that follow the first line of an item and belong to it. -/
def laterLines : Item → List (List Char)
  | caret _ _ _ _ echo indent trail =>
    [echo, List.replicate indent ' ' ++ '^' :: List.replicate trail ' ']
  | arrow _ _ _ file line column =>
    [" --> ".toList ++ (file.chars ++ (":".toList ++ (line.digits ++
      (":".toList ++ column.digits))))]
  | located .. | bare .. | scripted .. | note _ | other _ => []

/-- The lines that an item is printed as. -/
def lines (item : Item) : List (List Char) :=
  item.firstLine :: item.laterLines

/-- The diagnostic that an item announces. -/
def diagnostic? : Item → Option Diagnostic
  | caret file line severity message _ indent _ =>
    some ⟨severity.kind, some (.ofList file.chars), .ofList message.chars, line.position,
      indent + 1⟩
  | located file line column severity message =>
    some ⟨severity.kind, some (.ofList file.chars), .ofList message.chars, line.position,
      column.position⟩
  | arrow severity _ message file line column =>
    some ⟨severity.kind, some (.ofList file.chars), .ofList message.chars, line.position,
      column.position⟩
  | bare severity message => some ⟨severity.kind, none, .ofList message.chars, 0, 0⟩
  | scripted file _ message line column =>
    some ⟨.error, some (.ofList file.chars), .ofList message.chars, line.position, column.position⟩
  | note message => some ⟨.note, none, .ofList message.chars, 0, 0⟩
  | other _ => none

end Item

/-- The line that is read where a text stands before a line feed. A carriage return at the end of
the text belongs to the line end. -/
def lineOf (text : List Char) : List Char :=
  if text.getLast? = some '\r' then text.dropLast else text

namespace Item

/-- What an item has to meet beside its layout: the severity is one that the layout knows, the first
line has none of the forms that are tried before the one that is meant, the message of a scripted
line is not empty and has no blanks around it, and a line that announces nothing has no form and is
no arrow. -/
def Proper (item : Item) : Prop :=
  let first := item.firstLine
  match item with
  | caret _ _ severity _ echo _ _ =>
    severity ≠ .fatalError ∧ '\n' ∉ echo ∧ scripted? first = none ∧ locatedColumn? first = none
  | located .. => scripted? first = none
  | arrow severity .. | bare severity _ =>
    severity ∈ [.error, .warning, .note] ∧ scripted? first = none ∧ locatedColumn? first = none ∧
      located? first = none
  | scripted _ _ message _ _ => message.chars ≠ [] ∧ Text.trim message.chars = message.chars
  | note _ => scripted? first = none ∧ locatedColumn? first = none ∧ located? first = none
  | other text =>
    '\n' ∉ text ∧ Form.ofLine? (lineOf text) = none ∧ arrow? (lineOf text) = none

instance (item : Item) : Decidable item.Proper := by
  cases item <;> dsimp only [Proper] <;> infer_instance

end Item

/-- The output that consists of some items, every line ended by a line feed. -/
def printed (items : List Item) : String :=
  .ofList ((items.flatMap Item.lines).flatMap (· ++ ['\n']))

end ScriptHost.Diagnostic
