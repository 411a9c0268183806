import ScriptHost.Json.Basic
import ScriptHost.Text.Hex

/-!
# Reading JSON texts

A text is cut into tokens, and the tokens drive a pushdown machine whose stack holds the arrays and
objects still open. `read?` demands one sound value and nothing after it.
-/

namespace ScriptHost.Json

/-- A token of a JSON text; an atom is a complete scalar. -/
inductive Token where
  | arrayOpen
  | arrayClose
  | objectOpen
  | objectClose
  | comma
  | colon
  | atom (raw : Raw)

namespace Token

/-- The value of four hexadecimal digits given as bytes. -/
def hex4? (a b c d : UInt8) : Option Nat := do
  let digit (x : UInt8) : Option Nat := Text.hexValue? (Char.ofNat x.toNat)
  return ((← digit a) * 16 + (← digit b)) * 256 + (← digit c) * 16 + (← digit d)

/-- The byte a one-letter escape stands for. -/
def simpleEscape? (b : UInt8) : Option UInt8 :=
  if b = 0x22 ∨ b = 0x5C ∨ b = 0x2F then some b
  else if b = 0x62 then some 0x08
  else if b = 0x66 then some 0x0C
  else if b = 0x6E then some 0x0A
  else if b = 0x72 then some 0x0D
  else if b = 0x74 then some 0x09
  else none

/-- What is known of a string literal so far: its bytes, a high surrogate waiting for its low one,
and whether everything before was sound. -/
structure Literal where
  bytes : ByteArray
  high : Option Nat
  sound : Bool

namespace Literal

/-- The empty literal. -/
def empty : Literal :=
  ⟨.empty, none, true⟩

/-- Add a byte; a waiting high surrogate can no longer be completed. -/
def push (l : Literal) (b : UInt8) : Literal :=
  ⟨l.bytes.push b, none, l.sound && l.high.isNone⟩

/-- Add a UTF-16 unit: surrogates count in pairs only. -/
def pushUnit (l : Literal) (unit : Nat) : Literal :=
  let isHigh := 0xD800 ≤ unit && unit < 0xDC00
  let isLow := 0xDC00 ≤ unit && unit < 0xE000
  match l.high with
  | some high =>
    if isLow then
      let point := 0x10000 + (high - 0xD800) * 0x400 + (unit - 0xDC00)
      ⟨l.bytes ++ (String.singleton (Char.ofNat point)).toUTF8, none, l.sound⟩
    else ⟨l.bytes, none, false⟩
  | none =>
    if isHigh then ⟨l.bytes, some unit, l.sound⟩
    else if isLow then ⟨l.bytes, none, false⟩
    else ⟨l.bytes ++ (String.singleton (Char.ofNat unit)).toUTF8, none, l.sound⟩

/-- The text of a finished literal, when it has one. -/
def text? (l : Literal) : Option String :=
  if l.sound && l.high.isNone then String.fromUTF8? l.bytes else none

end Literal

/-- The rest of a string literal after its opening quote, and the bytes after its closing one. -/
def string? (l : Literal) : List UInt8 → Option (Option String × List UInt8)
  | [] => none
  | b :: rest =>
    if b = 0x22 then some (l.text?, rest)
    else if b < 0x20 then none
    else if b = 0x5C then
      match rest with
      | 0x75 :: x :: y :: z :: w :: rest => do
        let unit ← hex4? x y z w
        string? (l.pushUnit unit) rest
      | e :: rest => do
        let b ← simpleEscape? e
        string? (l.push b) rest
      | [] => none
    else string? (l.push b) rest

/-- Whether a byte is a decimal digit. -/
def isDigit (b : UInt8) : Bool :=
  0x30 ≤ b && b ≤ 0x39

/-- The number that decimal digits form. -/
def digitsValue (digits : List UInt8) : Nat :=
  digits.foldl (fun n b => 10 * n + (b.toNat - 0x30)) 0

/-- The fraction after the integer part: its digits and what follows; a point needs a digit. -/
def fraction? : List UInt8 → Option (List UInt8 × List UInt8)
  | 0x2E :: rest =>
    let digits := rest.takeWhile isDigit
    if digits.isEmpty then none else some (digits, rest.dropWhile isDigit)
  | rest => some ([], rest)

/-- The exponent after the fraction, none when there is no exponent part, and what follows. -/
def exponent? : List UInt8 → Option (Option Int × List UInt8)
  | b :: rest =>
    if b = 0x65 ∨ b = 0x45 then
      let (negative, rest) :=
        match rest with
        | 0x2B :: rest => (false, rest)
        | 0x2D :: rest => (true, rest)
        | rest => (false, rest)
      let digits := rest.takeWhile isDigit
      if digits.isEmpty then none
      else
        let value := Int.ofNat (digitsValue digits)
        some (some (if negative then -value else value), rest.dropWhile isDigit)
    else some (none, b :: rest)
  | [] => some (none, [])

/-- A number: an optional sign, an integer part without leading zeros, an optional fraction and an
optional exponent. -/
def number? (bytes : List UInt8) : Option (Numeral × List UInt8) := do
  let (negative, bytes) :=
    match bytes with
    | 0x2D :: rest => (true, rest)
    | rest => (false, rest)
  let whole := bytes.takeWhile isDigit
  if whole.isEmpty || (whole.head? == some 0x30 && whole.length > 1) then none
  let (frac, rest) ← fraction? (bytes.dropWhile isDigit)
  let (exponent, rest) ← exponent? rest
  let scale := exponent.getD 0 - Int.ofNat frac.length
  return (⟨negative, digitsValue (whole ++ frac), scale, frac.isEmpty && exponent.isNone⟩, rest)

/-- The first token of a text without leading space, and what follows it. -/
def next? : List UInt8 → Option (Token × List UInt8)
  | [] => none
  | 0x5B :: rest => some (.arrayOpen, rest)
  | 0x5D :: rest => some (.arrayClose, rest)
  | 0x7B :: rest => some (.objectOpen, rest)
  | 0x7D :: rest => some (.objectClose, rest)
  | 0x2C :: rest => some (.comma, rest)
  | 0x3A :: rest => some (.colon, rest)
  | 0x22 :: rest => do
    let (text, rest) ← string? .empty rest
    return (.atom (.string text), rest)
  | 0x6E :: 0x75 :: 0x6C :: 0x6C :: rest => some (.atom .null, rest)
  | 0x74 :: 0x72 :: 0x75 :: 0x65 :: rest => some (.atom (.bool true), rest)
  | 0x66 :: 0x61 :: 0x6C :: 0x73 :: 0x65 :: rest => some (.atom (.bool false), rest)
  | bytes => do
    let (n, rest) ← number? bytes
    return (.atom (.number n), rest)

/-- Whether a byte may stand between tokens. -/
def isSpace (b : UInt8) : Bool :=
  b = 0x20 || b = 0x09 || b = 0x0A || b = 0x0D

/-- The tokens of a text, those read so far given in reverse; `fuel` bounds their number. -/
def readAll (fuel : Nat) (read : List Token) (bytes : List UInt8) : Option (List Token) :=
  match fuel, bytes.dropWhile isSpace with
  | _, [] => some read.reverse
  | 0, _ :: _ => none
  | fuel + 1, bytes => do
    let (token, rest) ← next? bytes
    readAll fuel (token :: read) rest

/-- The tokens of a text. Every token takes at least one byte, so the text's length bounds their
number. -/
def ofBytes? (bytes : List UInt8) : Option (List Token) :=
  readAll bytes.length [] bytes

end Token

/-- An array or object still open: what it holds already, in reverse, and for an object the key
whose value is being read. -/
inductive Frame where
  | array (items : List Raw)
  | object (members : List (Option String × Raw))
  | member (members : List (Option String × Raw)) (key : Option String)

/-- What the machine accepts next. -/
inductive Expect where
  | value
  | firstItem
  | firstKey
  | key
  | colon
  | separator
  | nothing
  deriving DecidableEq

/-- The pushdown machine: the open containers, innermost first, what may come next, and the value
when it is complete. -/
structure Machine where
  stack : List Frame
  expect : Expect
  result : Option Raw

namespace Machine

/-- A machine that has read nothing. -/
def start : Machine :=
  ⟨[], .value, none⟩

/-- Hand a finished value to the innermost open container. -/
def complete (raw : Raw) : List Frame → Option Machine
  | [] => some ⟨[], .nothing, some raw⟩
  | .array items :: stack => some ⟨.array (raw :: items) :: stack, .separator, none⟩
  | .member members key :: stack => some ⟨.object ((key, raw) :: members) :: stack, .separator, none⟩
  | .object _ :: _ => none

/-- Read one token. -/
def step (m : Machine) (token : Token) : Option Machine :=
  let opens := m.expect = .value ∨ m.expect = .firstItem
  match token with
  | .arrayOpen => if opens then some ⟨.array [] :: m.stack, .firstItem, none⟩ else none
  | .objectOpen => if opens then some ⟨.object [] :: m.stack, .firstKey, none⟩ else none
  | .arrayClose =>
    if m.expect = .firstItem ∨ m.expect = .separator then
      match m.stack with
      | .array items :: stack => complete (.array items.reverse) stack
      | _ => none
    else none
  | .objectClose =>
    if m.expect = .firstKey ∨ m.expect = .separator then
      match m.stack with
      | .object members :: stack => complete (.object members.reverse) stack
      | _ => none
    else none
  | .comma =>
    if m.expect = .separator then
      match m.stack with
      | .array _ :: _ => some { m with expect := .value }
      | .object _ :: _ => some { m with expect := .key }
      | _ => none
    else none
  | .colon => if m.expect = .colon then some { m with expect := .value } else none
  | .atom raw =>
    if opens then complete raw m.stack
    else if m.expect = .firstKey ∨ m.expect = .key then
      match raw, m.stack with
      | .string key, .object members :: stack => some ⟨.member members key :: stack, .colon, none⟩
      | _, _ => none
    else none

end Machine

/-- The form of a text that is one JSON value with space around it. -/
def readRaw? (data : ByteArray) : Option Raw := do
  let tokens ← Token.ofBytes? data.toList
  let final ← tokens.foldlM Machine.step Machine.start
  final.result

/-- The value of a JSON text given as bytes. -/
def readBytes? (data : ByteArray) : Option Value :=
  (readRaw? data).bind Raw.value?

/-- The value of a JSON text. -/
def read? (text : String) : Option Value :=
  readBytes? text.toUTF8

end ScriptHost.Json
