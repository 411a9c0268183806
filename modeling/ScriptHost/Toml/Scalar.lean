import ScriptHost.Text.Hex
import ScriptHost.Toml.Basic

/-!
# TOML scalars

Readers for the parts of a TOML text that do not nest: space and comments, the four kinds of
strings, keys, numbers and dates. Every reader takes the characters ahead and returns what it read
with the characters behind it, or nothing when they have another form.
-/

namespace ScriptHost.Toml

/-- A reader of one kind of thing at the start of a text. -/
abbrev Reader (α : Type) := List Char → Option (α × List Char)

/-- Whether a character is a blank within a line. -/
def isLineBlank (c : Char) : Bool :=
  c == ' ' || c == '\t'

/-- The text after the blanks within a line. -/
def skipBlanks (cs : List Char) : List Char :=
  cs.dropWhile isLineBlank

/-- Whether a character may stand in a comment or a string: no control character but the tab. -/
def isPrintable (c : Char) : Bool :=
  c == '\t' || (0x20 ≤ c.toNat && c.toNat != 0x7F)

/-- The text after a line end. -/
def lineEnd? : List Char → Option (List Char)
  | '\n' :: rest => some rest
  | '\r' :: '\n' :: rest => some rest
  | _ => none

/-- The text after a comment, which runs to the end of the line. -/
def skipComment : List Char → List Char
  | '#' :: rest => rest.dropWhile isPrintable
  | cs => cs

/-- The text after what may follow on a line that is complete: blanks, a comment and the line end or
the end of the text. -/
def restOfLine? (cs : List Char) : Option (List Char) :=
  match skipComment (skipBlanks cs) with
  | [] => some []
  | cs => lineEnd? cs

/-- The text after blanks, comments and line ends. A comment must end in a line end. -/
def skipLines (fuel : Nat) (cs : List Char) : Option (List Char) :=
  match fuel, skipBlanks cs with
  | 0, cs => some cs
  | fuel + 1, cs =>
    match cs with
    | '#' :: _ => do skipLines fuel (← lineEnd? (skipComment cs))
    | '\n' :: rest => skipLines fuel rest
    | '\r' :: _ => do skipLines fuel (← lineEnd? cs)
    | cs => some cs

/-- The number that hexadecimal digits form. -/
def hexNumber? (digits : List Char) : Option Nat :=
  digits.foldlM (fun n c => (Text.hexValue? c).map (16 * n + ·)) 0

/-- The character with a code point, unless it is a surrogate or out of range. -/
def charOf? (n : Nat) : Option Char :=
  if n.isValidChar then some (Char.ofNat n) else none

/-- The character that a backslash escape stands for; the backslash is already read. -/
def escape? : Reader Char
  | 'b' :: rest => some ('\x08', rest)
  | 't' :: rest => some ('\t', rest)
  | 'n' :: rest => some ('\n', rest)
  | 'f' :: rest => some ('\x0c', rest)
  | 'r' :: rest => some ('\r', rest)
  | '"' :: rest => some ('"', rest)
  | '\\' :: rest => some ('\\', rest)
  | 'u' :: a :: b :: c :: d :: rest => do
    return (← charOf? (← hexNumber? [a, b, c, d]), rest)
  | 'U' :: a :: b :: c :: d :: e :: f :: g :: h :: rest => do
    return (← charOf? (← hexNumber? [a, b, c, d, e, f, g, h]), rest)
  | _ => none

/-- The rest of a string in double quotes on one line; `read` holds its characters in reverse. -/
def basicString? (fuel : Nat) (read : List Char) : Reader String
  | [] => none
  | c :: rest =>
    match fuel with
    | 0 => none
    | fuel + 1 =>
      if c = '"' then some (.ofList read.reverse, rest)
      else if c = '\\' then do
        let (c, rest) ← escape? rest
        basicString? fuel (c :: read) rest
      else if isPrintable c then basicString? fuel (c :: read) rest
      else none

/-- The rest of a string in single quotes on one line. -/
def literalString? (cs : List Char) : Option (String × List Char) :=
  match cs.dropWhile fun c => isPrintable c && c != '\'' with
  | '\'' :: rest => some (.ofList (cs.takeWhile fun c => isPrintable c && c != '\''), rest)
  | _ => none

/-- The quotes at the start of a text, and the text after them. -/
def quoteRun (quote : Char) (cs : List Char) : Nat × List Char :=
  ((cs.takeWhile (· == quote)).length, cs.dropWhile (· == quote))

/-- The text after blanks and line ends. -/
def skipSpace : List Char → List Char
  | ' ' :: rest | '\t' :: rest | '\n' :: rest | '\r' :: '\n' :: rest => skipSpace rest
  | cs => cs

/-- The text after a backslash that continues a line: blanks, a line end, and all blanks and line
ends that follow. -/
def lineContinuation? (cs : List Char) : Option (List Char) := do
  return skipSpace (← lineEnd? (skipBlanks cs))

/-- The rest of a string over several lines, delimited by three quotes of one kind. Up to two quotes
may stand before the delimiter. Only double quotes allow escapes. -/
def multilineString? (quote : Char) (fuel : Nat) (read : List Char) (cs : List Char) :
    Option (String × List Char) :=
  match fuel, cs with
  | _, [] => none
  | 0, _ => none
  | fuel + 1, c :: rest =>
    if c = quote then
      let (count, behind) := quoteRun quote cs
      if count < 3 then multilineString? quote fuel (List.replicate count quote ++ read) behind
      else if count ≤ 5 then
        some (.ofList (List.replicate (count - 3) quote ++ read).reverse, behind)
      else none
    else if c = '\\' && quote == '"' then
      match lineContinuation? rest with
      | some behind => multilineString? quote fuel read behind
      | none => do
        let (c, behind) ← escape? rest
        multilineString? quote fuel (c :: read) behind
    else if isPrintable c then multilineString? quote fuel (c :: read) rest
    else do multilineString? quote fuel ('\n' :: read) (← lineEnd? cs)

/-- The text after the line end that directly follows an opening delimiter, if there is one. -/
def skipFirstLineEnd (cs : List Char) : List Char :=
  (lineEnd? cs).getD cs

/-- A string of any kind. -/
def string? : Reader String
  | '"' :: '"' :: '"' :: rest => multilineString? '"' rest.length [] (skipFirstLineEnd rest)
  | '\'' :: '\'' :: '\'' :: rest => multilineString? '\'' rest.length [] (skipFirstLineEnd rest)
  | '"' :: rest => basicString? rest.length [] rest
  | '\'' :: rest => literalString? rest
  | _ => none

/-- Whether a character may stand in a key without quotes. -/
def isBareKeyChar (c : Char) : Bool :=
  c.isAlphanum || c == '-' || c == '_'

/-- One part of a key. -/
def simpleKey? (cs : List Char) : Option (String × List Char) :=
  match cs with
  | '"' :: rest => basicString? rest.length [] rest
  | '\'' :: rest => literalString? rest
  | _ =>
    match cs.takeWhile isBareKeyChar with
    | [] => none
    | name => some (.ofList name, cs.dropWhile isBareKeyChar)

/-- A key: parts joined by dots, blanks allowed around each part. -/
def key? (fuel : Nat) (cs : List Char) : Option (List String × List Char) :=
  match fuel with
  | 0 => none
  | fuel + 1 => do
    let (part, rest) ← simpleKey? (skipBlanks cs)
    match skipBlanks rest with
    | '.' :: rest => do
      let (parts, rest) ← key? fuel rest
      return (part :: parts, rest)
    | rest => return ([part], rest)

/-- The rest of the digits of a number. Between two digits a single underscore may stand; `ready`
says that a digit was the last character, and `read` holds the digits so far in reverse. -/
def digitsFrom? (isDigit : Char → Bool) (ready : Bool) (read : List Char) :
    List Char → Option (List Char × List Char)
  | [] => if ready then some (read.reverse, []) else none
  | c :: rest =>
    if isDigit c then digitsFrom? isDigit true (c :: read) rest
    else if !ready then none
    else if c = '_' then digitsFrom? isDigit false read rest
    else some (read.reverse, c :: rest)

/-- The digits of a number, single underscores between digits left out. -/
def digitGroups? (isDigit : Char → Bool) (cs : List Char) : Option (List Char × List Char) :=
  digitsFrom? isDigit false [] cs

/-- A sign, if there is one; true for minus. -/
def sign : List Char → Bool × List Char
  | '+' :: rest => (false, rest)
  | '-' :: rest => (true, rest)
  | rest => (false, rest)

/-- The number that decimal digits form. -/
def decimalValue (digits : List Char) : Nat :=
  digits.foldl (fun n c => 10 * n + (c.toNat - '0'.toNat)) 0

/-- Decimal digits of which the first is zero only when it is alone. -/
def wholeDigits? (cs : List Char) : Option (List Char × List Char) :=
  match cs with
  | '0' :: rest => some (['0'], rest)
  | _ => digitGroups? Char.isDigit cs

/-- Whether an integer fits the 64 bits of a TOML integer. -/
def fits64 (n : Int) : Bool :=
  -(Int.pow 2 63) ≤ n && n < Int.pow 2 63

/-- An integer in a base marked by a letter after a zero. -/
def basedInteger? (isDigit : Char → Bool) (base : Nat) (cs : List Char) :
    Option (Value × List Char) := do
  let (digits, rest) ← digitGroups? isDigit cs
  let n ← digits.foldlM (fun n c => (Text.hexValue? c).map (base * n + ·)) 0
  if n < Nat.pow 2 63 then some (.integer n, rest) else none

/-- An integer. -/
def integer? : Reader Value
  | '0' :: 'x' :: rest => basedInteger? (fun c => (Text.hexValue? c).isSome) 16 rest
  | '0' :: 'o' :: rest => basedInteger? (fun c => '0' ≤ c && c ≤ '7') 8 rest
  | '0' :: 'b' :: rest => basedInteger? (fun c => c == '0' || c == '1') 2 rest
  | cs => do
    let (negative, cs) := sign cs
    let (digits, rest) ← wholeDigits? cs
    let magnitude : Int := decimalValue digits
    let n := if negative then -magnitude else magnitude
    if fits64 n then some (.integer n, rest) else none

/-- The exponent of a float: its value and the text behind it. -/
def floatExponent? : Reader Int
  | c :: rest =>
    if c == 'e' || c == 'E' then do
      let (negative, rest) := sign rest
      let (digits, rest) ← digitGroups? Char.isDigit rest
      let magnitude : Int := decimalValue digits
      return (if negative then -magnitude else magnitude, rest)
    else none
  | [] => none

/-- The smallest magnitude that rounds to no finite binary64. -/
def floatOverflow : Nat :=
  Nat.pow 2 1024 - Nat.pow 2 970

/-- Whether digits scaled by a power of ten round to infinity. -/
def overflows (digits : Nat) (scale : Int) : Bool :=
  if digits = 0 then false
  else if scale > 400 then true
  else if 0 ≤ scale then floatOverflow ≤ digits * Nat.pow 10 scale.toNat
  else
    let places := (-scale).toNat
    places ≤ digits.log2 && floatOverflow * Nat.pow 10 places ≤ digits

/-- A float: a fraction, an exponent or both must follow the whole part. One that rounds to positive
infinity is refused. -/
def float? (cs : List Char) : Option (Value × List Char) := do
  let (negative, cs) := sign cs
  match cs with
  | 'i' :: 'n' :: 'f' :: rest | 'n' :: 'a' :: 'n' :: rest => return (.float, rest)
  | _ =>
    let (whole, rest) ← wholeDigits? cs
    let (fraction, exponent, rest) ← (match rest with
      | '.' :: rest => do
        let (fraction, rest) ← digitGroups? Char.isDigit rest
        match rest with
        | 'e' :: _ | 'E' :: _ =>
          let (exponent, rest) ← floatExponent? rest
          return (fraction, exponent, rest)
        | _ => return (fraction, 0, rest)
      | rest => do
        let (exponent, rest) ← floatExponent? rest
        return ([], exponent, rest))
    if !negative && overflows (decimalValue (whole ++ fraction)) (exponent - fraction.length) then
      none
    else return (.float, rest)

/-- A number of exactly `width` digits within bounds. -/
def fixedDigits? (width low high : Nat) (cs : List Char) : Option (Nat × List Char) :=
  let digits := cs.take width
  let n := decimalValue digits
  if digits.length = width && digits.all Char.isDigit && low ≤ n && n ≤ high then
    some (n, cs.drop width)
  else none

/-- The text after a given character. -/
def char? (c : Char) : List Char → Option (List Char)
  | d :: rest => if c = d then some rest else none
  | [] => none

/-- The number of days of a month. -/
def daysOf (year month : Nat) : Nat :=
  if month = 2 then
    if year % 4 = 0 && (year % 100 != 0 || year % 400 = 0) then 29 else 28
  else if month = 4 || month = 6 || month = 9 || month = 11 then 30
  else 31

/-- A number as text with a least number of digits. -/
def padded (width n : Nat) : String :=
  let digits := toString n
  .ofList (List.replicate (width - digits.length) '0') ++ digits

/-- A date, with its text. -/
def date? : Reader String := fun cs => do
  let (year, cs) ← fixedDigits? 4 0 9999 cs
  let cs ← char? '-' cs
  let (month, cs) ← fixedDigits? 2 1 12 cs
  let cs ← char? '-' cs
  let (day, cs) ← fixedDigits? 2 1 (daysOf year month) cs
  return (s!"{padded 4 year}-{padded 2 month}-{padded 2 day}", cs)

/-- The text of a fraction of a second: nine digits count, and zeros at its end are left out. -/
def fractionText (digits : List Char) : String :=
  match ((digits.take 9).reverse.dropWhile (· == '0')).reverse with
  | [] => ""
  | digits => "." ++ .ofList digits

/-- A time of day, with its text. -/
def time? : Reader String := fun cs => do
  let (hour, cs) ← fixedDigits? 2 0 23 cs
  let cs ← char? ':' cs
  let (minute, cs) ← fixedDigits? 2 0 59 cs
  let cs ← char? ':' cs
  let (second, cs) ← fixedDigits? 2 0 60 cs
  let text := s!"{padded 2 hour}:{padded 2 minute}:{padded 2 second}"
  match cs with
  | '.' :: d :: rest =>
    if d.isDigit then
      return (text ++ fractionText (d :: rest.takeWhile Char.isDigit), rest.dropWhile Char.isDigit)
    else return (text, cs)
  | _ => return (text, cs)

/-- A time offset, with its text. -/
def offset? : Reader String
  | 'Z' :: rest | 'z' :: rest => some ("Z", rest)
  | c :: rest =>
    if c == '+' || c == '-' then do
      let (hours, cs) ← fixedDigits? 2 0 23 rest
      let cs ← char? ':' cs
      let (minutes, cs) ← fixedDigits? 2 0 59 cs
      let sign := if hours = 0 && minutes = 0 then '+' else c
      return (s!"{sign}{padded 2 hours}:{padded 2 minutes}", cs)
    else none
  | [] => none

/-- A date, a time, or a date and a time with or without an offset. -/
def datetime? : Reader Value := fun cs =>
  match date? cs with
  | none => (time? cs).map fun (time, behind) => (.datetime time, behind)
  | some (date, behind) =>
    let timed := match behind with
      | c :: rest => if c == 'T' || c == 't' || c == ' ' then time? rest else none
      | [] => none
    match timed with
    | none => some (.datetime date, behind)
    | some (time, behind) =>
      match offset? behind with
      | none => some (.datetime s!"{date}T{time}", behind)
      | some (offset, behind) => some (.datetime s!"{date}T{time}{offset}", behind)

/-- A number or a date. -/
def numberOrDate? (cs : List Char) : Option (Value × List Char) :=
  datetime? cs <|> float? cs <|> integer? cs

/-- The text after a given word. -/
def word? (word : String) (cs : List Char) : Option (List Char) :=
  word.toList.isPrefixOf? cs

end ScriptHost.Toml
