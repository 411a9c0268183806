import ScriptHost.Shell.Decimal

/-!
# Formatted output

The escapes of `echo` and `printf`, and the directives of `printf`. A format is used again as long as
arguments are left. All texts are texts of bytes.
-/

namespace ScriptHost.Shell.Format

/-- The character that a single sign after a backslash stands for. -/
def sign? : Char → Option Char
  | '\\' => some '\\'
  | 'a' => some '\x07'
  | 'b' => some '\x08'
  | 'f' => some '\x0c'
  | 'n' => some '\n'
  | 'r' => some '\r'
  | 't' => some '\t'
  | 'v' => some '\x0b'
  | _ => none

/-- The byte that up to three octal digits stand for, and what follows them. -/
def octal (cs : List Char) : Char × List Char :=
  let digits := (cs.take 3).takeWhile fun c => '0' ≤ c && c ≤ '7'
  (Char.ofNat ((digits.foldl (fun n c => 8 * n + (c.toNat - '0'.toNat)) 0) % 256),
    cs.drop digits.length)

/-- The value of a hexadecimal digit. -/
def hexDigit? (c : Char) : Option Nat :=
  if '0' ≤ c && c ≤ '9' then some (c.toNat - '0'.toNat)
  else if 'a' ≤ c && c ≤ 'f' then some (c.toNat - 'a'.toNat + 10)
  else if 'A' ≤ c && c ≤ 'F' then some (c.toNat - 'A'.toNat + 10)
  else none

/-- Which escapes count beside the single signs. -/
structure Escapes where
  /-- Octal digits must follow a zero. -/
  zeroFirst : Bool
  /-- Octal digits may follow the backslash at once. -/
  plainOctal : Bool
  /-- The sign that stops all output counts. -/
  stops : Bool
  /-- Hexadecimal digits may follow an `x`, and an `e` stands for the escape character. -/
  hexadecimal : Bool

/-- A text with its escapes resolved, and whether the sign that stops all output was met. -/
def unescape (kind : Escapes) : Nat → List Char → List Char × Bool
  | 0, cs => (cs, false)
  | _, [] => ([], false)
  | fuel + 1, '\\' :: c :: rest =>
    let goOn (d : Char) (rest : List Char) : List Char × Bool :=
      let (more, stopped) := unescape kind fuel rest
      (d :: more, stopped)
    match sign? c with
    | some d => goOn d rest
    | none =>
      if c == 'c' && kind.stops then ([], true)
      else if c == '0' && kind.zeroFirst then
        let (d, rest) := octal rest
        goOn d rest
      else if '0' ≤ c && c ≤ '7' && kind.plainOctal then
        let (d, rest) := octal (c :: rest)
        goOn d rest
      else if c == 'e' && kind.hexadecimal then goOn '\x1b' rest
      else if c == 'x' && kind.hexadecimal then
        let digits := ((rest.take 2).map hexDigit?).takeWhile Option.isSome
        if digits.isEmpty then
          let (more, stopped) := unescape kind fuel (c :: rest)
          ('\\' :: more, stopped)
        else goOn (Char.ofNat (digits.foldl (fun n d => 16 * n + d.getD 0) 0)) (rest.drop digits.length)
      else
        let (more, stopped) := unescape kind fuel rest
        ('\\' :: c :: more, stopped)
  | fuel + 1, c :: rest =>
    let (more, stopped) := unescape kind fuel rest
    (c :: more, stopped)

/-- A whole text with its escapes resolved. -/
def unescaped (kind : Escapes) (s : String) : List Char × Bool :=
  unescape kind (s.length + 1) s.toList

/-- The escapes that the shell's own `echo` and the directive `%b` resolve. -/
def echoEscapes : Escapes := ⟨true, false, true, false⟩

/-- The escapes that `echo` resolves on request when it is a program. -/
def requestedEscapes : Escapes := ⟨true, false, true, true⟩

/-- The escapes of a format. -/
def formatEscapes (program : Bool) : Escapes := ⟨false, true, program, program⟩

/-- A directive with its flags. -/
structure Directive where
  flags : List Char
  width : Nat
  precision : Option Nat
  conversion : Char

/-- Fill a text up to a width. -/
def padded (d : Directive) (cs : List Char) : List Char :=
  let fill := List.replicate (d.width - cs.length) ' '
  if d.flags.contains '-' then cs ++ fill else fill ++ cs

/-- Fill a number up to its precision and its width; its sign stands in front. -/
def paddedNumber (d : Directive) (sign digits : List Char) : List Char :=
  let digits := match d.precision with
    | some p => List.replicate (p - digits.length) '0' ++ digits
    | none =>
      if d.flags.contains '0' && !d.flags.contains '-' then
        List.replicate (d.width - sign.length - digits.length) '0' ++ digits
      else digits
  padded d (sign ++ digits)

/-- What is wrong with an argument that should be a number. -/
inductive NumberFault where
  | notNumeric (argument : String)
  | partlyConverted (argument : String)
  | outOfRange (argument : String)
  deriving DecidableEq, Repr

/-- How a format comes to its end: it is used up, output is stopped by an escape, or it is faulty. -/
inductive Ending where
  | complete
  | stopped
  | missingConversion
  | badDirective (text : String)
  deriving DecidableEq, Repr

/-- A formatted output: its text, the faults of arguments in order, and how the format ended. -/
structure Output where
  text : List Char
  faults : List NumberFault
  ending : Ending

/-- An output without faults. -/
def Output.ofText (text : List Char) : Output :=
  ⟨text, [], .complete⟩

/-- A sign and what follows it; true for minus. -/
def sign : List Char → Bool × List Char
  | '-' :: rest => (true, rest)
  | '+' :: rest => (false, rest)
  | cs => (false, cs)

/-- What is wrong with an argument of which some is left after the number at its start. -/
def faultOf (argument : String) (found : Bool) (rest : List Char) : List NumberFault :=
  if rest.isEmpty then [] else if found then [.partlyConverted argument] else [.notNumeric argument]

/-- The number at the start of an argument within bounds, and what is wrong with it. A character stands
for itself after a quote. -/
def argumentNumber (low high : Int) (s : String) : Int × List NumberFault :=
  match s.toList with
  | [] => (0, [])
  | '\'' :: c :: _ | '"' :: c :: _ => (c.toNat, [])
  | cs =>
    let (negative, cs) := sign (cs.dropWhile Char.isWhitespace)
    let isHex := match cs with
      | '0' :: x :: d :: _ => (x == 'x' || x == 'X') && (hexDigit? d).isSome
      | _ => false
    let base := if isHex then 16 else if cs.head? == some '0' then 8 else 10
    let cs := if isHex then cs.drop 2 else cs
    let digits := cs.takeWhile fun c => (hexDigit? c).any (· < base)
    let n : Nat := digits.foldl (fun n c => n * base + (hexDigit? c).getD 0) 0
    let n : Int := if negative then -n else n
    let faults := faultOf s (!digits.isEmpty) (cs.drop digits.length)
    let faults := if faults.isEmpty && (n < low || high < n) then [.outOfRange s] else faults
    (max low (min high n), faults)

/-- The digits of a number in a base. -/
def digitsOf (base n : Nat) (upper : Bool) : List Char :=
  let ds := Nat.toDigits base n
  if upper then ds.map Char.toUpper else ds

/-- The sign in front of a number under a directive. -/
def leadingSign (d : Directive) (negative : Bool) : List Char :=
  if negative then ['-']
  else if d.flags.contains '+' then ['+']
  else if d.flags.contains ' ' then [' ']
  else []

/-- The text of a whole number under a directive: its base, whether it has a sign, and what may stand
in front of its digits. -/
def whole (d : Directive) (argument : String) (base : Nat) (signed : Bool) (lead : List Char) :
    Output :=
  let (n, faults) := if signed then argumentNumber (-(Int.pow 2 63)) (Int.pow 2 63 - 1) argument
    else argumentNumber (1 - Int.pow 2 64) (Int.pow 2 64 - 1) argument
  let sign := if signed then leadingSign d (n < 0)
    else if d.flags.contains '#' && n ≠ 0 then lead else []
  let magnitude := if signed then n.natAbs else (n % (Int.pow 2 64)).toNat
  ⟨paddedNumber d sign (digitsOf base magnitude (d.conversion == 'X')), faults, .complete⟩

/-- The text of a fraction under a directive. The program keeps more binary digits of it than the shell
does. -/
def fraction (program : Bool) (d : Directive) (argument : String) : Output :=
  let (negative, cs) := sign (argument.toList.dropWhile Char.isWhitespace)
  let (read, rest, found) := match Decimal.read? cs with
    | some (magnitude, rest) => (magnitude, rest, true)
    | none => (.quotient 0 1, cs, false)
  let precision : Decimal.Precision :=
    if program then ⟨64, Nat.pow 2 14⟩ else ⟨53, Nat.pow 2 10⟩
  let magnitude := Decimal.represented precision read
  let faults := if argument.isEmpty then [] else faultOf argument found rest
  let faults := if faults.isEmpty && magnitude = .infinite && read ≠ .infinite then [.outOfRange argument]
    else faults
  let upper := d.conversion.isUpper
  let keep := d.flags.contains '#'
  let places := d.precision.getD 6
  let letter := if upper then 'E' else 'e'
  let word (text : String) : List Char := if upper then (text.map Char.toUpper).toList else text.toList
  let digits := match magnitude with
    | .infinite => word "inf"
    | .undefined => word "nan"
    | .quotient num den =>
      match d.conversion.toLower with
      | 'f' => Decimal.fixed num den places keep
      | 'e' => Decimal.scientific num den places letter keep
      | _ => Decimal.general num den places letter keep
  let isNumber := match magnitude with
    | .quotient _ _ => true
    | _ => false
  let d := { d with precision := none, flags := if isNumber then d.flags else d.flags.filter (· != '0') }
  ⟨paddedNumber d (leadingSign d negative) digits, faults, .complete⟩

/-- The text of an argument under a directive, if its conversion is known. -/
def convert? (program : Bool) (d : Directive) (argument : String) : Option Output :=
  let cut (cs : List Char) : List Char := match d.precision with
    | some p => cs.take p
    | none => cs
  match d.conversion with
  | 's' => some (.ofText (padded d (cut argument.toList)))
  | 'b' =>
    let (cs, stopped) := unescaped ⟨true, true, true, false⟩ argument
    some ⟨padded d (cut cs), [], if stopped then .stopped else .complete⟩
  | 'c' => some (.ofText (padded d (argument.toList.take 1)))
  | 'd' | 'i' => some (whole d argument 10 true [])
  | 'u' => some (whole d argument 10 false [])
  | 'o' => some (whole d argument 8 false ['0'])
  | 'x' => some (whole d argument 16 false ['0', 'x'])
  | 'X' => some (whole d argument 16 false ['0', 'X'])
  | 'f' | 'F' | 'e' | 'E' | 'g' | 'G' => some (fraction program d argument)
  | _ => none

/-- A number in a directive, which an argument gives when a star stands for it. -/
def count (cs : List Char) (arguments : List String) : Option Int × List Char × List String :=
  match cs with
  | '*' :: rest =>
    let width := argumentNumber (-(Int.pow 2 31)) (Int.pow 2 31 - 1) (arguments.headD "")
    (some width.1, rest, arguments.drop 1)
  | cs =>
    let digits := cs.takeWhile Char.isDigit
    ((String.ofList digits).toNat?.map Int.ofNat, cs.drop digits.length, arguments)

/-- A directive after its percent sign, with what follows it and the arguments that are left. -/
def directive (cs : List Char) (arguments : List String) :
    Option (Directive × List Char × List String) :=
  let flags := cs.takeWhile ("-+ #0".toList.contains ·)
  let (width, cs, arguments) := count (cs.drop flags.length) arguments
  let (precision, cs, arguments) := match cs with
    | '.' :: cs =>
      let (p, cs, arguments) := count cs arguments
      (some ((p.getD 0).toNat), cs, arguments)
    | cs => (none, cs, arguments)
  match cs with
  | [] => none
  | c :: rest =>
    let width := width.getD 0
    let flags := if width < 0 then '-' :: flags else flags
    some (⟨flags, width.natAbs, precision, c⟩, rest, arguments)

/-- One pass over a format: the output, the arguments that are left and whether any was used. -/
def pass (program : Bool) : Nat → List Char → List String → Bool → Output × List String × Bool
  | 0, _, arguments, used => (⟨[], [], .stopped⟩, arguments, used)
  | fuel + 1, cs, arguments, used =>
    let after (o : Output) (rest : List Char) (arguments : List String) (used : Bool) :
        Output × List String × Bool :=
      if o.ending != .complete then (o, arguments, used)
      else
        let (more, arguments, used) := pass program fuel rest arguments used
        (⟨o.text ++ more.text, o.faults ++ more.faults, more.ending⟩, arguments, used)
    match cs with
    | [] => (.ofText [], arguments, used)
    | '%' :: '%' :: rest => after (.ofText ['%']) rest arguments used
    | '%' :: body =>
      match directive body arguments with
      | none => (⟨[], [], .missingConversion⟩, arguments, used)
      | some (d, rest, left) =>
        match convert? program d (left.headD "") with
        | some o => after o rest (left.drop 1) true
        | none =>
          let text := '%' :: body.take (body.length - rest.length)
          (⟨[], [], .badDirective (.ofList text)⟩, arguments, used)
    | '\\' :: _ =>
      let digits := ((cs.drop 1).take 3).takeWhile fun c => '0' ≤ c && c ≤ '7'
      let piece := if !digits.isEmpty then '\\' :: digits
        else if program && (cs.drop 1).head? == some 'x' then cs.take 4
        else cs.take 2
      let (text, stopped) := unescaped (formatEscapes program) (.ofList piece)
      after ⟨text, [], if stopped then .stopped else .complete⟩ (cs.drop piece.length) arguments used
    | c :: rest => after (.ofText [c]) rest arguments used

/-- The output of a format and its arguments, and the arguments that no directive takes. -/
def printf (program : Bool) (format : String) : Nat → List String → Output × List String
  | 0, arguments => (.ofText [], arguments)
  | fuel + 1, arguments =>
    let (o, left, used) := pass program (format.length + 1) format.toList arguments false
    if o.ending != .complete || left.isEmpty || !used then (o, left)
    else
      let (more, left) := printf program format fuel left
      (⟨o.text ++ more.text, o.faults ++ more.faults, more.ending⟩, left)

end ScriptHost.Shell.Format
