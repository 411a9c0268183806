/-!
# Decimal fractions

Reading decimal fractions as quotients, rounding them to a number of binary digits, and writing them
with a number of decimal places or of significant digits. Halves go to the even neighbour.
-/

namespace ScriptHost.Shell.Decimal

/-- A number that is not negative: a quotient, or one that is too large for any. -/
inductive Magnitude where
  | quotient (num den : Nat)
  | infinite
  | undefined
  deriving DecidableEq, Repr

/-- The nearest whole number to a quotient. -/
def nearest (num den : Nat) : Nat :=
  let q := num / den
  let r := num % den
  if 2 * r < den || (2 * r = den && q % 2 = 0) then q else q + 1

/-- The nearest quotient that has a number of binary digits. -/
def binaryRounded (bits num den : Nat) : Nat × Nat :=
  if num = 0 || den = 0 then (num, 1)
  else
    -- Scaled by this power of two the quotient lies between `2 ^ (bits - 1)` and `2 ^ bits`.
    let scale : Int := (bits : Int) + den.log2 - num.log2
    let scaled (k : Int) : Nat × Nat :=
      if 0 ≤ k then (num * Nat.pow 2 k.toNat, den) else (num, den * Nat.pow 2 (-k).toNat)
    let fits (k : Int) : Bool := (scaled k).1 < Nat.pow 2 bits * (scaled k).2
    let k := if fits scale then scale else scale - 1
    let q := nearest (scaled k).1 (scaled k).2
    if 0 ≤ k then (q, Nat.pow 2 k.toNat) else (q * Nat.pow 2 (-k).toNat, 1)

/-- How numbers are represented: how many binary digits are kept, and from which power of two on a number
is infinite. -/
structure Precision where
  bits : Nat
  limit : Nat

/-- A number as far as it is represented. -/
def represented (p : Precision) : Magnitude → Magnitude
  | .quotient num den =>
    let (num, den) := binaryRounded p.bits num den
    if den * Nat.pow 2 p.limit ≤ num then .infinite else .quotient num den
  | m => m

/-- The number that decimal digits stand for. -/
def value (digits : List Char) : Nat :=
  digits.foldl (fun n c => 10 * n + (c.toNat - '0'.toNat)) 0

/-- The largest power of ten that a number is scaled by; numbers beyond it are infinite or zero. -/
def maxScale : Int := 5000

/-- The exponent at the start of a text, zero when there is none, and what follows. -/
def exponent (cs : List Char) : Int × List Char :=
  match cs with
  | e :: rest =>
    let (negative, digits) := match rest with
      | '-' :: rest => (true, rest)
      | '+' :: rest => (false, rest)
      | rest => (false, rest)
    let found := digits.takeWhile Char.isDigit
    if (e == 'e' || e == 'E') && !found.isEmpty then
      (if negative then -(value found : Int) else value found, digits.drop found.length)
    else (0, cs)
  | [] => (0, [])

/-- The number without a sign at the start of a text, if there is one, and what follows. -/
def read? (cs : List Char) : Option (Magnitude × List Char) :=
  let word := (cs.takeWhile Char.isAlpha).map Char.toLower
  if word == "inf".toList || word == "infinity".toList then some (.infinite, cs.drop word.length)
  else if word == "nan".toList then some (.undefined, cs.drop word.length)
  else
    let whole := cs.takeWhile Char.isDigit
    let rest := cs.drop whole.length
    let (fraction, rest) := match rest with
      | '.' :: more => (more.takeWhile Char.isDigit, more.dropWhile Char.isDigit)
      | rest => ([], rest)
    if whole.isEmpty && fraction.isEmpty then none
    else
      let (e, rest) := exponent rest
      let n := value (whole ++ fraction)
      let scale := e - fraction.length
      some (if scale > maxScale then (if n = 0 then .quotient 0 1 else .infinite)
        else if scale < -maxScale then .quotient 0 1
        else if 0 ≤ scale then .quotient (n * Nat.pow 10 scale.toNat) 1
        else .quotient n (Nat.pow 10 (-scale).toNat), rest)

/-- The decimal digits of a number, at least some of them. -/
def digitsOf (least n : Nat) : List Char :=
  let ds := Nat.toDigits 10 n
  List.replicate (least - ds.length) '0' ++ ds

/-- A quotient with a number of decimal places. The flag keeps a point that nothing follows. -/
def fixed (num den places : Nat) (keepPoint : Bool) : List Char :=
  let ds := digitsOf (places + 1) (nearest (num * Nat.pow 10 places) den)
  let whole := ds.take (ds.length - places)
  let fraction := ds.drop (ds.length - places)
  whole ++ (if places = 0 && !keepPoint then [] else '.' :: fraction)

/-- The power of ten of the first digit of a quotient. -/
def leading (num den : Nat) : Int :=
  if num = 0 then 0
  else if den ≤ num then ((Nat.toDigits 10 (num / den)).length : Int) - 1
  else
    -- The first digit of the reciprocal is one place off, unless the quotient is a power of ten.
    let k := (Nat.toDigits 10 (den / num)).length
    if den ≤ num * Nat.pow 10 (k - 1) then -((k : Int) - 1) else -(k : Int)

/-- The digits of a quotient rounded to a number of places after the first one, and the power of ten
of the first digit. -/
def scientificDigits (num den places : Nat) : List Char × Int :=
  let x := leading num den
  let shift := (places : Int) - x
  let n := if 0 ≤ shift then nearest (num * Nat.pow 10 shift.toNat) den
    else nearest num (den * Nat.pow 10 (-shift).toNat)
  let ds := digitsOf (places + 1) n
  if ds.length > places + 1 then (ds.take (places + 1), x + 1) else (ds, x)

/-- Digits with a point after the first one, and an exponent of at least two digits. -/
def withExponent (ds : List Char) (x : Int) (letter : Char) (keepPoint : Bool) : List Char :=
  ds.take 1 ++ (if ds.length ≤ 1 && !keepPoint then [] else '.' :: ds.drop 1)
    ++ [letter, if x < 0 then '-' else '+'] ++ digitsOf 2 x.natAbs

/-- A quotient with a number of decimal places after its first digit and an exponent. -/
def scientific (num den places : Nat) (letter : Char) (keepPoint : Bool) : List Char :=
  let (ds, x) := scientificDigits num den places
  withExponent ds x letter keepPoint

/-- A quotient with a number of significant digits, with an exponent when it is small or large. Zeros at
the end of a fraction are left out unless a flag keeps them. -/
def general (num den significant : Nat) (letter : Char) (keepZeros : Bool) : List Char :=
  let p := max significant 1
  let (ds, x) := scientificDigits num den (p - 1)
  let trimmed (cs : List Char) : List Char :=
    if keepZeros || !cs.contains '.' then cs
    else
      let cs := cs.reverse.dropWhile (· == '0')
      (if cs.head? == some '.' then cs.drop 1 else cs).reverse
  if x < -4 || (p : Int) ≤ x then
    let kept := if keepZeros then ds else ds.take 1 ++ ((ds.drop 1).reverse.dropWhile (· == '0')).reverse
    withExponent kept x letter keepZeros
  else trimmed (fixed num den (p - 1 - x).toNat keepZeros)

end ScriptHost.Shell.Decimal
