/-!
# Durations

A span of time with nanosecond resolution. The clock holds at most 2^64 - 1 whole seconds, so
scaling a span may leave its range; `Duration.times?` says when it does not. `Duration.text` writes
a span in its largest unit among seconds, milliseconds, microseconds and nanoseconds, with the
shortest exact fraction.
-/

namespace ScriptHost

/-- A span of time. -/
structure Duration where
  nanos : Nat
  deriving DecidableEq, Repr, Inhabited

namespace Duration

/-- Nanoseconds in a second. -/
def perSecond : Nat := 1000000000

/-- The first number of seconds that a span cannot hold. -/
def secondsBound : Nat := Nat.pow 2 64

/-- A span of seconds and nanoseconds. -/
def ofParts (seconds nanos : Nat) : Duration :=
  ⟨seconds * perSecond + nanos⟩

/-- A span of whole seconds. -/
def ofSeconds (n : Nat) : Duration :=
  ⟨n * perSecond⟩

/-- A span of whole milliseconds. -/
def ofMillis (n : Nat) : Duration :=
  ⟨n * 1000000⟩

/-- The whole seconds of a span. -/
def seconds (d : Duration) : Nat :=
  d.nanos / perSecond

/-- The nanoseconds beyond the whole seconds. -/
def subsecond (d : Duration) : Nat :=
  d.nanos % perSecond

/-- The whole milliseconds of a span. -/
def millis (d : Duration) : Nat :=
  d.nanos / 1000000

/-- The shorter of two spans. -/
def min (a b : Duration) : Duration :=
  ⟨Nat.min a.nanos b.nanos⟩

/-- The longer of two spans. -/
def max (a b : Duration) : Duration :=
  ⟨Nat.max a.nanos b.nanos⟩

/-- A span repeated `n` times, when the clock can hold it. -/
def times? (d : Duration) (n : Nat) : Option Duration :=
  let product := d.nanos * n
  if product / perSecond < secondsBound then some ⟨product⟩ else none

/-- The digits of a fraction of `width` places without trailing zeros. -/
def fractionDigits (fraction width : Nat) : List Char :=
  let digits := (Nat.toDigits 10 fraction)
  let padded := List.replicate (width - digits.length) '0' ++ digits
  (padded.reverse.dropWhile (· == '0')).reverse

/-- A whole number and a fraction of `width` places, with a point only before a fraction. -/
def decimal (whole fraction width : Nat) : String :=
  if fraction = 0 then toString whole
  else toString whole ++ "." ++ .ofList (fractionDigits fraction width)

/-- The text of a span, such as `1.5s`, `150ms`, `999.999µs` or `0ns`. -/
def text (d : Duration) : String :=
  if d.seconds > 0 then decimal d.seconds d.subsecond 9 ++ "s"
  else if d.nanos ≥ 1000000 then decimal (d.nanos / 1000000) (d.nanos % 1000000) 6 ++ "ms"
  else if d.nanos ≥ 1000 then decimal (d.nanos / 1000) (d.nanos % 1000) 3 ++ "µs"
  else toString d.nanos ++ "ns"

end Duration

end ScriptHost
