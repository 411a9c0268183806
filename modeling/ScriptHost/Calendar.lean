/-!
# Instants as text

An instant is a number of nanoseconds since the beginning of year 0 in the Gregorian calendar, which is
carried back to that year; it is in universal time and without leap seconds. The year of a day is
found in eras of 400 years that begin with a year after a leap year.
-/

namespace ScriptHost.Calendar

/-- A day of the calendar. -/
structure Date where
  year : Nat
  month : Nat
  day : Nat
  deriving DecidableEq, Repr

/-- Whether a year has a 29th of February. -/
def isLeap (year : Nat) : Bool :=
  year % 4 = 0 && (year % 100 ≠ 0 || year % 400 = 0)

/-- How many days the months of a year have. -/
def monthLengths (year : Nat) : List Nat :=
  [31, if isLeap year then 29 else 28, 31, 30, 31, 30, 31, 31, 30, 31, 30, 31]

/-- The year of a day counted from the beginning of year 0, and how many days of that year are before
it. -/
def yearOf (days : Nat) : Nat × Nat :=
  -- The last century of an era and the last year of a cycle have the day that is left over.
  let shifted := 145731 + days
  let inEra := shifted % 146097
  let century := min (inEra / 36524) 3
  let inCentury := inEra - 36524 * century
  let inCycle := inCentury % 1461
  let year := min (inCycle / 365) 3
  (400 * (shifted / 146097) + 100 * century + 4 * (inCentury / 1461) + year - 399,
    inCycle - 365 * year)

/-- The month of a day and its number there, from the days before it since the beginning of a month
and the lengths of the months from that one on. -/
def monthOf (month before : Nat) : List Nat → Nat × Nat
  | [] => (month, before + 1)
  | length :: rest =>
    if before < length then (month, before + 1) else monthOf (month + 1) (before - length) rest

/-- The date of a day from the days of its year before it. -/
def dateIn (year before : Nat) : Date :=
  let (month, day) := monthOf 1 before (monthLengths year)
  ⟨year, month, day⟩

/-- The date of a day counted from the beginning of year 0. -/
def dateOf (days : Nat) : Date :=
  let (year, before) := yearOf days
  dateIn year before

/-- A number with leading zeros up to a width. -/
def padded (width n : Nat) : String :=
  let digits := Nat.toDigits 10 n
  .ofList (List.replicate (width - digits.length) '0' ++ digits)

/-- A year with at least four digits; one that has more gets a sign. -/
def yearText (year : Nat) : String :=
  if year ≤ 9999 then padded 4 year else "+" ++ toString year

/-- Nanoseconds in a second. -/
def perSecond : Nat := 1000000000

/-- The date of an instant, its hour, minute and second, and the nanoseconds beyond. -/
def parts (instant : Nat) : Date × Nat × Nat × Nat × Nat :=
  let seconds := instant / perSecond
  let inDay := seconds % 86400
  (dateOf (seconds / 86400), inDay / 3600, inDay / 60 % 60, inDay % 60, instant % perSecond)

/-- An instant in a form that sorts by time, with six digits for the fraction of a second. -/
def stamp (instant : Nat) : String :=
  let (date, hour, minute, second, nanos) := parts instant
  yearText date.year ++ padded 2 date.month ++ padded 2 date.day ++ "T" ++ padded 2 hour
    ++ padded 2 minute ++ padded 2 second ++ "." ++ padded 6 (nanos / 1000) ++ "Z"

/-- The fraction of a second in as many groups of three digits as it takes. -/
def fraction (nanos : Nat) : String :=
  if nanos = 0 then ""
  else if nanos % 1000000 = 0 then "." ++ padded 3 (nanos / 1000000)
  else if nanos % 1000 = 0 then "." ++ padded 6 (nanos / 1000)
  else "." ++ padded 9 nanos

/-- An instant in the usual form of date and time. -/
def text (instant : Nat) : String :=
  let (date, hour, minute, second, nanos) := parts instant
  yearText date.year ++ "-" ++ padded 2 date.month ++ "-" ++ padded 2 date.day ++ "T"
    ++ padded 2 hour ++ ":" ++ padded 2 minute ++ ":" ++ padded 2 second ++ fraction nanos ++ "Z"

example : dateOf 0 = ⟨0, 1, 1⟩ ∧ dateOf 719528 = ⟨1970, 1, 1⟩ ∧ dateOf 730544 = ⟨2000, 2, 29⟩ ∧
    dateOf 739982 = ⟨2026, 1, 1⟩ := by
  decide

end ScriptHost.Calendar
