/-!
# Patterns

Patterns stand for sets of texts: a star for any text, a question mark for any character, and a
bracket for one character of a set. A quoted character of a pattern stands for itself alone.
-/

namespace ScriptHost.Shell

/-- A character of a pattern, and whether it is quoted. -/
structure PatternChar where
  char : Char
  quoted : Bool
  deriving DecidableEq, Repr

/-- A set of characters in brackets. -/
structure CharSet where
  negated : Bool
  ranges : List (Char × Char)
  deriving DecidableEq, Repr

namespace CharSet

/-- Whether a character is in the set. -/
def contains (s : CharSet) (c : Char) : Bool :=
  (s.ranges.any fun (low, high) => low ≤ c && c ≤ high) != s.negated

/-- The ranges of a named class of ASCII characters. -/
def classRanges : String → Option (List (Char × Char))
  | "alpha" => some [('a', 'z'), ('A', 'Z')]
  | "digit" => some [('0', '9')]
  | "alnum" => some [('a', 'z'), ('A', 'Z'), ('0', '9')]
  | "upper" => some [('A', 'Z')]
  | "lower" => some [('a', 'z')]
  | "space" => some [(' ', ' '), ('\t', '\r')]
  | "blank" => some [(' ', ' '), ('\t', '\t')]
  | "punct" => some [('!', '/'), (':', '@'), ('[', '`'), ('\x7b', '~')]
  | "xdigit" => some [('0', '9'), ('a', 'f'), ('A', 'F')]
  | "print" => some [(' ', '~')]
  | "graph" => some [('!', '~')]
  | "cntrl" => some [('\x00', '\x1f'), ('\x7f', '\x7f')]
  | _ => none

/-- The ranges up to the closing bracket, and what follows it. A bracket in first place stands for
itself. -/
def rangesFrom (first : Bool) (acc : List (Char × Char)) :
    Nat → List Char → Option (List (Char × Char) × List Char)
  | 0, _ => none
  | _, [] => none
  | fuel + 1, ']' :: rest =>
    if first then rangesFrom false ((']', ']') :: acc) fuel rest else some (acc, rest)
  | fuel + 1, '[' :: ':' :: rest =>
    let name := rest.takeWhile (· != ':')
    match rest.drop name.length with
    | ':' :: ']' :: after => do
      rangesFrom false ((← classRanges (.ofList name)) ++ acc) fuel after
    | _ => rangesFrom false (('[', '[') :: acc) fuel (':' :: rest)
  | fuel + 1, low :: '-' :: high :: rest =>
    if high == ']' then rangesFrom false (('-', '-') :: (low, low) :: acc) fuel (high :: rest)
    else rangesFrom false ((low, high) :: acc) fuel rest
  | fuel + 1, c :: rest => rangesFrom false ((c, c) :: acc) fuel rest

/-- The set that starts after an opening bracket, given the signs that negate it, and what follows. -/
def read? (negations : List Char) (cs : List Char) : Option (CharSet × List Char) :=
  let negated := cs.head?.any negations.contains
  let cs := if negated then cs.drop 1 else cs
  (rangesFrom true [] (cs.length + 1) cs).map fun (ranges, after) => (⟨negated, ranges⟩, after)

end CharSet

namespace Pattern

/-- An element of a pattern. -/
inductive Element where
  | char (c : Char)
  | any
  | many
  | set (s : CharSet)
  deriving DecidableEq, Repr

/-- The elements of a pattern. Brackets that do not close stand for themselves. -/
def elements : Nat → List PatternChar → List Element
  | 0, _ => []
  | _, [] => []
  | fuel + 1, p :: rest =>
    if p.quoted then .char p.char :: elements fuel rest
    else match p.char with
      | '*' => .many :: elements fuel rest
      | '?' => .any :: elements fuel rest
      | '[' =>
        match CharSet.read? ['!', '^'] (rest.map (·.char)) with
        | some (s, after) => .set s :: elements fuel (rest.drop (rest.length - after.length))
        | none => .char '[' :: elements fuel rest
      | c => .char c :: elements fuel rest

/-- Whether elements stand for a text. -/
def «matches» : List Element → List Char → Bool
  | [], cs => cs.isEmpty
  | .many :: rest, [] => «matches» rest []
  | .many :: rest, c :: cs => «matches» rest (c :: cs) || «matches» (.many :: rest) cs
  | .any :: rest, _ :: cs => «matches» rest cs
  | .set s :: rest, c :: cs => s.contains c && «matches» rest cs
  | .char d :: rest, c :: cs => c == d && «matches» rest cs
  | _ :: _, [] => false
termination_by es cs => es.length + cs.length

/-- The elements of a pattern given by its characters. -/
def ofChars (p : List PatternChar) : List Element :=
  elements (p.length + 1) p

/-- Whether a pattern has an element that stands for more than one text. -/
def isSpecial (es : List Element) : Bool :=
  es.any fun
    | .char _ => false
    | _ => true

/-- The length of the part at the start of a text that a pattern stands for, if there is one. -/
def startLength? (es : List Element) (longest : Bool) (cs : List Char) : Option Nat :=
  let lengths := List.range (cs.length + 1)
  (if longest then lengths.reverse else lengths).find? fun n => «matches» es (cs.take n)

/-- A text without the part at its start that a pattern stands for. -/
def dropStart (es : List Element) (longest : Bool) (s : String) : String :=
  match startLength? es longest s.toList with
  | some n => .ofList (s.toList.drop n)
  | none => s

/-- A text without the part at its end that a pattern stands for. -/
def dropEnd (es : List Element) (longest : Bool) (s : String) : String :=
  let cs := s.toList
  let lengths := List.range (cs.length + 1)
  match (if longest then lengths else lengths.reverse).find? fun n => «matches» es (cs.drop n) with
  | some n => .ofList (cs.take n)
  | none => s

end Pattern

end ScriptHost.Shell
