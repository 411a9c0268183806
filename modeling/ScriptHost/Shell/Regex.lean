import ScriptHost.Shell.Pattern

/-!
# Regular expressions

The basic and the extended regular expressions of the POSIX tools, matched from a position by trying
all ways and keeping the longest. Groups hold the text of their last match.
-/

namespace ScriptHost.Shell

/-- A regular expression. -/
inductive Regex where
  | empty
  | char (c : Char)
  | any
  | set (s : CharSet)
  | lineStart
  | lineEnd
  | wordStart
  | wordEnd
  | wordEdge (inside : Bool)
  | sequence (a b : Regex)
  | choice (a b : Regex)
  | repeated (e : Regex) (low : Nat) (high : Option Nat)
  | group (n : Nat) (e : Regex)
  | back (n : Nat)
  deriving Repr

namespace Regex

/-- The number of groups in an expression. -/
def groupCount : Regex → Nat
  | sequence a b | choice a b => max a.groupCount b.groupCount
  | repeated e _ _ => e.groupCount
  | group n e => max n e.groupCount
  | _ => 0

/-- Which of the two syntaxes is read. -/
inductive Dialect where
  | basic
  | extended
  deriving DecidableEq, Repr

/-- What is left of an expression, and how many groups were opened before. -/
structure Pending where
  rest : List Char
  groups : Nat

/-- The sign at the start of an expression in a dialect, when it is the given one: signs have a
backslash in one dialect and none in the other. -/
def sign? (d : Dialect) (c : Char) (cs : List Char) : Option (List Char) :=
  match d, cs with
  | .basic, '\\' :: x :: rest => if x == c then some rest else none
  | .extended, x :: rest => if x == c then some rest else none
  | _, _ => none

/-- The bounds in braces, and what follows them. -/
def bounds? (d : Dialect) (cs : List Char) : Option (Nat × Option Nat × List Char) := do
  let low := cs.takeWhile Char.isDigit
  let cs := cs.drop low.length
  let n := (String.ofList low).toNat?.getD 0
  match cs with
  | ',' :: cs =>
    let high := cs.takeWhile Char.isDigit
    let after ← sign? d '\x7d' (cs.drop high.length)
    return (n, (String.ofList high).toNat?, after)
  | cs =>
    if low.isEmpty then none
    else return (n, some n, ← sign? d '\x7d' cs)

/-- A repetition at the start of what follows an expression: its bounds, and what follows it. -/
def repetition? (d : Dialect) (cs : List Char) : Option (Nat × Option Nat × List Char) :=
  match cs with
  | '*' :: rest => some (0, none, rest)
  | _ =>
    match sign? d '+' cs, sign? d '?' cs, sign? d '\x7b' cs with
    | some rest, _, _ => some (1, none, rest)
    | _, some rest, _ => some (0, some 1, rest)
    | _, _, some rest => bounds? d rest
    | _, _, _ => none

/-- An expression with all the repetitions that follow it. -/
def withRepetitions (d : Dialect) : Nat → Regex → List Char → Regex × List Char
  | 0, e, cs => (e, cs)
  | fuel + 1, e, cs =>
    match repetition? d cs with
    | some (low, high, rest) => withRepetitions d fuel (.repeated e low high) rest
    | none => (e, cs)

mutual

/-- Alternatives up to the end or a closing parenthesis. -/
def alternatives (d : Dialect) : Nat → Pending → Option (Regex × Pending)
  | 0, _ => none
  | fuel + 1, p => do
    let (a, p) ← branch d fuel true p
    match sign? d '|' p.rest with
    | some rest =>
      let (b, p) ← alternatives d fuel { p with rest }
      return (.choice a b, p)
    | none => return (a, p)

/-- A sequence of expressions; the flag says that nothing stands before it. -/
def branch (d : Dialect) : Nat → Bool → Pending → Option (Regex × Pending)
  | 0, _, _ => none
  | fuel + 1, first, p =>
    if p.rest.isEmpty || (sign? d '|' p.rest).isSome || (p.groups > 0 && (sign? d ')' p.rest).isSome)
    then some (.empty, p)
    else do
      let (e, p) ← atom d fuel first p
      let (e, rest) := match e with
        | .lineStart => (e, p.rest)
        | _ => withRepetitions d p.rest.length e p.rest
      let (more, p) ← branch d fuel (match e with | .lineStart => first | _ => false) { p with rest }
      return (.sequence e more, p)

/-- One expression without repetitions. -/
def atom (d : Dialect) : Nat → Bool → Pending → Option (Regex × Pending)
  | 0, _, _ => none
  | fuel + 1, first, p =>
    match sign? d '(' p.rest with
    | some rest => do
      let n := p.groups + 1
      let (e, p) ← alternatives d fuel ⟨rest, n⟩
      let rest ← sign? d ')' p.rest
      return (.group n e, { p with rest })
    | none =>
      match p.rest with
      | [] => none
      | '.' :: rest => some (.any, { p with rest })
      | '[' :: rest =>
        (CharSet.read? ['^'] rest).map fun (s, rest) => (.set s, { p with rest })
      | '^' :: rest =>
        if d == .extended || first then some (.lineStart, { p with rest })
        else some (.char '^', { p with rest })
      | '$' :: rest =>
        let last := rest.isEmpty || (sign? d ')' rest).isSome || (sign? d '|' rest).isSome
        if d == .extended || last then some (.lineEnd, { p with rest })
        else some (.char '$', { p with rest })
      | '\\' :: c :: rest =>
        let e : Regex :=
          if '1' ≤ c && c ≤ '9' then .back (c.toNat - '0'.toNat)
          else match c with
            | 'n' => .char '\n'
            | 't' => .char '\t'
            | '<' => .wordStart
            | '>' => .wordEnd
            | 'b' => .wordEdge true
            | 'B' => .wordEdge false
            | 'w' => .set ⟨false, [('a', 'z'), ('A', 'Z'), ('0', '9'), ('_', '_')]⟩
            | 'W' => .set ⟨true, [('a', 'z'), ('A', 'Z'), ('0', '9'), ('_', '_')]⟩
            | 's' => .set ⟨false, [(' ', ' '), ('\t', '\r')]⟩
            | 'S' => .set ⟨true, [(' ', ' '), ('\t', '\r')]⟩
            | c => .char c
        some (e, { p with rest })
      | ['\\'] => none
      | c :: rest =>
        if d == .extended && !first && (c == '+' || c == '?') then none
        else some (.char c, { p with rest })

end

/-- The expression that a text is. -/
def parse? (d : Dialect) (text : List Char) : Option Regex := do
  let (e, p) ← alternatives d (8 * text.length + 16) ⟨text, 0⟩
  if p.rest.isEmpty then return e else none

/-- The expression that stands for a text itself. -/
def ofText (text : List Char) : Regex :=
  text.foldr (fun c e => .sequence (.char c) e) .empty

/-- A text with a position in it: what was read, in reverse, and what follows. -/
structure Position where
  before : List Char
  after : List Char

/-- A way to match: where it ends and what the groups hold. -/
structure Found where
  ends : Position
  groups : List (Nat × List Char)

/-- Whether a character is part of a word. -/
def isWord (c : Char) : Bool :=
  c.isAlphanum || c == '_'

/-- Go on by a text. -/
def Position.forward (p : Position) (n : Nat) : Position :=
  ⟨(p.after.take n).reverse ++ p.before, p.after.drop n⟩

/-- All ways to match an expression from a position, the preferred ones first. -/
def ways (sameCase : Char → Char → Bool) : Nat → Regex → Found → List Found
  | 0, _, _ => []
  | fuel + 1, e, f =>
    let wordBefore := f.ends.before.head?.any isWord
    let wordAfter := f.ends.after.head?.any isWord
    match e with
    | .empty => [f]
    | .char c =>
      match f.ends.after with
      | d :: _ => if sameCase c d then [{ f with ends := f.ends.forward 1 }] else []
      | [] => []
    | .any =>
      match f.ends.after with
      | _ :: _ => [{ f with ends := f.ends.forward 1 }]
      | [] => []
    | .set s =>
      match f.ends.after with
      | d :: _ =>
        let listed := s.contains d || (sameCase 'a' 'A' && (s.contains d.toLower || s.contains d.toUpper))
        if listed then [{ f with ends := f.ends.forward 1 }] else []
      | [] => []
    | .lineStart => if f.ends.before.isEmpty then [f] else []
    | .lineEnd => if f.ends.after.isEmpty then [f] else []
    | .wordStart => if !wordBefore && wordAfter then [f] else []
    | .wordEnd => if wordBefore && !wordAfter then [f] else []
    | .wordEdge inside => if (wordBefore != wordAfter) == inside then [f] else []
    | .sequence a b => (ways sameCase fuel a f).flatMap (ways sameCase fuel b)
    | .choice a b => ways sameCase fuel a f ++ ways sameCase fuel b f
    | .repeated e low high =>
      let more := if high == some 0 then [] else
        ((ways sameCase fuel e f).filter fun g =>
          low > 0 || g.ends.after.length < f.ends.after.length).flatMap
          (ways sameCase fuel (.repeated e (low - 1) (high.map (· - 1))))
      if low = 0 then more ++ [f] else more
    | .group n e => (ways sameCase fuel e f).map fun g =>
        let taken := f.ends.after.take (f.ends.after.length - g.ends.after.length)
        { g with groups := (n, taken) :: g.groups.filter (·.1 != n) }
    | .back n =>
      match f.groups.lookup n with
      | some text =>
        if text.isPrefixOf f.ends.after then [{ f with ends := f.ends.forward text.length }] else []
      | none => []

/-- The size of an expression, which bounds how deep matching goes apart from repetitions. -/
def size : Regex → Nat
  | sequence a b | choice a b => a.size + b.size + 1
  | repeated e _ _ | group _ e => e.size + 1
  | _ => 1

/-- The longest match from a position; of several, the preferred one. -/
def longest? (e : Regex) (ignoreCase : Bool) (p : Position) : Option Found :=
  let sameCase (c d : Char) : Bool := c == d || (ignoreCase && c.toLower == d.toLower)
  let fuel := (e.size + 1) * (p.after.length + 2)
  (ways sameCase fuel e ⟨p, []⟩).foldl (fun best f =>
    match best with
    | some b => if f.ends.after.length < b.ends.after.length then some f else best
    | none => some f) none

/-- The first match at or after a position, with the position it starts at. -/
def search? (e : Regex) (ignoreCase : Bool) : Nat → Position → Option (Position × Found)
  | 0, _ => none
  | fuel + 1, p =>
    match longest? e ignoreCase p with
    | some f => some (p, f)
    | none => if p.after.isEmpty then none else search? e ignoreCase fuel (p.forward 1)

/-- The first match in a text. -/
def find? (e : Regex) (ignoreCase : Bool) (text : List Char) : Option (Position × Found) :=
  search? e ignoreCase (text.length + 1) ⟨[], text⟩

end Regex

end ScriptHost.Shell
