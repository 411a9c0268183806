/-!
# Shell arithmetic

Expressions over 64-bit signed integers, with variables, assignments and the operators of C. Numbers
may be decimal, octal after a zero, or hexadecimal after `0x`.
-/

namespace ScriptHost.Shell.Arithmetic

/-- A unary operator. -/
inductive Unary where
  | plus
  | minus
  | negation
  | complement
  deriving DecidableEq, Repr

/-- A binary operator, without the two that may leave out their second operand. -/
inductive Binary where
  | mul | div | mod | add | sub | shiftLeft | shiftRight
  | less | lessEqual | greater | greaterEqual | equal | unequal
  | and | xor | or
  deriving DecidableEq, Repr

/-- An expression. -/
inductive Expr where
  | number (n : Int)
  | variable (name : String)
  | unary (op : Unary) (e : Expr)
  | binary (op : Binary) (a b : Expr)
  | conjunction (a b : Expr)
  | disjunction (a b : Expr)
  | choice (test a b : Expr)
  | assign (name : String) (op : Option Binary) (e : Expr)
  deriving Repr

/-- Why there is no value. -/
inductive Fault where
  /-- Something else should stand where it stands. -/
  | expected (what : String)
  | divisionByZero
  | badNumber (text : String)
  deriving DecidableEq, Repr

/-- A token of an expression; a character that means nothing is one as well. -/
inductive Token where
  | number (n : Int)
  | name (s : String)
  | sign (s : String)
  | stray (c : Char)
  deriving DecidableEq, Repr

/-- The signs, longer ones before those they start with. -/
def signs : List String :=
  ["<<=", ">>=", "<<", ">>", "<=", ">=", "==", "!=", "&&", "||", "+=", "-=", "*=", "/=", "%=", "&=",
    "|=", "^=", "+", "-", "*", "/", "%", "<", ">", "=", "!", "~", "&", "|", "^", "?", ":", "(", ")"]

/-- The value of a digit. -/
def digit? (c : Char) : Option Nat :=
  if '0' ≤ c && c ≤ '9' then some (c.toNat - '0'.toNat)
  else if 'a' ≤ c && c ≤ 'f' then some (c.toNat - 'a'.toNat + 10)
  else if 'A' ≤ c && c ≤ 'F' then some (c.toNat - 'A'.toNat + 10)
  else none

/-- The largest number. -/
def largest : Nat := Nat.pow 2 63 - 1

/-- The number that the digits of a base at the start of a text stand for, and what follows them. -/
def digits (base : Nat) (cs : List Char) : Nat × List Char :=
  let found := cs.takeWhile fun c => (digit? c).any (· < base)
  (found.foldl (fun n c => n * base + (digit? c).getD 0) 0, cs.drop found.length)

/-- The number at the start of a text, and what follows it. The base is sixteen after `0x` and a digit,
eight after a zero, and ten otherwise. -/
def numeral (cs : List Char) : Nat × List Char :=
  match cs with
  | '0' :: x :: d :: rest =>
    if (x == 'x' || x == 'X') && (digit? d).isSome then digits 16 (d :: rest)
    else digits 8 cs
  | '0' :: _ => digits 8 cs
  | cs => digits 10 cs

/-- Cut an integer down to 64 bits with a sign. -/
def wrap (n : Int) : Int :=
  n.bmod (Nat.pow 2 64)

/-- The tokens of a text. Numbers that are too large stand for the largest one. -/
def tokens : Nat → List Char → List Token
  | 0, _ => []
  | _, [] => []
  | fuel + 1, c :: rest =>
    if c.isWhitespace then tokens fuel rest
    else if c.isDigit then
      let (n, after) := numeral (c :: rest)
      .number (min n largest) :: tokens fuel after
    else if c.isAlpha || c == '_' then
      let word := (c :: rest).takeWhile fun c => c.isAlphanum || c == '_'
      .name (.ofList word) :: tokens fuel ((c :: rest).drop word.length)
    else
      match signs.find? fun s => s.toList.isPrefixOf (c :: rest) with
      | some s => .sign s :: tokens fuel ((c :: rest).drop s.length)
      | none => .stray c :: tokens fuel rest

/-- The binary operators by rank, loosest first. -/
def ranks : List (List (String × Binary)) :=
  [[("|", .or)], [("^", .xor)], [("&", .and)], [("==", .equal), ("!=", .unequal)],
    [("<=", .lessEqual), (">=", .greaterEqual), ("<", .less), (">", .greater)],
    [("<<", .shiftLeft), (">>", .shiftRight)], [("+", .add), ("-", .sub)],
    [("*", .mul), ("/", .div), ("%", .mod)]]

/-- The operator inside an assignment sign. -/
def assignOp? : String → Option (Option Binary)
  | "=" => some none
  | "+=" => some (some .add)
  | "-=" => some (some .sub)
  | "*=" => some (some .mul)
  | "/=" => some (some .div)
  | "%=" => some (some .mod)
  | "<<=" => some (some .shiftLeft)
  | ">>=" => some (some .shiftRight)
  | "&=" => some (some .and)
  | "|=" => some (some .or)
  | "^=" => some (some .xor)
  | _ => none

/-- The unary operator of a sign. -/
def unary? : String → Option Unary
  | "+" => some .plus
  | "-" => some .minus
  | "!" => some .negation
  | "~" => some .complement
  | _ => none

/-- The level of a part of an expression: assignment or choice, disjunction, conjunction, the binary
ranks that are left, or a unary expression. -/
inductive Level where
  | whole
  | disjunction
  | conjunction
  | binary (ranks : List (List (String × Binary)))

mutual

/-- The expression of a level at the start of tokens, and the tokens after it. -/
def expr : Nat → Level → List Token → Except Fault (Expr × List Token)
  | 0, _, _ => .error (.expected "primary")
  | fuel + 1, .whole, ts => do
    let assigned := match ts with
      | .name name :: .sign s :: rest => (assignOp? s).map fun op => (name, op, rest)
      | _ => none
    match assigned with
    | some (name, op, rest) =>
      let (e, rest) ← expr fuel .whole rest
      return (.assign name op e, rest)
    | none =>
      let (test, rest) ← expr fuel .disjunction ts
      match rest with
      | .sign "?" :: rest =>
        let (a, rest) ← expr fuel .whole rest
        match rest with
        | .sign ":" :: rest =>
          let (b, rest) ← expr fuel .whole rest
          return (.choice test a b, rest)
        | _ => throw (.expected "':'")
      | rest => return (test, rest)
  | fuel + 1, .disjunction, ts => do
    let (a, rest) ← expr fuel .conjunction ts
    match rest with
    | .sign "||" :: rest =>
      let (b, rest) ← expr fuel .disjunction rest
      return (.disjunction a b, rest)
    | rest => return (a, rest)
  | fuel + 1, .conjunction, ts => do
    let (a, rest) ← expr fuel (.binary ranks) ts
    match rest with
    | .sign "&&" :: rest =>
      let (b, rest) ← expr fuel .conjunction rest
      return (.conjunction a b, rest)
    | rest => return (a, rest)
  | fuel + 1, .binary [], ts =>
    match ts with
    | .number n :: rest => .ok (.number n, rest)
    | .name s :: rest => .ok (.variable s, rest)
    | .sign "(" :: rest => do
      let (e, rest) ← expr fuel .whole rest
      match rest with
      | .sign ")" :: rest => return (e, rest)
      | _ => throw (.expected "')'")
    | .sign s :: rest =>
      match unary? s with
      | some op => do
        let (e, rest) ← expr fuel (.binary []) rest
        return (.unary op e, rest)
      | none => .error (.expected "primary")
    | _ => .error (.expected "primary")
  | fuel + 1, .binary (ops :: tighter), ts => do
    let (a, rest) ← expr fuel (.binary tighter) ts
    chain fuel ops tighter a rest

/-- Further operands of operators of one rank, from the left. -/
def chain : Nat → List (String × Binary) → List (List (String × Binary)) → Expr → List Token →
    Except Fault (Expr × List Token)
  | 0, _, _, _, _ => .error (.expected "primary")
  | fuel + 1, ops, tighter, a, ts =>
    match ts with
    | .sign s :: rest =>
      match ops.find? (·.1 == s) with
      | some (_, op) => do
        let (b, rest) ← expr fuel (.binary tighter) rest
        chain fuel ops tighter (.binary op a b) rest
      | none => .ok (a, ts)
    | ts => .ok (a, ts)

end

/-- The expression that a text is; a blank text is zero. -/
def parse (text : String) : Except Fault Expr := do
  let ts := tokens (text.length + 1) text.toList
  if ts.isEmpty then return .number 0
  let (e, rest) ← expr (16 * ts.length + 64) .whole ts
  if rest.isEmpty then return e else throw (.expected "EOF")

/-- Truth as a number. -/
def ofBool (b : Bool) : Int := if b then 1 else 0

/-- The value of an operation. -/
def apply (op : Binary) (a b : Int) : Except Fault Int :=
  let bits (f : Nat → Nat → Nat) : Int :=
    wrap (f (a % Int.pow 2 64).toNat (b % Int.pow 2 64).toNat)
  match op with
  | .mul => .ok (wrap (a * b))
  | .div => if b = 0 then .error .divisionByZero else .ok (wrap (a.tdiv b))
  | .mod => if b = 0 then .error .divisionByZero else .ok (wrap (a.tmod b))
  | .add => .ok (wrap (a + b))
  | .sub => .ok (wrap (a - b))
  | .shiftLeft => .ok (wrap (a * Int.pow 2 (b % 64).toNat))
  | .shiftRight => .ok (a.fdiv (Int.pow 2 (b % 64).toNat))
  | .less => .ok (ofBool (a < b))
  | .lessEqual => .ok (ofBool (a ≤ b))
  | .greater => .ok (ofBool (a > b))
  | .greaterEqual => .ok (ofBool (a ≥ b))
  | .equal => .ok (ofBool (a = b))
  | .unequal => .ok (ofBool (a ≠ b))
  | .and => .ok (bits Nat.land)
  | .xor => .ok (bits Nat.xor)
  | .or => .ok (bits Nat.lor)

/-- The value that a variable's text has. -/
def valueOf (text : String) : Except Fault Int :=
  let cs := text.toList.dropWhile Char.isWhitespace
  let (negative, cs) := match cs with
    | '-' :: rest => (true, rest)
    | '+' :: rest => (false, rest)
    | cs => (false, cs)
  let (n, rest) := numeral cs
  let value : Int := if negative then -n else n
  if rest.all Char.isWhitespace && wrap value = value then .ok value else .error (.badNumber text)

/-- The value of an expression and the variables assigned on the way, latest first. -/
def eval (lookup : String → String) (assigned : List (String × Int)) :
    Expr → Except Fault (Int × List (String × Int))
  | .number n => .ok (n, assigned)
  | .variable name =>
    match assigned.lookup name with
    | some n => .ok (n, assigned)
    | none => (valueOf (lookup name)).map (·, assigned)
  | .unary op e => do
    let (n, assigned) ← eval lookup assigned e
    return (match op with
      | .plus => n
      | .minus => wrap (-n)
      | .negation => ofBool (n = 0)
      | .complement => wrap (-n - 1), assigned)
  | .binary op a b => do
    let (x, assigned) ← eval lookup assigned a
    let (y, assigned) ← eval lookup assigned b
    return (← apply op x y, assigned)
  | .conjunction a b => do
    let (x, assigned) ← eval lookup assigned a
    if x = 0 then return (0, assigned)
    let (y, assigned) ← eval lookup assigned b
    return (ofBool (y ≠ 0), assigned)
  | .disjunction a b => do
    let (x, assigned) ← eval lookup assigned a
    if x ≠ 0 then return (1, assigned)
    let (y, assigned) ← eval lookup assigned b
    return (ofBool (y ≠ 0), assigned)
  | .choice test a b => do
    let (x, assigned) ← eval lookup assigned test
    if x ≠ 0 then eval lookup assigned a else eval lookup assigned b
  | .assign name op e => do
    let (y, assigned) ← eval lookup assigned e
    let value ← match op with
      | none => pure y
      | some op => do
        let old ← match assigned.lookup name with
          | some n => pure n
          | none => valueOf (lookup name)
        apply op old y
    return (value, (name, value) :: assigned)

/-- The value of a text and the variables it assigns, latest first. -/
def evaluate (lookup : String → String) (text : String) : Except Fault (Int × List (String × Int)) := do
  eval lookup [] (← parse text)

/-- The wording of a fault in the value of a text. -/
def Fault.message (text : String) : Fault → String
  | expected what => s!"arithmetic expression: expecting {what}: \"{text}\""
  | divisionByZero => s!"arithmetic expression: division by zero: \"{text}\""
  | badNumber value => s!"Illegal number: {value}"

end ScriptHost.Shell.Arithmetic
