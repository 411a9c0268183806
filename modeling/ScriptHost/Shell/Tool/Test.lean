import ScriptHost.Shell.Machine

/-!
# Testing conditions

The conditions of `test`: on texts, on numbers and on files, joined by `-a`, `-o`, `!` and
parentheses. The shell and the program agree on the conditions but not on how arguments are read: the
shell goes by what can be an operator where it stands (`eval`), the program first by the number of
arguments (`evalByCount`).
-/

namespace ScriptHost.Shell.Test

/-- A condition has a value, or a message says what is wrong with it. -/
abbrev Result := Except String Bool

/-- The number that a text is. -/
def number? (s : String) : Option Int :=
  let cs := (s.toList.dropWhile Char.isWhitespace).reverse.dropWhile Char.isWhitespace |>.reverse
  let (negative, digits) := match cs with
    | '-' :: rest => (true, rest)
    | '+' :: rest => (false, rest)
    | cs => (false, cs)
  if !digits.isEmpty && digits.all Char.isDigit then
    let n : Nat := digits.foldl (fun n c => 10 * n + (c.toNat - '0'.toNat)) 0
    some (if negative then -(n : Int) else n)
  else none

/-- A number for the shell, which takes no more than 64 bits. -/
def number (s : String) : Except String Int :=
  match number? s with
  | some n => if -(Int.pow 2 63) ≤ n && n < Int.pow 2 63 then .ok n else .error s!"Illegal number: {s}"
  | none => .error s!"Illegal number: {s}"

/-- A number for the program. -/
def integer (s : String) : Except String Int :=
  match number? s with
  | some n => .ok n
  | none => .error s!"invalid integer '{s}'"

/-- The conditions on one argument. -/
def unary? (v : FileView) (op : String) : Option (String → Bool) :=
  let node (path : String) : Option Node :=
    (v.tree.lookup v.cwd (Text.ofByteText path)).toOption.map (·.2)
  match op with
  | "-n" => some fun s => !s.isEmpty
  | "-z" => some fun s => s.isEmpty
  | "-e" => some fun p => (node p).isSome
  | "-f" => some fun p => match node p with
    | some (.file _) | some (.program _) => true
    | _ => false
  | "-d" => some fun p => match node p with
    | some .directory => true
    | _ => false
  | "-r" | "-w" => some fun p => (node p).isSome
  | "-x" => some fun p => match node p with
    | some (.program _) | some .directory => true
    | _ => false
  | "-s" => some fun p => match node p with
    | some (.file content) => content.size > 0
    | some (.program _) | some .directory => true
    | _ => false
  | "-c" => some fun p => match node p with
    | some .nullDevice => true
    | _ => false
  | "-h" | "-L" | "-p" | "-b" | "-S" | "-u" | "-g" | "-k" | "-t" => some fun _ => false
  | _ => none

/-- The operators between two arguments. -/
def binaryOperators : List String :=
  ["=", "!=", "<", ">", "-eq", "-ne", "-lt", "-le", "-gt", "-ge", "-nt", "-ot", "-ef"]

/-- The value of an operator between two arguments, given how numbers are read. -/
def binary (v : FileView) (number : String → Except String Int) (op a b : String) : Result :=
  let compare (f : Int → Int → Bool) : Result := do return f (← number a) (← number b)
  let place (path : String) : Option (List String) :=
    (v.tree.lookup v.cwd (Text.ofByteText path)).toOption.map (·.1)
  match op with
  | "=" | "==" => .ok (a == b)
  | "!=" => .ok (a != b)
  | "<" => .ok (a < b)
  | ">" => .ok (b < a)
  | "-eq" => compare (· == ·)
  | "-ne" => compare (· != ·)
  | "-lt" => compare (· < ·)
  | "-le" => compare (· ≤ ·)
  | "-gt" => compare (· > ·)
  | "-ge" => compare (· ≥ ·)
  | "-nt" => .ok ((place a).isSome && (place b).isNone)
  | "-ot" => .ok ((place a).isNone && (place b).isSome)
  | _ => .ok ((place a).isSome && place a == place b)

/-! ## As the shell reads it -/

/-- What the first of some arguments is taken for. -/
inductive Token where
  | none
  | operand
  | negation
  | conjunction
  | disjunction
  | opening
  | closing
  | unary (op : String) (f : String → Bool)
  | binary (op : String)

/-- What the first of some arguments is taken for: an operator on one argument needs one that is not
itself joined with another. -/
def token (v : FileView) : List String → Token
  | [] => .none
  | s :: rest =>
    match unary? v s with
    | some f =>
      match rest with
      | [] => .operand
      | [_] => .unary s f
      | next :: _ => if binaryOperators.contains next then .operand else .unary s f
    | none =>
      if s == "!" then .negation
      else if s == "-a" then .conjunction
      else if s == "-o" then .disjunction
      else if s == "(" then if rest.isEmpty then .operand else .opening
      else if s == ")" then .closing
      else if binaryOperators.contains s then .binary s
      else .operand

mutual

/-- Conditions joined by `-o`, of which the first argument has been taken for something. Here and below
the arguments from the last one used on are returned. -/
def disjunction (v : FileView) : Nat → Token → List String → Except String (Bool × List String)
  | 0, _, _ => .error "argument expected"
  | fuel + 1, t, args => do
    let (a, args) ← conjunction v fuel t args
    match token v (args.drop 1) with
    | .disjunction =>
      let args := args.drop 2
      let (b, args) ← disjunction v fuel (token v args) args
      return (a || b, args)
    | _ => return (a, args)

/-- Conditions joined by `-a`. -/
def conjunction (v : FileView) : Nat → Token → List String → Except String (Bool × List String)
  | 0, _, _ => .error "argument expected"
  | fuel + 1, t, args => do
    let (a, args) ← negation v fuel t args
    match token v (args.drop 1) with
    | .conjunction =>
      let args := args.drop 2
      let (b, args) ← conjunction v fuel (token v args) args
      return (a && b, args)
    | _ => return (a, args)

/-- A condition that may be negated. -/
def negation (v : FileView) : Nat → Token → List String → Except String (Bool × List String)
  | 0, _, _ => .error "argument expected"
  | fuel + 1, .negation, args => do
    let rest := args.drop 1
    let (value, args) ← negation v fuel (token v rest) (if rest.isEmpty then args else rest)
    return (!value, args)
  | fuel + 1, t, args => single v fuel t args

/-- A condition that is not negated. A missing one does not hold. -/
def single (v : FileView) : Nat → Token → List String → Except String (Bool × List String)
  | 0, _, _ => .error "argument expected"
  | fuel + 1, t, args =>
    match t, args with
    | .none, _ => .ok (false, args)
    | .opening, args =>
      let inner := args.drop 1
      match token v inner with
      | .closing => .ok (false, inner)
      | t => do
        let (value, args) ← disjunction v fuel t inner
        match token v (args.drop 1) with
        | .closing => return (value, args.drop 1)
        | _ => throw "closing paren expected"
    | .unary op f, args =>
      match args.drop 1 with
      | [] => .error s!"{op}: argument expected"
      | b :: rest => .ok (f b, b :: rest)
    | _, args =>
      match token v (args.drop 1), args with
      | .binary op, a :: _ =>
        match args.drop 2 with
        | [] => .error s!"{op}: argument expected"
        | b :: rest => do return (← binary v number op a b, b :: rest)
      | _, args => .ok (args.headD "" != "", args)

end

/-- The value of the condition that arguments make up, as the shell reads it. -/
def eval (v : FileView) (args : List String) : Result :=
  let whole (t : Token) (args : List String) : Result := do
    let (value, left) ← disjunction v (8 * args.length + 16) t args
    match left with
    | used :: _ :: _ => throw (if used.isEmpty then "unexpected operator" else s!"{used}: unexpected operator")
    | _ => return value
  match args with
  | [] => .ok false
  | [_, op, _] =>
    if binaryOperators.contains op then whole .operand args else bracketed whole args
  | [_, _, _, _] => bracketed whole args
  | args => whole (token v args) args
where
  /-- Three or four arguments may stand in parentheses or be negated. -/
  bracketed (whole : Token → List String → Result) (args : List String) : Result :=
    if args.head? == some "(" && args.getLast? == some ")" then
      let inner := (args.drop 1).dropLast
      whole (token v inner) inner
    else if args.head? == some "!" then whole .negation args
    else whole (token v args) args

/-! ## As the program reads it -/

/-- The operators that the program knows between two arguments. -/
def isProgramBinary (op : String) : Bool :=
  op == "==" || binaryOperators.contains op

/-- Whether an argument has the form of an operator on one argument. -/
def isSwitch (s : String) : Bool :=
  s.length == 2 && s.startsWith "-"

/-- Reports that nothing follows the last argument. -/
def beyond {α : Type} (all : List String) : Except String α :=
  .error ("missing argument after '" ++ all.getLast?.getD "" ++ "'")

/-- An operator on one argument, and the arguments after it. -/
def switch (v : FileView) (all : List String) : List String → Except String (Bool × List String)
  | op :: rest =>
    match unary? v op, rest with
    | none, _ => .error s!"'{op}': unary operator expected"
    | some f, b :: rest => .ok (f b, rest)
    | some _, [] => beyond all
  | [] => beyond all

mutual

/-- A condition of a given number of arguments, and the arguments after it. -/
def byCount (v : FileView) (all : List String) : Nat → Nat → List String →
    Except String (Bool × List String)
  | 0, _, _ => beyond all
  | fuel + 1, count, args =>
    match count, args with
    | 1, a :: rest => .ok (a != "", rest)
    | 2, a :: b :: rest =>
      if a == "!" then .ok (b == "", rest)
      else if isSwitch a then switch v all args
      else beyond all
    | 3, a :: b :: c :: rest =>
      if isProgramBinary b then do return (← binary v integer b a c, rest)
      else if a == "!" then do
        let (value, rest) ← byCount v all fuel 2 (b :: c :: rest)
        return (!value, rest)
      else if a == "(" && c == ")" then .ok (b != "", rest)
      else if b == "-a" || b == "-o" then alternatives v all fuel args
      else .error s!"'{b}': binary operator expected"
    | 4, a :: b :: c :: d :: rest =>
      if a == "!" then do
        let (value, rest) ← byCount v all fuel 3 (b :: c :: d :: rest)
        return (!value, rest)
      else if a == "(" && d == ")" then do
        let (value, rest) ← byCount v all fuel 2 (b :: c :: d :: rest)
        return (value, rest.drop 1)
      else alternatives v all fuel args
    | _, args => alternatives v all fuel args

/-- Conditions joined by `-o`. -/
def alternatives (v : FileView) (all : List String) : Nat → List String →
    Except String (Bool × List String)
  | 0, _ => beyond all
  | fuel + 1, args => do
    let (a, rest) ← joint v all fuel args
    match rest with
    | "-o" :: rest =>
      let (b, rest) ← alternatives v all fuel rest
      return (a || b, rest)
    | rest => return (a, rest)

/-- Conditions joined by `-a`. -/
def joint (v : FileView) (all : List String) : Nat → List String → Except String (Bool × List String)
  | 0, _ => beyond all
  | fuel + 1, args => do
    let (a, rest) ← term v all fuel args
    match rest with
    | "-a" :: rest =>
      let (b, rest) ← joint v all fuel rest
      return (a && b, rest)
    | rest => return (a, rest)

/-- A single condition. -/
def term (v : FileView) (all : List String) : Nat → List String → Except String (Bool × List String)
  | 0, _ => beyond all
  | fuel + 1, args =>
    match args with
    | [] => beyond all
    | "!" :: rest => do
      let (value, rest) ← term v all fuel rest
      return (!value, rest)
    | "(" :: rest => do
      if rest.isEmpty then beyond all
      else
        let count := min 4 (1 + ((rest.drop 1).takeWhile (· != ")")).length)
        let (value, rest) ← byCount v all fuel count rest
        match rest with
        | ")" :: rest => return (value, rest)
        | found :: _ => throw s!"')' expected, found '{found}'"
        | [] => throw "')' expected"
    | a :: op :: b :: rest =>
      if isProgramBinary op then do return (← binary v integer op a b, rest)
      else if isSwitch a then switch v all args
      else .ok (a != "", op :: b :: rest)
    | a :: rest => if isSwitch a then switch v all args else .ok (a != "", rest)

end

/-- The value of the condition that arguments make up, as the program reads it. -/
def evalByCount (v : FileView) (args : List String) : Result :=
  match args with
  | [] => .ok false
  | args => do
    let (value, rest) ← byCount v args (8 * args.length + 16) args.length args
    match rest with
    | [] => return value
    | extra :: _ => throw s!"extra argument '{extra}'"

end ScriptHost.Shell.Test
