import ScriptHost.Shell.Syntax

/-!
# Reading shell source

The source is read one complete line of commands at a time, so that earlier lines run before a fault
in a later one is found. `Reader.line?` reads the next line. Every function that calls itself is
bounded by a number of steps that the length of the source never reaches.
-/

namespace ScriptHost.Shell

/-- What is wrong with a source. -/
inductive SyntaxFault where
  | unterminatedQuote
  | unterminatedBackquote
  | missingBrace
  | unexpected (token : String) (expected : Option String)
  | badName
  | badLoopName
  deriving DecidableEq, Repr

namespace SyntaxFault

/-- The wording of a fault. -/
def message : SyntaxFault → String
  | unterminatedQuote => "Syntax error: Unterminated quoted string"
  | unterminatedBackquote => "Syntax error: EOF in backquote substitution"
  | missingBrace => "Syntax error: Missing '\x7d'"
  | unexpected token none => s!"Syntax error: {token} unexpected"
  | unexpected token (some expected) => s!"Syntax error: {token} unexpected (expecting {expected})"
  | badName => "Syntax error: Bad function name"
  | badLoopName => "Syntax error: Bad for loop variable"

end SyntaxFault

/-- What is left of a source, and the number of the line that it starts in. -/
structure Source where
  rest : List Char
  line : Nat

/-- A computation that reads from a source. -/
abbrev Reader (α : Type) := StateT Source (Except (Nat × SyntaxFault)) α

namespace Reader

/-- A fault in the current line. -/
def fail {α : Type} (fault : SyntaxFault) : Reader α := do
  throw ((← get).line, fault)

/-- The next characters. -/
def rest : Reader (List Char) := return (← get).rest

/-- The next character. -/
def peek : Reader (Option Char) := return (← get).rest.head?

/-- Leave out the next character. -/
def skip : Reader Unit :=
  modify fun s =>
    match s.rest with
    | [] => s
    | c :: rest => ⟨rest, if c == '\n' then s.line + 1 else s.line⟩

/-- Leave out a number of characters. -/
def skipN : Nat → Reader Unit
  | 0 => pure ()
  | n + 1 => do skip; skipN n

/-- Whether the source goes on with a text. -/
def startsWith (text : String) : Reader Bool := return text.toList.isPrefixOf (← get).rest

/-- Leave out a text if the source goes on with it. -/
def accept (text : String) : Reader Bool := do
  if ← startsWith text then
    skipN text.length
    return true
  return false

/-- The number of characters before blanks and comments end. -/
def blankLength : List Char → Nat
  | ' ' :: rest | '\t' :: rest => blankLength rest + 1
  | '\\' :: '\n' :: rest => blankLength rest + 2
  | '#' :: rest => (rest.takeWhile (· != '\n')).length + 1
  | _ => 0

/-- Leave out blanks and a comment. -/
def skipBlanks : Reader Unit := do skipN (blankLength (← rest))

/-! ## Words -/

/-- Where the parts that are read belong, which says what ends them and what is special in them. -/
inductive Mode where
  | word
  | double
  | brace (quoted : Bool)
  | document
  deriving DecidableEq

namespace Mode

/-- Whether the parts are quoted. -/
def quoted : Mode → Bool
  | word => false
  | double => true
  | brace quoted => quoted
  | document => true

/-- Whether a character ends the parts. -/
def endsAt (mode : Mode) (c : Char) : Bool :=
  match mode with
  | word => " \t\n;&|<>()".toList.contains c
  | double => c == '"'
  | brace _ => c == '\x7d'
  | document => false

/-- Whether a backslash takes the meaning of a character away. -/
def escapes (mode : Mode) (c : Char) : Bool :=
  match mode with
  | word | brace false => true
  | double => "$`\"\\".toList.contains c
  | brace true => "$`\"\\\x7d".toList.contains c
  | document => "$`\\".toList.contains c

end Mode

/-- Whether a character may start a name. -/
def isNameStart (c : Char) : Bool :=
  c.isAlpha || c == '_'

/-- Whether a character may stand in a name. -/
def isNameChar (c : Char) : Bool :=
  c.isAlphanum || c == '_'

/-- Whether a text is a name. -/
def isName (text : String) : Bool :=
  match text.toList with
  | [] => false
  | c :: rest => isNameStart c && rest.all isNameChar

/-- Leave out the characters that have a property, and return them. -/
def takeWhile (p : Char → Bool) : Reader String := do
  let taken := (← rest).takeWhile p
  skipN taken.length
  return .ofList taken

/-- What encloses the text of a command. -/
inductive Enclosure where
  | parenthesis
  | single
  | double
  deriving DecidableEq

/-- The text up to the parenthesis that closes it, given what is open inside it, and the number of
characters read. -/
def enclosed (open_ : List Enclosure) (taken : List Char) : List Char → Option (List Char)
  | [] => none
  | c :: rest =>
    match open_, c with
    | .single :: outer, '\'' => enclosed outer (c :: taken) rest
    | .single :: _, _ => enclosed open_ (c :: taken) rest
    | .double :: outer, '"' => enclosed outer (c :: taken) rest
    | [], ')' => some taken.reverse
    | .parenthesis :: outer, ')' => enclosed outer (c :: taken) rest
    | _, '\\' =>
      match rest with
      | [] => none
      | d :: rest => enclosed open_ (d :: c :: taken) rest
    | .double :: _, '$' =>
      match rest with
      | '(' :: rest => enclosed (.parenthesis :: open_) ('(' :: c :: taken) rest
      | rest => enclosed open_ (c :: taken) rest
    | .double :: _, _ => enclosed open_ (c :: taken) rest
    | _, '(' => enclosed (.parenthesis :: open_) (c :: taken) rest
    | _, '\'' => enclosed (.single :: open_) (c :: taken) rest
    | _, '"' => enclosed (.double :: open_) (c :: taken) rest
    | _, _ => enclosed open_ (c :: taken) rest

/-- The inner text when a text is one pair of parentheses around another. -/
def unwrapped? (text : List Char) : Option (List Char) :=
  match text with
  | '(' :: rest =>
    match enclosed [] [] rest with
    | some inner => if inner.length + 2 = text.length then some inner else none
    | none => none
  | _ => none

/-- The text up to a backquote, with the escapes that count there resolved. -/
def backquoted (quoted : Bool) (taken : List Char) : List Char → Option (List Char × List Char)
  | [] => none
  | '`' :: rest => some (taken.reverse, rest)
  | '\\' :: c :: rest =>
    if "`\\$".toList.contains c || (quoted && c == '"') then backquoted quoted (c :: taken) rest
    else backquoted quoted (c :: '\\' :: taken) rest
  | c :: rest => backquoted quoted (c :: taken) rest

/-- Add a character to parts given in reverse. -/
def push (c : Char) (quoted : Bool) (parts : List Part) : List Part :=
  match parts with
  | .literal text q :: rest =>
    if q == quoted then .literal (text.push c) q :: rest
    else .literal (.singleton c) quoted :: parts
  | _ => .literal (.singleton c) quoted :: parts

/-- Whether parts between quotes stand for all arguments and nothing else: they may be no field. -/
def isArguments (parts : List Part) : Bool :=
  !parts.isEmpty && parts.all fun
    | .parameter "@" .plain _ _ => true
    | _ => false

/-- The modifier at the start of what follows a name in braces, with its length. -/
def modifier : List Char → Option (Modifier × Nat)
  | '\x7d' :: _ => some (.plain, 0)
  | ':' :: '-' :: _ => some (.default true, 2)
  | '-' :: _ => some (.default false, 1)
  | ':' :: '=' :: _ => some (.assign true, 2)
  | '=' :: _ => some (.assign false, 1)
  | ':' :: '?' :: _ => some (.require true, 2)
  | '?' :: _ => some (.require false, 1)
  | ':' :: '+' :: _ => some (.alternative true, 2)
  | '+' :: _ => some (.alternative false, 1)
  | '#' :: '#' :: _ => some (.dropStart true, 2)
  | '#' :: _ => some (.dropStart false, 1)
  | '%' :: '%' :: _ => some (.dropEnd true, 2)
  | '%' :: _ => some (.dropEnd false, 1)
  | _ => none

/-- The parameters whose names are single signs. -/
def specialParameters : List Char := "@*#?-$!0123456789".toList

/-- The name of a parameter after an opening brace. -/
def bracedName : Reader String := do
  match ← peek with
  | some c =>
    if isNameStart c then takeWhile isNameChar
    else if c.isDigit then takeWhile Char.isDigit
    else if specialParameters.contains c then
      skip
      return .singleton c
    else return ""
  | none => fail .missingBrace

mutual

/-- The parts up to the end that the mode says, after some parts in reverse. -/
def parts : Nat → Mode → List Part → Reader (List Part)
  | 0, _, _ => fail .unterminatedQuote
  | fuel + 1, mode, acc => do
    match ← peek with
    | none =>
      match mode with
      | .double => fail .unterminatedQuote
      | .brace _ => fail .missingBrace
      | _ => return acc.reverse
    | some c =>
      if mode.endsAt c then return acc.reverse
      skip
      match c with
      | '\\' =>
        match ← peek with
        | none => parts fuel mode (push '\\' mode.quoted acc)
        | some '\n' =>
          skip
          parts fuel mode acc
        | some d =>
          if mode.escapes d then
            skip
            parts fuel mode (push d true acc)
          else parts fuel mode (push '\\' true acc)
      | '\'' =>
        if mode == .word || mode == .brace false then
          let text ← takeWhile (· != '\'')
          if !(← accept "'") then fail .unterminatedQuote
          parts fuel mode (.literal text true :: acc)
        else parts fuel mode (push c true acc)
      | '"' =>
        if mode == .document then parts fuel mode (push c true acc)
        else
          let inner ← parts fuel .double []
          skip
          let mark := if isArguments inner then [] else [.literal "" true]
          parts fuel mode (inner.reverse ++ mark ++ acc)
      | '`' =>
        match backquoted mode.quoted [] (← rest) with
        | none => fail .unterminatedBackquote
        | some (source, after) =>
          skipN ((← rest).length - after.length)
          parts fuel mode (.command (.ofList source) mode.quoted :: acc)
      | '$' => do
        let part ← dollar fuel mode.quoted
        parts fuel mode (match part with
          | some part => part :: acc
          | none => push '$' mode.quoted acc)
      | c => parts fuel mode (push c mode.quoted acc)

/-- What follows a dollar sign, if it means something. -/
def dollar : Nat → Bool → Reader (Option Part)
  | 0, _ => fail .unterminatedQuote
  | fuel + 1, quoted => do
    match ← peek with
    | some '(' =>
      skip
      match enclosed [] [] (← rest) with
      | none => fail (.unexpected "end of file" (some "\")\""))
      | some text =>
        skipN (text.length + 1)
        match unwrapped? text with
        | some inner =>
          let line := (← get).line
          match (parts fuel .document []).run ⟨inner, line⟩ with
          | .ok (source, _) => return some (.arithmetic source quoted)
          | .error e => throw e
        | none => return some (.command (.ofList text) quoted)
    | some '\x7b' =>
      skip
      let following ← rest
      match following with
      | '#' :: c :: _ =>
        if c != '\x7d' && (isNameStart c || specialParameters.contains c) && c != '#'
            && c != '-' && c != '?' then
          skip
          let name ← bracedName
          if !(← accept "\x7d") then fail .missingBrace
          return some (.parameter name .length [] quoted)
        else braced fuel quoted
      | _ => braced fuel quoted
    | some c =>
      if isNameStart c then
        return some (.parameter (← takeWhile isNameChar) .plain [] quoted)
      else if specialParameters.contains c then
        skip
        return some (.parameter (.singleton c) .plain [] quoted)
      else return none
    | none => return none

/-- A parameter in braces, after the opening one. -/
def braced : Nat → Bool → Reader (Option Part)
  | 0, _ => fail .unterminatedQuote
  | fuel + 1, quoted => do
    let name ← bracedName
    match modifier (← rest) with
    | none =>
      -- A parameter that is no parameter: its use is reported when the word is expanded.
      let _ ← parts fuel (.brace quoted) []
      skip
      return some (.parameter "" .plain [] quoted)
    | some (modifier, length) =>
      skipN length
      let word ← parts fuel (.brace (quoted && !modifier.takesPattern)) []
      skip
      return some (.parameter name modifier word quoted)

end

/-- A bound for the steps that reading takes. -/
def bound : Reader Nat := return 2 * (← rest).length + 8

/-- The word at the start of the source, if there is one. -/
def word? : Reader (Option Word) := do
  skipBlanks
  match ← peek with
  | none => return none
  | some c =>
    if Mode.word.endsAt c then return none
    else return some (← parts (← bound) .word [])

/-- The text of a word without any quoting. -/
def plainText? : Word → Option String
  | [.literal text false] => some text
  | _ => none

/-- The word at the start of the source if it has no quoting; it is not left out. -/
def peekPlain : Reader (Option String) := do
  skipBlanks
  let saved ← get
  match word?.run saved with
  | .ok (some word, _) => return plainText? word
  | _ => return none

/-! ## Commands -/

/-- Words that end a list of commands. -/
def closingWords : List String :=
  ["then", "else", "elif", "fi", "do", "done", "esac", "\x7d"]

/-- The words that mean something where a command starts. -/
def reservedWords : List String :=
  ["if", "while", "until", "for", "case", "\x7b", "!", "in"] ++ closingWords

/-- The token at the start of the source, as faults name it. -/
def tokenName : Reader String := do
  skipBlanks
  match ← rest with
  | [] => return "end of file"
  | '\n' :: _ => return "newline"
  | ';' :: ';' :: _ => return "\";;\""
  | '&' :: '&' :: _ => return "\"&&\""
  | '|' :: '|' :: _ => return "\"||\""
  | c :: _ =>
    if ";&|()".toList.contains c then return "\"" ++ .singleton c ++ "\""
    else if "<>".toList.contains c then return "redirection"
    else
      match ← peekPlain with
      | some text =>
        if reservedWords.contains text then
          return "\"" ++ text ++ "\""
        else return "word"
      | none => return "word"

/-- Report the token at the start of the source. -/
def unexpected {α : Type} (expected : Option String) : Reader α := do
  fail (.unexpected (← tokenName) expected)

/-- Leave out blanks, comments and line ends. -/
def skipLines : Nat → Reader Unit
  | 0 => pure ()
  | fuel + 1 => do
    skipBlanks
    if (← peek) == some '\n' then
      skip
      skipLines fuel

/-- Leave out a reserved word, which must be there. -/
def expectWord (text : String) : Reader Unit := do
  skipLines (← bound)
  if (← peekPlain) == some text then skipN text.length
  else unexpected (some ("\"" ++ text ++ "\""))

/-- The lines of a document up to its last line, and what follows. -/
def documentLines (last : List Char) (stripTabs : Bool) : Nat → List Char → List Char → List Char × List Char
  | 0, taken, cs => (taken, cs)
  | _, taken, [] => (taken, [])
  | fuel + 1, taken, cs =>
    let line := cs.takeWhile (· != '\n')
    let ending := (cs.drop line.length).take 1
    let after := cs.drop (line.length + 1)
    let line := if stripTabs then line.dropWhile (· == '\t') else line
    if line == last then (taken, after)
    else documentLines last stripTabs fuel (taken ++ line ++ ending) after

/-- The text of a word with its quoting removed, for the last line of a document. -/
def unquoted (word : Word) : String :=
  .join (word.map fun
    | .literal text _ => text
    | _ => "")

/-- Whether any part of a word is quoted. -/
def isQuoted (word : Word) : Bool :=
  word.any fun
    | .literal _ quoted => quoted
    | _ => false

/-- A document that follows the current line: its lines are taken out of the source. -/
def document (stripTabs : Bool) : Reader Word := do
  match ← word? with
  | none => unexpected none
  | some last =>
    let s ← get
    let line := s.rest.takeWhile (· != '\n')
    let below := (s.rest.dropWhile (· != '\n')).drop 1
    let (text, after) :=
      documentLines (unquoted last).toList stripTabs (below.length + 1) [] below
    set (⟨line ++ '\n' :: after, s.line⟩ : Source)
    if isQuoted last then return [.literal (.ofList text) true]
    else
      match (parts (2 * text.length + 8) .document []).run ⟨text, s.line⟩ with
      | .ok (word, _) => return word
      | .error e => throw e

/-- The redirection at the start of the source, if there is one. -/
def redirect? : Reader (Option Redirect) := do
  skipBlanks
  let digits := (← rest).takeWhile Char.isDigit
  let sign := (← rest).drop digits.length
  if !(sign.head? == some '<' || sign.head? == some '>') then return none
  let given := (String.ofList digits).toNat?
  skipN digits.length
  let target (kind : RedirectKind) (descriptor : Nat) : Reader (Option Redirect) := do
    match ← word? with
    | some word => return some ⟨given.getD descriptor, kind, word⟩
    | none => unexpected none
  if ← accept "<<-" then return some ⟨given.getD 0, .document, ← document true⟩
  else if ← accept "<<" then return some ⟨given.getD 0, .document, ← document false⟩
  else if ← accept "<&" then target .duplicate 0
  else if ← accept "<>" then target .readWrite 0
  else if ← accept "<" then target .input 0
  else if ← accept ">>" then target .append 1
  else if ← accept ">&" then target .duplicate 1
  else if ← accept ">|" then target .output 1
  else
    skip
    target .output 1

/-- The redirections at the start of the source. -/
def redirects : Nat → Reader (List Redirect)
  | 0 => return []
  | fuel + 1 => do
    match ← redirect? with
    | some r => return r :: (← redirects fuel)
    | none => return []

/-- The assignment that a word is, if it is one. -/
def assignment? : Word → Option (String × Word)
  | .literal text false :: more =>
    let name := text.toList.takeWhile (· != '=')
    if name.length < text.length && isName (.ofList name) then
      let value := text.toList.drop (name.length + 1)
      some (.ofList name, if value.isEmpty then more else .literal (.ofList value) false :: more)
    else none
  | _ => none

/-- The rest of a simple command after what was read of it, in reverse. -/
def simple (line : Nat) : Nat → List (String × Word) → List Word → List Redirect → Reader Command
  | 0, assignments, words, redirects =>
    return .simple line assignments.reverse words.reverse redirects.reverse
  | fuel + 1, assignments, words, redirects => do
    match ← redirect? with
    | some r => simple line fuel assignments words (r :: redirects)
    | none =>
      match ← word? with
      | none =>
        if assignments.isEmpty && words.isEmpty && redirects.isEmpty then unexpected none
        else return .simple line assignments.reverse words.reverse redirects.reverse
      | some word =>
        match if words.isEmpty then assignment? word else none with
        | some a => simple line fuel (a :: assignments) words redirects
        | none => simple line fuel assignments (word :: words) redirects

/-- The patterns of an arm. -/
def patterns : Nat → Reader (List Word)
  | 0 => return []
  | fuel + 1 => do
    match ← word? with
    | none => unexpected (some "\")\"")
    | some word =>
      skipBlanks
      if ← accept "|" then return word :: (← patterns fuel)
      else if ← accept ")" then return [word]
      else unexpected (some "\")\"")

/-- The words of a loop, up to the end of the line. -/
def loopWords : Nat → Reader (List Word)
  | 0 => return []
  | fuel + 1 => do
    match ← word? with
    | some word => return word :: (← loopWords fuel)
    | none => return []

/-- Two commands after each other. -/
def follow : Command → Command → Command
  | .nothing, c => c
  | c, .nothing => c
  | a, b => .sequence a b

/-- Whether a list of commands ends here. -/
def atClose : Reader Bool := do
  skipBlanks
  match ← rest with
  | [] | ')' :: _ | ';' :: ';' :: _ => return true
  | _ =>
    match ← peekPlain with
    | some text => return closingWords.contains text
    | none => return false

mutual

/-- The commands up to a word or sign that closes them. -/
def list : Nat → Reader Command
  | 0 => unexpected none
  | fuel + 1 => do
    skipLines (← bound)
    if ← atClose then return .nothing
    let first ← andOr fuel
    skipBlanks
    match ← rest with
    | ';' :: ';' :: _ => return first
    | ';' :: _ | '\n' :: _ =>
      skip
      return follow first (← list fuel)
    | '&' :: _ =>
      skip
      return follow (.background first) (← list fuel)
    | _ =>
      if ← atClose then return first
      else unexpected none

/-- Pipelines joined by `&&` and `||`. -/
def andOr : Nat → Reader Command
  | 0 => unexpected none
  | fuel + 1 => do
    let first ← pipeline fuel
    andOrRest fuel first

/-- Further pipelines after a command. -/
def andOrRest : Nat → Command → Reader Command
  | 0, _ => unexpected none
  | fuel + 1, first => do
    skipBlanks
    if ← accept "&&" then
      skipLines (← bound)
      andOrRest fuel (.conjunction first (← pipeline fuel))
    else if ← accept "||" then
      skipLines (← bound)
      andOrRest fuel (.disjunction first (← pipeline fuel))
    else return first

/-- Commands joined by pipes. -/
def pipeline : Nat → Reader Command
  | 0 => unexpected none
  | fuel + 1 => do
    if (← peekPlain) == some "!" then
      skipN 1
      match ← pipeline fuel with
      | .pipeline negated stages => return .pipeline (!negated) stages
      | c => return .pipeline true [c]
    else
      match ← stages fuel with
      | [c] => return c
      | cs => return .pipeline false cs

/-- The commands of a pipeline. -/
def stages : Nat → Reader (List Command)
  | 0 => unexpected none
  | fuel + 1 => do
    let first ← command fuel
    skipBlanks
    if (← startsWith "|") && !(← startsWith "||") then
      skip
      skipLines (← bound)
      return first :: (← stages fuel)
    else return [first]

/-- A command with its redirections. -/
def command : Nat → Reader Command
  | 0 => unexpected none
  | fuel + 1 => do
    skipBlanks
    let line := (← get).line
    let compound (body : Command) : Reader Command := do
      match ← redirects (← bound) with
      | [] => return body
      | rs => return .redirected body line rs
    if (← peek) == some '(' then
      skip
      let body ← list fuel
      if !(← accept ")") then unexpected (some "\")\"")
      compound (.subshell body)
    else
      match ← peekPlain with
      | some "\x7b" =>
        skipN 1
        let body ← list fuel
        expectWord "\x7d"
        compound body
      | some "if" =>
        skipN 2
        compound (← conditional fuel)
      | some "while" =>
        skipN 5
        let test ← list fuel
        expectWord "do"
        let body ← list fuel
        expectWord "done"
        compound (.loop false test body)
      | some "until" =>
        skipN 5
        let test ← list fuel
        expectWord "do"
        let body ← list fuel
        expectWord "done"
        compound (.loop true test body)
      | some "for" =>
        skipN 3
        skipBlanks
        let name ← takeWhile isNameChar
        if !isName name then fail .badLoopName
        skipLines (← bound)
        let words ← if (← peekPlain) == some "in" then do
            skipN 2
            let words ← loopWords (← bound)
            skipBlanks
            if !(← startsWith ";") && !(← startsWith "\n") || (← startsWith ";;") then unexpected none
            pure (some words)
          else pure none
        skipBlanks
        if (← startsWith ";") && !(← startsWith ";;") then skip
        expectWord "do"
        let body ← list fuel
        expectWord "done"
        compound (.forEach name words body)
      | some "case" =>
        skipN 4
        match ← word? with
        | none => unexpected none
        | some word =>
          expectWord "in"
          let arms ← arms fuel
          compound (.cases word arms)
      | some text =>
        if closingWords.contains text then unexpected none
        else
          let saved ← get
          let _ ← word?
          skipBlanks
          if (assignment? [.literal text false]).isNone && (← accept "(") then
            skipBlanks
            if !(← accept ")") then unexpected (some "\")\"")
            if !isName text then fail .badName
            skipLines (← bound)
            return .define text (← command fuel)
          else
            set saved
            simple line (← bound) [] [] []
      | none => simple line (← bound) [] [] []

/-- A conditional after its first word. -/
def conditional : Nat → Reader Command
  | 0 => unexpected none
  | fuel + 1 => do
    let test ← list fuel
    expectWord "then"
    let thenBranch ← list fuel
    match ← peekPlain with
    | some "elif" =>
      skipN 4
      return .conditional test thenBranch (some (← conditional fuel))
    | some "else" =>
      skipN 4
      let elseBranch ← list fuel
      expectWord "fi"
      return .conditional test thenBranch (some elseBranch)
    | _ =>
      expectWord "fi"
      return .conditional test thenBranch none

/-- The arms of a case distinction, up to its last word. -/
def arms : Nat → Reader (List (List Word × Command))
  | 0 => unexpected none
  | fuel + 1 => do
    skipLines (← bound)
    if (← peekPlain) == some "esac" then
      skipN 4
      return []
    let _ ← accept "("
    let patterns ← patterns (← bound)
    let body ← list fuel
    skipLines (← bound)
    if ← accept ";;" then return (patterns, body) :: (← arms fuel)
    else if (← peekPlain) == some "esac" then
      skipN 4
      return [(patterns, body)]
    else unexpected (some "\";;\"")

end

/-- The rest of a line after its first commands. -/
def lineRest : Nat → Command → Reader Command
  | 0, first => return first
  | fuel + 1, first => do
    let next ← andOr (← bound)
    skipBlanks
    match ← rest with
    | [] => return follow first next
    | '\n' :: _ =>
      skip
      return follow first next
    | ';' :: more =>
      if more.head? == some ';' then unexpected none
      skip
      atEnd fuel (follow first next)
    | '&' :: _ =>
      skip
      atEnd fuel (follow first (.background next))
    | _ => unexpected none
where
  /-- The rest of a line after a sign that may end it. -/
  atEnd (fuel : Nat) (c : Command) : Reader Command := do
    skipBlanks
    match ← rest with
    | [] => return c
    | '\n' :: _ =>
      skip
      return c
    | _ => lineRest fuel c

/-- The next line of commands; none at the end of the source. -/
def line? : Reader (Option Command) := do
  skipLines (← bound)
  match ← rest with
  | [] => return none
  | _ => return some (← lineRest (← bound) .nothing)

end Reader

end ScriptHost.Shell
