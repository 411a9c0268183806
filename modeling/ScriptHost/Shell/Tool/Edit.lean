import ScriptHost.Shell.Tool.Text

/-!
# Editing lines

What `sed` does: a script of commands is run for every line of the input. `Edit.parse` reads a
script, and `Edit.runLines` runs it.
-/

namespace ScriptHost.Shell.Edit

/-- What a line is chosen by. -/
inductive Address where
  | line (n : Nat)
  | last
  | every (start distance : Nat)
  | «matching» (e : Regex) (ignoreCase : Bool)
  deriving Repr

/-- A change of letters in a replacement: to upper or lower case, of one character or of all up to the
end of the change. -/
inductive CaseChange where
  | upperNext
  | lowerNext
  | upper
  | lower
  | ending
  deriving DecidableEq, Repr

/-- A part of what a match is replaced by. -/
inductive ReplacementPart where
  | char (c : Char)
  | group (n : Nat)
  | change (c : CaseChange)
  deriving DecidableEq, Repr

/-- A substitution: what is looked for, what it is replaced by, from which match on, and whether all
further matches are replaced and the line is printed. -/
structure Substitution where
  regex : Regex
  ignoreCase : Bool
  replacement : List ReplacementPart
  nth : Nat
  all : Bool
  print : Bool
  deriving Repr

/-- A command without its addresses. Jumps name the place in the script they go to. -/
inductive Action where
  | substitute (s : Substitution)
  | transliterate (pairs : List (Char × Char))
  | delete
  | deleteFirstLine
  | print
  | printFirstLine
  | lineNumber
  /-- Print the line with everything visible. -/
  | list
  /-- Print a file after the line. -/
  | readFile (path : String)
  | quit (status : Nat) (silent : Bool)
  | append (text : String)
  | insert (text : String)
  | change (text : String)
  | next
  | appendNext
  | hold
  | holdAppend
  | get
  | getAppend
  | exchange
  | label (name : String)
  | branch (name : String)
  | branchIfSubstituted (name : String)
  | blockStart
  | blockEnd
  | nothing
  deriving Repr

/-- A command of a script. -/
structure Instruction where
  first : Option Address
  second : Option Address
  negated : Bool
  action : Action
  deriving Repr

/-- Characters up to an unescaped delimiter, and what follows it. An escaped delimiter loses its
backslash. -/
def delimited (d : Char) (inBrackets : Bool) (taken : List Char) :
    List Char → Option (List Char × List Char)
  | [] => none
  | '\\' :: c :: rest =>
    if c == d && !inBrackets then delimited d inBrackets (c :: taken) rest
    else delimited d inBrackets (c :: '\\' :: taken) rest
  | c :: rest =>
    if c == d && !inBrackets then some (taken.reverse, rest)
    else if c == '\n' && d != '\n' then none
    else
      let inBrackets := if c == '[' then true else if c == ']' then false else inBrackets
      delimited d inBrackets (c :: taken) rest

/-- Characters of a replacement up to an unescaped delimiter, and what follows it. -/
def delimitedText (d : Char) (taken : List Char) : List Char → Option (List Char × List Char)
  | [] => none
  | '\\' :: c :: rest =>
    if c == d then delimitedText d (c :: taken) rest
    else delimitedText d (c :: '\\' :: taken) rest
  | c :: rest => if c == d then some (taken.reverse, rest) else delimitedText d (c :: taken) rest

/-- The parts of a replacement. -/
def replacementOf : List Char → List ReplacementPart
  | [] => []
  | '&' :: rest => .group 0 :: replacementOf rest
  | '\\' :: c :: rest =>
    (if c.isDigit then .group (c.toNat - '0'.toNat)
      else if c == 'n' then .char '\n'
      else if c == 't' then .char '\t'
      else if c == 'u' then .change .upperNext
      else if c == 'l' then .change .lowerNext
      else if c == 'U' then .change .upper
      else if c == 'L' then .change .lower
      else if c == 'E' then .change .ending
      else .char c) :: replacementOf rest
  | c :: rest => .char c :: replacementOf rest

/-- The characters that a transliteration lists. -/
def listed : List Char → List Char
  | [] => []
  | '\\' :: 'n' :: rest => '\n' :: listed rest
  | '\\' :: c :: rest => c :: listed rest
  | c :: rest => c :: listed rest

/-- What is wrong with a script, and what is left of the script behind it unless it is the script as a
whole. -/
structure ScriptFault where
  message : String
  rest : Option (List Char)

/-- What reading a part of a script gives: its meaning and what follows it. -/
abbrev Reading (α : Type) := Except ScriptFault (α × List Char)

/-- Report a fault in front of what is left of a script. -/
def faulty {α : Type} (message : String) (rest : List Char) : Except ScriptFault α :=
  .error ⟨message, some rest⟩

/-- The address at the start of a script, and what follows it. -/
def address (d : Regex.Dialect) (cs : List Char) : Reading (Option Address) :=
  let expression (delimiter : Char) (cs : List Char) : Reading (Option Address) :=
    match delimited delimiter false [] cs with
    | none => faulty "unterminated address regex" []
    | some (text, rest) =>
      match Regex.parse? d text with
      | none => faulty "Invalid preceding regular expression" rest
      | some e =>
        match rest with
        | 'I' :: rest => .ok (some (.matching e true), rest)
        | rest => .ok (some (.matching e false), rest)
  match cs with
  | '$' :: rest => .ok (some .last, rest)
  | '/' :: rest => expression '/' rest
  | '\\' :: c :: rest => expression c rest
  | cs =>
    let digits := cs.takeWhile Char.isDigit
    match (String.ofList digits).toNat? with
    | none => .ok (none, cs)
    | some n =>
      match cs.drop digits.length with
      | '~' :: rest =>
        let more := rest.takeWhile Char.isDigit
        .ok (some (.every n ((String.ofList more).toNat?.getD 0)), rest.drop more.length)
      | rest => .ok (some (.line n), rest)

/-- Characters without blanks at their start. -/
def skipBlanks (cs : List Char) : List Char :=
  cs.dropWhile fun c => c == ' ' || c == '\t'

/-- The text after a command that takes one, up to the end of its line, and what follows. -/
def textArgument (cs : List Char) : String × List Char :=
  let cs := skipBlanks cs
  let cs := match cs with
    | '\\' :: '\n' :: rest | '\\' :: rest => rest
    | cs => cs
  let rec lines : Nat → List Char → List Char → List Char × List Char
    | 0, taken, cs => (taken.reverse, cs)
    | _, taken, [] => (taken.reverse, [])
    | fuel + 1, taken, '\\' :: c :: rest => lines fuel (c :: taken) rest
    | _, taken, '\n' :: rest => (taken.reverse, rest)
    | fuel + 1, taken, c :: rest => lines fuel (c :: taken) rest
  let (text, rest) := lines (cs.length + 1) [] cs
  (.ofList text, rest)

/-- The flags of a substitution, and what follows them. -/
def substitutionFlags : Nat → Substitution → List Char → Reading Substitution
  | 0, s, cs => .ok (s, cs)
  | fuel + 1, s, cs =>
    match cs with
    | 'g' :: rest =>
      if s.all then faulty "multiple \x60g' options to \x60s' command" rest
      else substitutionFlags fuel { s with all := true } rest
    | 'p' :: rest =>
      if s.print then faulty "multiple \x60p' options to \x60s' command" rest
      else substitutionFlags fuel { s with print := true } rest
    | 'i' :: rest | 'I' :: rest => substitutionFlags fuel { s with ignoreCase := true } rest
    | ' ' :: rest | '\t' :: rest => substitutionFlags fuel s rest
    | c :: rest =>
      if c.isDigit then
        let digits := cs.takeWhile Char.isDigit
        match (String.ofList digits).toNat? with
        | some 0 => faulty "number option to \x60s' command may not be zero" (cs.drop digits.length)
        | n => substitutionFlags fuel { s with nth := n.getD 1 } (cs.drop digits.length)
      else if "\n;#\x7d".toList.contains c then .ok (s, cs)
      else faulty "unknown option to \x60s'" rest
    | [] => .ok (s, cs)

/-- The largest group that a replacement names. -/
def largestGroup (parts : List ReplacementPart) : Nat :=
  (parts.map fun
    | .group n => n
    | _ => 0).foldl max 0

/-- A substitution after its first letter. -/
def substitution (d : Regex.Dialect) : List Char → Reading Substitution
  | [] => faulty "unterminated \x60s' command" []
  | delimiter :: rest =>
    match delimited delimiter false [] rest with
    | none => faulty "unterminated \x60s' command" []
    | some (pattern, rest) =>
      match delimitedText delimiter [] rest with
      | none => faulty "unterminated \x60s' command" []
      | some (replacement, rest) =>
        let parts := replacementOf replacement
        match substitutionFlags (rest.length + 1) ⟨.empty, false, parts, 1, false, false⟩ rest with
        | .error fault => .error fault
        | .ok (s, rest) =>
          match Regex.parse? d pattern with
          | none => faulty "Unmatched ( or \\(" (rest.drop 1)
          | some e =>
            let largest := largestGroup parts
            if largest > e.groupCount then
              faulty s!"invalid reference \\{largest} on \x60s' command's RHS" (rest.drop 1)
            else .ok ({ s with regex := e }, rest)

/-- A transliteration after its first letter. -/
def transliteration (rest : List Char) : Reading (List (Char × Char)) :=
  let pair : Option (List Char × List Char × List Char) := do
    let delimiter ← rest.head?
    let (old, rest) ← delimitedText delimiter [] (rest.drop 1)
    let (new, rest) ← delimitedText delimiter [] rest
    return (listed old, listed new, rest)
  match pair with
  | none => faulty "unterminated \x60y' command" []
  | some (old, new, rest) =>
    if old.length = new.length then .ok (old.zip new, rest)
    else faulty "strings for \x60y' command are different lengths" rest

/-- The command at the start of a script without its addresses, and what follows it. -/
def action (d : Regex.Dialect) (addressed : Bool) (cs : List Char) : Reading Action :=
  let plain (a : Action) (rest : List Char) : Reading Action := .ok (a, rest)
  let name (f : String → Action) (rest : List Char) : Reading Action :=
    let rest := skipBlanks rest
    let word := rest.takeWhile fun c => c != ';' && c != '\n' && c != '\x7d' && c != ' '
    .ok (f (.ofList word), rest.drop word.length)
  let text (f : String → Action) (rest : List Char) : Reading Action :=
    if (skipBlanks rest).isEmpty then faulty "expected \\ after \x60a', \x60c' or \x60i'" []
    else
      let (t, rest) := textArgument rest
      .ok (f t, '\n' :: rest)
  let status (silent : Bool) (rest : List Char) : Reading Action :=
    let rest := skipBlanks rest
    let digits := rest.takeWhile Char.isDigit
    .ok (.quit ((String.ofList digits).toNat?.getD 0) silent, rest.drop digits.length)
  match cs with
  | 's' :: rest => (substitution d rest).map fun (s, rest) => (.substitute s, rest)
  | 'y' :: rest => (transliteration rest).map fun (pairs, rest) => (.transliterate pairs, rest)
  | 'd' :: rest => plain .delete rest
  | 'D' :: rest => plain .deleteFirstLine rest
  | 'p' :: rest => plain .print rest
  | 'P' :: rest => plain .printFirstLine rest
  | '=' :: rest => plain .lineNumber rest
  | 'l' :: rest => plain .list rest
  | 'r' :: rest =>
    let path := (skipBlanks rest).takeWhile (· != '\n')
    if path.isEmpty then faulty "missing filename in r/R/w/W commands" rest
    else .ok (.readFile (.ofList path), (skipBlanks rest).drop path.length)
  | 'q' :: rest => status false rest
  | 'Q' :: rest => status true rest
  | 'a' :: rest => text .append rest
  | 'i' :: rest => text .insert rest
  | 'c' :: rest => text .change rest
  | 'n' :: rest => plain .next rest
  | 'N' :: rest => plain .appendNext rest
  | 'h' :: rest => plain .hold rest
  | 'H' :: rest => plain .holdAppend rest
  | 'g' :: rest => plain .get rest
  | 'G' :: rest => plain .getAppend rest
  | 'x' :: rest => plain .exchange rest
  | ':' :: rest =>
    if addressed then faulty ": doesn't want any addresses" rest
    else if (skipBlanks rest).isEmpty then faulty "\":\" lacks a label" rest
    else name .label rest
  | 'b' :: rest => name .branch rest
  | 't' :: rest => name .branchIfSubstituted rest
  | '\x7b' :: rest => plain .blockStart (';' :: rest)
  | '\x7d' :: rest => plain .blockEnd rest
  | '#' :: rest =>
    if addressed then faulty "comments don't accept any addresses" rest
    else plain .nothing (rest.dropWhile (· != '\n'))
  | ',' :: rest => faulty "unexpected \x60,'" rest
  | c :: rest =>
    if c == ';' || c == '\n' then faulty "missing command" rest
    else faulty ("unknown command: \x60" ++ .singleton c ++ "'") rest
  | [] => faulty "missing command" []

/-- The commands of a script of which `depth` blocks are open. -/
def commands (d : Regex.Dialect) : Nat → Nat → List Char → Except ScriptFault (List Instruction)
  | 0, _, _ => .error ⟨"command too long", none⟩
  | fuel + 1, depth, cs =>
    match cs.dropWhile fun c => c == ' ' || c == '\t' || c == '\n' || c == ';' with
    | [] => if depth = 0 then .ok [] else .error ⟨"unmatched \x60\x7b'", none⟩
    | cs => do
      let (first, rest) ← address d cs
      let rest := skipBlanks rest
      let (second, rest) ← match first, rest with
        | some _, ',' :: rest => do
          let (second, rest) ← address d (skipBlanks rest)
          if second.isNone then faulty "unexpected \x60,'" rest else pure (second, rest)
        | _, rest => pure (none, rest)
      let rest := skipBlanks rest
      let negated := rest.head? == some '!'
      let rest := skipBlanks (if negated then rest.drop 1 else rest)
      let isZero := match first, second with
        | some (.line 0), some (.matching _ _) => false
        | some (.line 0), _ => true
        | _, _ => false
      if isZero then faulty "invalid usage of line address 0" (rest.drop 1)
      let (action, rest) ← action d first.isSome rest
      let depth ← match action with
        | .blockStart => pure (depth + 1)
        | .blockEnd => if depth = 0 then faulty "unexpected \x60\x7d'" rest else pure (depth - 1)
        | _ => pure depth
      let rest := skipBlanks rest
      match rest with
      | [] =>
        return ⟨first, second, negated, action⟩ :: (← commands d fuel depth [])
      | c :: more =>
        if c == ';' || c == '\n' || c == '\x7d' || c == '#' then
          return ⟨first, second, negated, action⟩ :: (← commands d fuel depth rest)
        else faulty "extra characters after command" more

/-- The label that a command jumps to. -/
def Action.target? : Action → Option String
  | .branch name | .branchIfSubstituted name => if name.isEmpty then none else some name
  | _ => none

/-- A text that says where in the parts of a script a fault lies, by the number of characters up to
it. -/
def faultPlace (consumed index : Nat) : List String → String
  | [] => s!"-e expression #{index}, char {consumed}: "
  | [_] => s!"-e expression #{index}, char {consumed}: "
  | part :: rest =>
    if consumed ≤ part.length then s!"-e expression #{index}, char {consumed}: "
    else faultPlace (consumed - part.length - 1) (index + 1) rest

/-- The commands of a script that is given in parts, or a message and a status. -/
def parse (d : Regex.Dialect) (parts : List String) : Except (String × Nat) (List Instruction) :=
  let source := ("\n".intercalate parts).toList
  match commands d (source.length + 2) 0 source with
  | .error ⟨message, none⟩ => .error (faultPlace 0 1 parts ++ message, 1)
  | .error ⟨message, some rest⟩ =>
    .error (faultPlace (source.length - rest.length) 1 parts ++ message, 1)
  | .ok script =>
    let labels := script.filterMap fun i => match i.action with
      | .label name => some name
      | _ => none
    match (script.filterMap (·.action.target?)).find? fun name => !labels.contains name with
    | some name => .error (s!"can't find label for jump to \x60{name}'", 4)
    | none => .ok script

/-- The state of an edit. -/
structure State where
  /-- The text of a file, if it can be read. -/
  files : String → Option String
  space : String
  held : String
  line : Nat
  rest : List String
  /-- The commands with two addresses that are in their range. -/
  active : List Nat
  output : List String
  /-- What is printed after the line. -/
  after : List String
  substituted : Bool
  status : Option Nat
  complete : Bool

/-- Print a line. -/
def State.emit (s : State) (text : String) : State :=
  let last := s.rest.isEmpty && !s.complete
  { s with output := (if last then text else text ++ "\n") :: s.output }

/-- Print a line that is not part of the input. -/
def State.say (s : State) (text : String) : State :=
  { s with output := (text ++ "\n") :: s.output }

/-- Whether an address chooses the current line. -/
def Address.chooses (s : State) : Address → Bool
  | .line n => s.line == n
  | .last => s.rest.isEmpty
  | .every start distance =>
    if distance = 0 then s.line == start else s.line ≥ start && (s.line - start) % distance == 0
  | .matching e ignoreCase => (Regex.find? e ignoreCase s.space.toList).isSome

/-- Whether a command applies to the current line, and the ranges afterwards. -/
def applies (s : State) (index : Nat) (i : Instruction) : Bool × State :=
  let (chosen, s) : Bool × State := match i.first, i.second with
    | none, _ => (true, s)
    | some a, none => (a.chooses s, s)
    | some a, some b =>
      if s.active.contains index then
        let ends : Bool := match b with
          | .line n => s.line ≥ n
          | b => b.chooses s
        let past : Bool := match b with
          | .line n => s.line > n
          | _ => false
        (!past, if ends then { s with active := s.active.filter (· != index) } else s)
      else if a.chooses s then
        let oneLine : Bool := match b with
          | .line n => n ≤ s.line
          | _ => false
        (true, if oneLine then s else { s with active := index :: s.active })
      else (false, s)
  (chosen != i.negated, s)

/-- The text of a match after replacement. -/
def replacementText (parts : List ReplacementPart) (whole : List Char) (groups : List (Nat × List Char)) :
    List Char :=
  go none none parts
where
  /-- The text of the parts that are left, under a change for the next character and one for all. -/
  go (next all : Option CaseChange) : List ReplacementPart → List Char
    | [] => []
    | .change .ending :: rest => go none none rest
    | .change .upper :: rest => go next (some .upper) rest
    | .change .lower :: rest => go next (some .lower) rest
    | .change c :: rest => go (some c) all rest
    | .char c :: rest => changed next all [c] ++ go none all rest
    | .group n :: rest =>
      let text := if n = 0 then whole else (groups.lookup n).getD []
      changed next all text ++ go (if text.isEmpty then next else none) all rest
  /-- A text under the changes. -/
  changed (next all : Option CaseChange) (cs : List Char) : List Char :=
    let cs := match all with
      | some .upper => cs.map Char.toUpper
      | some .lower => cs.map Char.toLower
      | _ => cs
    match next, cs with
    | some .upperNext, c :: rest => c.toUpper :: rest
    | some .lowerNext, c :: rest => c.toLower :: rest
    | _, cs => cs

/-- The text after the position with matches replaced, and whether there was one to replace. -/
def substituteFrom (s : Substitution) : Nat → Nat → Bool → Regex.Position → List Char × Bool
  | 0, _, _, p => (p.after, false)
  | fuel + 1, seen, afterMatch, p =>
    match Regex.search? s.regex s.ignoreCase (p.after.length + 1) p with
    | none => (p.after, false)
    | some (start, found) =>
      let skipped := p.after.take (p.after.length - start.after.length)
      let whole := start.after.take (start.after.length - found.ends.after.length)
      if whole.isEmpty && afterMatch && skipped.isEmpty then
        -- No empty match stands directly after another match.
        match p.after with
        | [] => ([], false)
        | c :: _ =>
          let (more, done) := substituteFrom s fuel seen false (p.forward 1)
          (c :: more, done)
      else
        let count := seen + 1
        let replaced := count = s.nth || (count > s.nth && s.all)
        let text := if replaced then replacementText s.replacement whole found.groups else whole
        if replaced && !s.all then (skipped ++ text ++ found.ends.after, true)
        else if whole.isEmpty then
          match found.ends.after with
          | [] => (skipped ++ text, replaced)
          | c :: _ =>
            let (more, done) := substituteFrom s fuel count false (found.ends.forward 1)
            (skipped ++ text ++ c :: more, replaced || done)
        else
          let (more, done) := substituteFrom s fuel count true found.ends
          (skipped ++ text ++ more, replaced || done)

/-- The first line of a text, and what follows it if there is more than one. -/
def firstLine (text : String) : String × Option String :=
  let first := text.toList.takeWhile (· != '\n')
  let rest := text.toList.drop first.length
  (.ofList first, if rest.isEmpty then none else some (.ofList (rest.drop 1)))

/-- The largest number of characters in a line of a visible text. -/
def visibleWidth : Nat := 69

/-- A text with everything visible: control characters and bytes beyond ASCII as escapes, long lines
folded, and the end marked. `column` characters of the line are taken. -/
def visible (column : Nat) : List Char → String
  | [] => "$"
  | c :: rest =>
    let octal : String := .ofList (['\\'] ++ [c.toNat / 64, c.toNat / 8 % 8, c.toNat % 8].map fun d =>
      Char.ofNat ('0'.toNat + d))
    let shown : String := match c with
      | '\\' => "\\\\"
      | '\x07' => "\\a"
      | '\x08' => "\\b"
      | '\x0c' => "\\f"
      | '\n' => "\\n"
      | '\r' => "\\r"
      | '\t' => "\\t"
      | '\x0b' => "\\v"
      | c => if c < ' ' || '\x7f' ≤ c then octal else .singleton c
    if column + shown.length > visibleWidth then "\\\n" ++ shown ++ visible shown.length rest
    else shown ++ visible (column + shown.length) rest

/-- How the run of a script for a line goes on after a command. -/
inductive Next where
  | following
  | endOfScript
  /-- The line is over and is not printed. -/
  | discard
  | jump (label : String)

/-- Run one command. -/
def act (silent : Bool) (s : State) : Action → State × Next
  | .substitute sub =>
    let (text, done) := substituteFrom sub (s.space.length + 2) 0 false ⟨[], s.space.toList⟩
    if done then
      let s := { s with space := .ofList text, substituted := true }
      (if sub.print then s.emit s.space else s, .following)
    else (s, .following)
  | .transliterate pairs =>
    ({ s with space := s.space.map fun c => (pairs.lookup c).getD c }, .following)
  | .delete => (s, .discard)
  | .deleteFirstLine => (s, .discard)
  | .print => (s.emit s.space, .following)
  | .printFirstLine => (s.say (firstLine s.space).1, .following)
  | .lineNumber => (s.say (toString s.line), .following)
  | .list => (s.say (visible 0 s.space.toList), .following)
  | .readFile path =>
    ({ s with after := s.after ++ (match s.files path with
      | none | some "" => []
      | some text => [if text.endsWith "\n" then String.ofList text.toList.dropLast else text]) },
      .following)
  | .quit status quiet =>
    ({ s with status := some status }, if quiet then .discard else .endOfScript)
  | .append text => ({ s with after := s.after ++ [text] }, .following)
  | .insert text => (s.say text, .following)
  | .change text => (s.say text, .discard)
  | .next =>
    match s.rest with
    | [] => ({ s with status := some 0 }, .endOfScript)
    | line :: rest =>
      let s := if silent then s else s.emit s.space
      ({ s with space := line, rest, line := s.line + 1 }, .following)
  | .appendNext =>
    match s.rest with
    | [] => ({ s with status := some 0 }, .endOfScript)
    | line :: rest => ({ s with space := s.space ++ "\n" ++ line, rest, line := s.line + 1 }, .following)
  | .hold => ({ s with held := s.space }, .following)
  | .holdAppend => ({ s with held := s.held ++ "\n" ++ s.space }, .following)
  | .get => ({ s with space := s.held }, .following)
  | .getAppend => ({ s with space := s.space ++ "\n" ++ s.held }, .following)
  | .exchange => ({ s with space := s.held, held := s.space }, .following)
  | .branch name => (s, if name.isEmpty then .endOfScript else .jump name)
  | .branchIfSubstituted name =>
    if s.substituted then
      ({ s with substituted := false }, if name.isEmpty then .endOfScript else .jump name)
    else (s, .following)
  | .label _ | .blockStart | .blockEnd | .nothing => (s, .following)

/-- The commands after the end of the block that starts before them. -/
def afterBlock : Nat → List (Nat × Instruction) → List (Nat × Instruction)
  | _, [] => []
  | depth, (_, i) :: rest =>
    match i.action with
    | .blockStart => afterBlock (depth + 1) rest
    | .blockEnd => if depth = 0 then rest else afterBlock (depth - 1) rest
    | _ => afterBlock depth rest

/-- The commands after a label. -/
def afterLabel (name : String) (script : List (Nat × Instruction)) : List (Nat × Instruction) :=
  (script.dropWhile fun (_, i) =>
    match i.action with
    | .label n => n != name
    | _ => true).drop 1

/-- Run the rest of a script for the current line. The result says whether the line is printed. -/
def runScript (silent : Bool) (script : List (Nat × Instruction)) :
    Nat → List (Nat × Instruction) → State → State × Bool
  | 0, _, s => (s, true)
  | _, [], s => (s, true)
  | fuel + 1, (index, i) :: rest, s =>
    let (chosen, s) := applies s index i
    match i.action with
    | .blockStart =>
      runScript silent script fuel (if chosen then rest else afterBlock 0 rest) s
    | action =>
      if !chosen then runScript silent script fuel rest s
      else
        match act silent s action with
        | (s, .following) => runScript silent script fuel rest s
        | (s, .endOfScript) => (s, true)
        | (s, .discard) => (s, false)
        | (s, .jump name) => runScript silent script fuel (afterLabel name script) s

/-- A bound for the commands that are run for one line. -/
def scriptSteps : Nat := 100000

/-- Run a script for all lines that are left. -/
def runLines (silent : Bool) (script : List (Nat × Instruction)) : Nat → State → State
  | 0, s => s
  | fuel + 1, s =>
    match s.rest with
    | [] => s
    | line :: rest =>
      let s := { s with space := line, rest, line := s.line + 1, after := [], substituted := false }
      let (s, printed) := runScript silent script scriptSteps script s
      let s := if printed && !silent then s.emit s.space else s
      let s := s.after.foldl State.say s
      if s.status.isSome then s else runLines silent script fuel s

/-- Whether a range is open before the first line. -/
def Instruction.startsOpen (i : Instruction) : Bool :=
  match i.first, i.second with
  | some (.line 0), some (.matching _ _) => true
  | _, _ => false

/-- The output and status of a script for a text. -/
def edit (silent : Bool) (script : List Instruction) (files : String → Option String)
    (text : String) : String × Nat :=
  let lines := Tool.linesOf text
  let indexed := script.zipIdx.map fun (i, n) => (n, i)
  let open_ := indexed.filterMap fun (n, i) => if i.startsOpen then some n else none
  let s : State :=
    ⟨files, "", "", 0, lines, open_, [], [], false, none, text.endsWith "\n" || text.isEmpty⟩
  let s := runLines silent indexed (lines.length + 1) s
  (.join s.output.reverse, s.status.getD 0)

end ScriptHost.Shell.Edit

namespace ScriptHost.Shell.Tool

/-- What `sed` was asked to do. -/
structure EditRequest where
  silent : Bool
  extended : Bool
  inPlace : Bool
  scripts : List String
  operands : List String

/-- The options of `sed`. -/
def editOptions : List String → Except String EditRequest
  | [] => .ok ⟨false, false, false, [], []⟩
  | "--" :: rest => .ok ⟨false, false, false, [], rest⟩
  | "-e" :: script :: rest =>
    (editOptions rest).map fun r => { r with scripts := script :: r.scripts }
  | "-ne" :: script :: rest =>
    (editOptions rest).map fun r => { r with silent := true, scripts := script :: r.scripts }
  | arg :: rest =>
    if arg.startsWith "-" && arg.length > 1 then
      let letters := arg.toList.drop 1
      match unknownOption? "nErisu".toList arg with
      | some option => .error option
      | none => (editOptions rest).map fun r =>
          { r with
            silent := r.silent || letters.contains 'n'
            extended := r.extended || letters.contains 'E' || letters.contains 'r'
            inPlace := r.inPlace || letters.contains 'i' }
    else (editOptions rest).map fun r => { r with operands := arg :: r.operands }

/-- Edit the lines of files. -/
def sed : Tool := fun argv m =>
  let name := argv.headD "sed"
  match editOptions (argv.drop 1) with
  | .error option => badOption name option 1 m
  | .ok r =>
    let r := if r.scripts.isEmpty then
        { r with scripts := r.operands.take 1, operands := r.operands.drop 1 } else r
    if r.scripts.isEmpty then
      (m.print 2 s!"Usage: {name} [OPTION]... script [input-file]...\n").withStatus 1
    else
      match Edit.parse (if r.extended then .extended else .basic) r.scripts with
      | .error (message, status) => report name message status m
      | .ok script =>
        let paths := if r.operands.isEmpty then ["-"] else r.operands
        let (m, texts) := paths.foldl (fun (m, texts) path =>
          match readInput path m with
          | (.error .isDirectory, m) => (report name s!"couldn't edit {path}: not a regular file" 2 m, texts)
          | (.error fault, m) => (report name s!"can't read {path}: {fault.text}" 2 m, texts)
          | (.ok data, m) => (m, texts ++ [(path, textOf data)])) (m.withStatus 0, [])
        let files (path : String) : Option String :=
          (m.system.tree.read m.process.cwd (Text.ofByteText path)).toOption.map textOf
        if r.inPlace then
          texts.foldl (fun m (path, text) =>
            let (output, _) := Edit.edit r.silent script files text
            match m.system.tree.write m.process.cwd (Text.ofByteText path) (Text.bytesOfText output) with
            | .ok tree => m.withTree tree
            | .error _ => m) m
        else
          let whole : String := (texts.map (·.2)).foldl (fun text next =>
            if text.isEmpty || text.endsWith "\n" then text ++ next else text ++ "\n" ++ next) ""
          let (output, status) := Edit.edit r.silent script files whole
          let m := m.print 1 output
          if status = 0 then m else m.withStatus status

end ScriptHost.Shell.Tool
