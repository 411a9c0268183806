import ScriptHost.Shell.Arithmetic
import ScriptHost.Shell.Machine
import ScriptHost.Shell.Pattern

/-!
# Expanding words

A word is expanded to fields in four steps: its parts are replaced by their values, the values of
unquoted parts are split into fields, fields with unquoted patterns are replaced by the paths they
stand for, and the quoting is dropped. Commands in words are run by a function that is given.
-/

namespace ScriptHost.Shell

/-- A piece of a word whose parts have been replaced: a character, the border between two fields, or
the mark that a field is there even if it is empty. -/
inductive Piece where
  | char (c : Char) (quoted : Bool) (splits : Bool)
  | border
  | present
  deriving DecidableEq, Repr

/-- How the commands in words are run: source and machine give output and machine. -/
abbrev Substitute := String → Machine → String × Machine

namespace Expansion

/-- The pieces of a value. -/
def ofValue (value : String) (quoted : Bool) : List Piece :=
  (if quoted then [.present] else []) ++ value.toList.map fun c => .char c quoted (!quoted)

/-- A list of pieces with borders between them. -/
def joined (fields : List (List Piece)) : List Piece :=
  match fields with
  | [] => []
  | [f] => f
  | f :: rest => f ++ .border :: joined rest

/-- A decimal number as text. -/
def ofNat (n : Nat) : String := toString n

/-- The letters of the options in the order in which a parameter shows them. -/
def optionLetters : List Char := "uabCEVvxsnmiIfe".toList

/-- The value of a parameter; none when it is not set. -/
def value? (m : Machine) (name : String) : Option String :=
  match name with
  | "?" => some (ofNat m.process.status)
  | "#" => some (ofNat m.process.arguments.length)
  | "$" => some (ofNat m.process.shellPid)
  | "!" => m.process.lastJob.map ofNat
  | "-" => some (.ofList (optionLetters.filter m.process.options.contains))
  | "0" => some m.process.name
  | _ =>
    match name.toNat? with
    | some n => m.process.arguments[n - 1]?
    | none => m.valueOf? name

/-- The text of all arguments in one field. -/
def allArguments (m : Machine) : String :=
  let separator := match m.fieldSeparators with
    | [] => ""
    | c :: _ => .singleton c
  separator.intercalate m.process.arguments

/-- The pieces of a parameter without a modifier. -/
def plainPieces (m : Machine) (name : String) (quoted : Bool) : List Piece :=
  if name == "@" || (name == "*" && !quoted) then
    joined (m.process.arguments.map (ofValue · quoted))
  else if name == "*" then ofValue (allArguments m) quoted
  else ofValue ((value? m name).getD "") quoted

/-- The text of pieces without their quoting; borders become blanks. -/
def text (pieces : List Piece) : String :=
  .ofList (pieces.filterMap fun
    | .char c _ _ => some c
    | .border => some ' '
    | .present => none)

/-- The pattern of pieces. -/
def pattern (pieces : List Piece) : List Pattern.Element :=
  Pattern.ofChars (pieces.filterMap fun
    | .char c quoted _ => some ⟨c, quoted⟩
    | .border => some ⟨' ', true⟩
    | .present => none)

/-- The value of a parameter as far as it counts. -/
def counted? (m : Machine) (name : String) (ifEmpty : Bool) : Option String :=
  let value := if name == "@" || name == "*" then
      if m.process.arguments.isEmpty then none else some (allArguments m)
    else value? m name
  if ifEmpty && value == some "" then none else value

/-- Whether the use of a parameter is a fault because it is not set. -/
def isForbidden (m : Machine) (name : String) : Bool :=
  m.hasOption 'u' && name != "@" && name != "*" && (value? m name).isNone

/-- The output of a command as it stands in a word: without line ends at its end. -/
def trimmedOutput (output : String) : String :=
  .ofList (output.toList.reverse.dropWhile (· == '\n')).reverse

mutual

/-- The pieces of a part. -/
def part (substitute : Substitute) (p : Part) (m : Machine) : List Piece × Machine :=
  match p with
  | .literal text quoted =>
    ((if quoted then [.present] else []) ++ text.toList.map fun c => .char c quoted false, m)
  | .command source quoted =>
    let (output, m) := substitute source m
    (ofValue (trimmedOutput output) quoted, m)
  | .arithmetic source quoted =>
    let (pieces, m) := parts substitute source m
    let source := text pieces
    match Arithmetic.evaluate (fun name => (value? m name).getD "") source with
    | .ok (n, assigned) =>
      let m := assigned.reverse.foldl (fun m (name, value) => m.setVariable name (toString value)) m
      (ofValue (toString n) quoted, m)
    | .error fault => ([], m.abort (fault.message source))
  | .parameter name modifier word quoted =>
    match modifier with
    | .plain =>
      if name == "" then ([], m.abort "Bad substitution")
      else if isForbidden m name then ([], m.abort s!"{name}: parameter not set")
      else (plainPieces m name quoted, m)
    | .length =>
      if isForbidden m name then ([], m.abort s!"{name}: parameter not set") else
      let value := if name == "@" || name == "*" then ofNat m.process.arguments.length
        else ofNat ((value? m name).getD "").length
      (ofValue value quoted, m)
    | .default ifEmpty =>
      match counted? m name ifEmpty with
      | some _ => (plainPieces m name quoted, m)
      | none => unquotedSplit substitute quoted word m
    | .alternative ifEmpty =>
      match counted? m name ifEmpty with
      | some _ => unquotedSplit substitute quoted word m
      | none => (if quoted then [.present] else [], m)
    | .assign ifEmpty =>
      match counted? m name ifEmpty with
      | some _ => (plainPieces m name quoted, m)
      | none =>
        let (pieces, m) := parts substitute word m
        let m := m.setVariable name (text pieces)
        (ofValue (text pieces) quoted, m)
    | .require ifEmpty =>
      match counted? m name ifEmpty with
      | some _ => (plainPieces m name quoted, m)
      | none =>
        let (pieces, m) := parts substitute word m
        let reason := text pieces
        let reason := if word.isEmpty then
            if ifEmpty then "parameter not set or null" else "parameter not set"
          else reason
        ([], m.abort s!"{name}: {reason}")
    | .dropStart longest =>
      if isForbidden m name then ([], m.abort s!"{name}: parameter not set") else
      let (pieces, m) := parts substitute word m
      (ofValue (Pattern.dropStart (pattern pieces) longest ((value? m name).getD "")) quoted, m)
    | .dropEnd longest =>
      if isForbidden m name then ([], m.abort s!"{name}: parameter not set") else
      let (pieces, m) := parts substitute word m
      (ofValue (Pattern.dropEnd (pattern pieces) longest ((value? m name).getD "")) quoted, m)

/-- The pieces of the word of a modifier; what is unquoted in it is split. -/
def unquotedSplit (substitute : Substitute) (quoted : Bool) (word : List Part) (m : Machine) :
    List Piece × Machine :=
  let (pieces, m) := parts substitute word m
  ((if quoted then [.present] else []) ++ pieces.map fun
    | .char c q splits => .char c (q || quoted) (splits || !(q || quoted))
    | piece => piece, m)

/-- The pieces of parts in a row. -/
def parts (substitute : Substitute) : List Part → Machine → List Piece × Machine
  | [], m => ([], m)
  | p :: rest, m =>
    let (first, m) := part substitute p m
    if !m.isRunning then (first, m)
    else
      let (more, m) := parts substitute rest m
      (first ++ more, m)

end

/-- A field whose characters remember their quoting. -/
abbrev RawField := List PatternChar

/-- Split pieces into fields. The field that is being read is given in reverse, with whether it is
there even if it is empty, and whether blanks have just ended a field: a separator after them belongs
to the same gap. -/
def split (separators : List Char) (current : RawField) (present gap : Bool) :
    List Piece → List RawField
  | [] => if present || !current.isEmpty then [current.reverse] else []
  | .border :: rest =>
    if present || !current.isEmpty then current.reverse :: split separators [] false false rest
    else split separators [] false false rest
  | .present :: rest => split separators current true gap rest
  | .char c quoted splits :: rest =>
    let inField := present || !current.isEmpty
    if !(splits && separators.contains c) then
      split separators (⟨c, quoted⟩ :: current) present false rest
    else if c == ' ' || c == '\t' || c == '\n' then
      if inField then current.reverse :: split separators [] false true rest
      else split separators [] false gap rest
    else if gap && !inField then split separators [] false false rest
    else current.reverse :: split separators [] false false rest

/-- The text of a field. -/
def fieldText (f : RawField) : String :=
  .ofList (f.map (·.char))

/-- The parts of a field between slashes. -/
def components (f : RawField) : List RawField :=
  let (last, before) := f.foldr (fun c (current, done) =>
    if c.char == '/' then ([], current :: done) else (c :: current, done)) ([], [])
  last :: before

/-- The names in a directory that a pattern stands for. A dot at the start must be written out. -/
def matchingNames (v : FileView) (directory : String) (p : RawField) : List String :=
  let es := Pattern.ofChars p
  match v.tree.lookup v.cwd (if directory = "" then "." else directory) with
  | .ok (place, .directory) =>
    let hidden := if (p.head?.any (·.char == '.')) then [".", ".."] else []
    ((hidden ++ v.tree.children place).map Text.byteText).filter fun name =>
      (!name.startsWith "." || p.head?.any (·.char == '.')) && Pattern.«matches» es name.toList
  | _ => []

/-- Whether a path leads to something. -/
def isThere (v : FileView) (path : String) : Bool :=
  (v.tree.lookup v.cwd (Text.ofByteText path)).toBool

/-- The paths that the rest of a pattern stands for below a path. -/
def matchingPaths (v : FileView) (start : String) : List RawField → List String
  | [] => [start]
  | [last] =>
    if Pattern.isSpecial (Pattern.ofChars last) then
      (matchingNames v (Text.ofByteText start) last).map (start ++ ·)
    else if isThere v (start ++ fieldText last) then [start ++ fieldText last] else []
  | p :: rest =>
    let next := if Pattern.isSpecial (Pattern.ofChars p) then
        (matchingNames v (Text.ofByteText start) p).map (start ++ ·)
      else [start ++ fieldText p]
    next.flatMap fun path => matchingPaths v (path ++ "/") rest

/-- The paths that a field stands for, or the field itself when there is none. -/
def paths (v : FileView) (f : RawField) : List String :=
  if Pattern.isSpecial (Pattern.ofChars f) then
    match (matchingPaths v "" (components f)).mergeSort fun a b => decide (a ≤ b) with
    | [] => [fieldText f]
    | found => found
  else [fieldText f]

/-- A word with the home directory in place of a tilde at its start. -/
def withHome (word : Word) (m : Machine) : Word :=
  match word with
  | .literal text false :: rest =>
    match text.toList, m.valueOf? "HOME" with
    | ['~'], some home => if rest.isEmpty then [.literal home true] else word
    | '~' :: '/' :: path, some home => .literal home true :: .literal (.ofList ('/' :: path)) false :: rest
    | _, _ => word
  | _ => word

/-- The fields of a word. -/
def fields (substitute : Substitute) (word : Word) (m : Machine) : List String × Machine :=
  let (pieces, m) := parts substitute (withHome word m) m
  if !m.isRunning then ([], m)
  else
    let found := split m.fieldSeparators [] false false pieces
    (if m.hasOption 'f' then found.map fieldText else found.flatMap (paths m.view), m)

/-- The fields of words in a row. -/
def allFields (substitute : Substitute) : List Word → Machine → List String × Machine
  | [], m => ([], m)
  | word :: rest, m =>
    let (first, m) := fields substitute word m
    if !m.isRunning then ([], m)
    else
      let (more, m) := allFields substitute rest m
      (first ++ more, m)

/-- The text of a word that is not split. -/
def single (substitute : Substitute) (word : Word) (m : Machine) : String × Machine :=
  let (pieces, m) := parts substitute (withHome word m) m
  (text pieces, m)

/-- The pattern of a word. -/
def wordPattern (substitute : Substitute) (word : Word) (m : Machine) :
    List Pattern.Element × Machine :=
  let (pieces, m) := parts substitute (withHome word m) m
  (pattern pieces, m)

end Expansion

end ScriptHost.Shell
