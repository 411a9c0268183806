import ScriptHost.Shell.Regex
import ScriptHost.Shell.Tool.Files

/-!
# Tools for texts

What `wc`, `head`, `sort` and `grep` do.
-/

namespace ScriptHost.Shell.Tool

/-- The number of words in a text. -/
def wordCount : Bool → List Char → Nat
  | _, [] => 0
  | inWord, c :: rest =>
    let blank := c == ' ' || ('\t' ≤ c && c ≤ '\r')
    (if !blank && !inWord then 1 else 0) + wordCount (!blank) rest

/-- A number filled with blanks from the left. -/
def alignRight (width n : Nat) : String :=
  let digits := toString n
  .ofList (List.replicate (width - digits.length) ' ') ++ digits

/-- Count lines, words and bytes. -/
def wc : Tool := fun argv m =>
  let name := argv.headD "wc"
  match flags ['l', 'w', 'c', 'm', 'L'] (argv.drop 1) with
  | .error option => badOption name option 1 m
  | .ok (options, operands) =>
    let options := if options.isEmpty then ['l', 'w', 'c'] else options
    let chosen := ['l', 'w', 'm', 'c', 'L'].filter options.contains
    let counts (data : ByteArray) : List Nat :=
      let cs := Text.charsOfBytes data
      chosen.map fun
        | 'l' => cs.count '\n'
        | 'w' => wordCount false cs
        | 'L' => ((linesOf (textOf data)).map String.length).foldl max 0
        | _ => data.size
    let paths := if operands.isEmpty then ["-"] else operands
    let (m, rows) := paths.foldl (fun (m, rows) path =>
      match readInput path m with
      | (.error fault, m) =>
        let m := report name s!"{path}: {fault.text}" 1 m
        (m, if fault = .isDirectory then rows ++ [(path, counts .empty)] else rows)
      | (.ok data, m) => (m, rows ++ [(path, counts data)])) (m.withStatus 0, [])
    let sizes := paths.map fun path =>
      match lookup m path with
      | .ok (_, .file content) => some content.size
      | _ => none
    let width := if paths.length = 1 && chosen.length = 1 then 1
      else if sizes.any Option.isNone then 7
      else (toString ((sizes.map (·.getD 0)).foldr (· + ·) 0)).length
    let total := rows.foldl (fun sums (_, row) => sums.zipWith (· + ·) row) (chosen.map fun _ => 0)
    let rows := if paths.length > 1 then rows ++ [("total", total)] else rows
    m.print 1 (.join (rows.map fun (path, row) =>
      " ".intercalate (row.map (alignRight width)) ++ (if operands.isEmpty then "" else " " ++ path)
        ++ "\n"))

/-- A text with its line end, if it lacks one. -/
def completed (line : String) : String := line ++ "\n"

/-- The first lines of a text, with the line ends they have. -/
def firstLines (n : Nat) (text : String) : String :=
  let lines := linesOf text
  if n ≥ lines.length then text else .join ((lines.take n).map completed)

/-- How much of a text is printed: a number of lines or bytes, or all but a number at its end. -/
structure Extent where
  count : Nat
  bytes : Bool
  fromEnd : Bool

/-- The part of a text that is printed. -/
def Extent.part (e : Extent) (text : String) : String :=
  let total := if e.bytes then text.length else (linesOf text).length
  let n := if e.fromEnd then total - e.count else e.count
  if e.bytes then .ofList (text.toList.take n) else firstLines n text

/-- The extent that a number stands for, which may have a unit. -/
def extent? (bytes : Bool) (s : String) : Option Extent :=
  let fromEnd := s.startsWith "-"
  let cs := if fromEnd then s.toList.drop 1 else s.toList
  let digits := cs.takeWhile Char.isDigit
  let unit? : Option Nat := match String.ofList (cs.drop digits.length) with
    | "" => some 1
    | "b" => some 512
    | "kB" => some 1000
    | "k" | "K" => some 1024
    | "MB" => some 1000000
    | "M" => some 1048576
    | _ => none
  match (String.ofList digits).toNat?, unit? with
  | some n, some unit => some ⟨n * unit, bytes, fromEnd⟩
  | _, _ => none

/-- What is wrong with the arguments of `head`. -/
inductive HeadFault where
  | badCount (bytes : Bool) (text : String)
  | badOption (option : String)
  | missingCount (letter : Char)

/-- What `head` was asked to do: how much is printed, whether names are shown, and the operands. -/
structure HeadRequest where
  extent : Extent
  titled : Option Bool
  operands : List String

/-- The options of `head` after those that were read. -/
def headOptions : Nat → List String → HeadRequest → Except HeadFault HeadRequest
  | 0, _, r | _, [], r => .ok r
  | _, "--" :: rest, r => .ok { r with operands := r.operands ++ rest }
  | fuel + 1, arg :: rest, r =>
    let withCount (bytes : Bool) (text : String) (rest : List String) : Except HeadFault HeadRequest :=
      match extent? bytes text with
      | some extent => headOptions fuel rest { r with extent }
      | none => .error (.badCount bytes text)
    match arg.toList with
    | '-' :: c :: more =>
      if c == 'n' || c == 'c' then
        if !more.isEmpty then withCount (c == 'c') (.ofList more) rest
        else match rest with
          | text :: rest => withCount (c == 'c') text rest
          | [] => .error (.missingCount c)
      else if c.isDigit then withCount false (.ofList (c :: more)) rest
      else if c == 'q' || c == 'v' then
        let r := { r with titled := some (c == 'v') }
        headOptions fuel (if more.isEmpty then rest else .ofList ('-' :: more) :: rest) r
      else .error (.badOption (if c == '-' then arg else .singleton c))
    | _ => headOptions fuel rest { r with operands := r.operands ++ [arg] }

/-- Print the first lines of files. -/
def head : Tool := fun argv m =>
  let name := argv.headD "head"
  let length := (argv.map String.length).foldr (· + ·) 0
  match headOptions (length + argv.length) (argv.drop 1) ⟨⟨10, false, false⟩, none, []⟩ with
  | .error (.badCount bytes text) =>
    report name ("invalid number of " ++ (if bytes then "bytes: " else "lines: ") ++ quote text) 1 m
  | .error (.badOption option) => badOption name option 1 m
  | .error (.missingCount letter) =>
    report name s!"option requires an argument -- '{letter}'\nTry '{name} --help' for more information." 1 m
  | .ok r =>
    let paths := if r.operands.isEmpty then ["-"] else r.operands
    (paths.foldl (fun (m, first) path =>
      match readInput path m with
      | (.error .isDirectory, m) =>
        (report name s!"error reading {quote path}: {FileFault.isDirectory.text}" 1 m, first)
      | (.error fault, m) =>
        (report name s!"cannot open {quote path} for reading: {fault.text}" 1 m, first)
      | (.ok data, m) =>
        let shown := if path == "-" then "standard input" else path
        let title := if r.titled.getD (paths.length > 1) then
            (if first then "" else "\n") ++ s!"==> {shown} <==\n"
          else ""
        (m.print 1 (title ++ r.extent.part (textOf data)), false)) (m.withStatus 0, true)).1

/-- The number at the start of a line, for sorting. -/
def leadingNumber (line : String) : Int × List Char :=
  let cs := line.toList.dropWhile fun c => c == ' ' || c == '\t'
  let (negative, cs) := match cs with
    | '-' :: rest => (true, rest)
    | cs => (false, cs)
  let whole := cs.takeWhile Char.isDigit
  let fraction := match cs.drop whole.length with
    | '.' :: rest => rest.takeWhile Char.isDigit
    | _ => []
  let n : Nat := whole.foldl (fun n c => 10 * n + (c.toNat - '0'.toNat)) 0
  (if negative then -(n : Int) else n, fraction)

/-- Whether a line comes before or beside another by the numbers they start with. -/
def numberLe (a b : String) : Bool :=
  let (m, f) := leadingNumber a
  let (n, g) := leadingNumber b
  m < n || (m = n && decide (String.ofList f ≤ String.ofList g))

/-- A part of a line to sort by: its first field and character and its last ones, counted from one; the
last character zero means the end of the field. -/
structure SortKey where
  firstField : Nat
  firstChar : Nat
  last : Option (Nat × Nat)
  options : List Char

/-- The fields of a line: separated by a character, or each with the blanks before it. -/
def sortFields (separator : Option Char) (line : String) : List (List Char) :=
  match separator with
  | some c => (line.splitOn (.singleton c)).map String.toList
  | none =>
    let isBlank (c : Char) : Bool := c == ' ' || c == '\t'
    -- A field starts at a blank that follows something else.
    let rec go (current : List Char) : List Char → List (List Char)
      | [] => [current.reverse]
      | c :: rest =>
        if isBlank c && current.any (fun d => !isBlank d) then current.reverse :: go [c] rest
        else go (c :: current) rest
    go [] line.toList

/-- The part of a line that a key stands for. -/
def SortKey.part (key : SortKey) (separator : Option Char) (line : String) : String :=
  let fields := sortFields separator line
  let gap := if separator.isSome then 1 else 0
  let startOf (k : Nat) : Nat := ((fields.take k).map (·.length + gap)).foldr (· + ·) 0
  let blanks (k : Nat) : Nat :=
    if key.options.contains 'b' then ((fields.getD k []).takeWhile fun c => c == ' ' || c == '\t').length else 0
  let start := startOf (key.firstField - 1) + blanks (key.firstField - 1) + (key.firstChar - 1)
  let stop := match key.last with
    | none => line.length
    | some (field, 0) => startOf (field - 1) + (fields.getD (field - 1) []).length
    | some (field, char) => startOf (field - 1) + blanks (field - 1) + char
  .ofList ((line.toList.take stop).drop start)

/-- Whether a text comes before or beside another, under the options of `sort`. -/
def textLe (options : List Char) (a b : String) : Bool :=
  let fold (s : String) : String :=
    let s := if options.contains 'b' then String.ofList (s.toList.dropWhile fun c => c == ' ' || c == '\t') else s
    let s := if options.contains 'd' then
        String.ofList (s.toList.filter fun c => c.isAlphanum || c == ' ' || c == '\t') else s
    if options.contains 'f' then s.map Char.toUpper else s
  let le (a b : String) : Bool :=
    if options.contains 'n' then numberLe a b else decide (fold a ≤ fold b)
  if options.contains 'r' then le b a else le a b

/-- Whether a line comes before or beside another, by the keys in order; equal lines are told apart by
their whole text unless an option says otherwise. -/
def lineLe (options : List Char) (keys : List SortKey) (separator : Option Char) (a b : String) : Bool :=
  let orders : List (String → String → Bool) := if keys.isEmpty then [textLe options]
    else keys.map fun key =>
      let own := key.options.filter (· != 'b')
      let letters := if own.isEmpty then options ++ key.options else key.options
      fun a b => textLe letters ({ key with options := letters }.part separator a)
        ({ key with options := letters }.part separator b)
  match orders.find? fun le => !(le a b && le b a) with
  | some le => le a b
  | none =>
    if options.contains 's' || options.contains 'u' then true
    else if options.contains 'r' then decide (b ≤ a) else decide (a ≤ b)

/-- What `sort` was asked to do. -/
structure SortRequest where
  options : List Char
  keys : List SortKey
  separator : Option Char
  operands : List String

/-- A position in a key: the field, the character if it is given, and the letters behind it. -/
def keyPosition? (text : String) : Option (Nat × Option Nat × List Char) := do
  let cs := text.toList
  let digits := cs.takeWhile Char.isDigit
  let field ← (String.ofList digits).toNat?
  match cs.drop digits.length with
  | '.' :: rest =>
    let more := rest.takeWhile Char.isDigit
    return (field, (String.ofList more).toNat?, rest.drop more.length)
  | rest => return (field, none, rest)

/-- The key that a text describes. -/
def sortKey? (text : String) : Option SortKey := do
  match text.splitOn "," with
  | [first] =>
    let (field, char, letters) ← keyPosition? first
    return ⟨field, char.getD 1, none, letters⟩
  | first :: last :: _ =>
    let (field, char, letters) ← keyPosition? first
    let (lastField, lastChar, more) ← keyPosition? last
    return ⟨field, char.getD 1, some (lastField, lastChar.getD 0), letters ++ more⟩
  | [] => none

/-- The options of `sort` after those that were read. -/
def sortOptions : Nat → List String → SortRequest → Except String SortRequest
  | 0, _, r | _, [], r => .ok r
  | _, "--" :: rest, r => .ok { r with operands := r.operands ++ rest }
  | fuel + 1, arg :: rest, r =>
    match arg.toList with
    | '-' :: c :: more =>
      if c == 'k' || c == 't' then
        let (value, rest) := if more.isEmpty then (rest.headD "", rest.drop 1) else (String.ofList more, rest)
        if c == 't' then sortOptions fuel rest { r with separator := value.toList.head? }
        else match sortKey? value with
          | some key => sortOptions fuel rest { r with keys := r.keys ++ [key] }
          | none => .error (.singleton c)
      else if "rnufbsd".toList.contains c then
        sortOptions fuel (if more.isEmpty then rest else .ofList ('-' :: more) :: rest)
          { r with options := c :: r.options }
      else .error (if c == '-' then arg else .singleton c)
    | _ => sortOptions fuel rest { r with operands := r.operands ++ [arg] }

/-- Leave out lines that are equal to the one before under an order. -/
def distinct (le : String → String → Bool) : List String → List String
  | a :: rest =>
    match distinct le rest with
    | b :: more => if le a b && le b a then a :: more else a :: b :: more
    | [] => [a]
  | [] => []

/-- Sort the lines of files. -/
def sort : Tool := fun argv m =>
  let name := argv.headD "sort"
  let length := (argv.map String.length).foldr (· + ·) 0
  match sortOptions (length + argv.length) (argv.drop 1) ⟨[], [], none, []⟩ with
  | .error option => badOption name option 2 m
  | .ok r =>
    let paths := if r.operands.isEmpty then ["-"] else r.operands
    let (m, lines, failed) := paths.foldl (fun (m, lines, failed) path =>
      if failed then (m, lines, failed)
      else match readInput path m with
        | (.error .isDirectory, m) =>
          (report name s!"read failed: {path}: {FileFault.isDirectory.text}" 2 m, lines, true)
        | (.error fault, m) => (report name s!"cannot read: {path}: {fault.text}" 2 m, lines, true)
        | (.ok data, m) => (m, lines ++ linesOf (textOf data), false)) (m.withStatus 0, [], false)
    if failed then m
    else
      let le := lineLe r.options r.keys r.separator
      let sorted := lines.mergeSort le
      let sorted := if r.options.contains 'u' then distinct le sorted else sorted
      m.print 1 (.join (sorted.map completed))

/-- What `grep` was asked to do. -/
structure Search where
  options : List Char
  patterns : List String
  limit : Option Nat
  operands : List String

/-- The options of `grep`. -/
def searchOptions : List String → Except String Search
  | [] => .ok ⟨[], [], none, []⟩
  | "--" :: rest => .ok ⟨[], [], none, rest⟩
  | "-e" :: p :: rest => (searchOptions rest).map fun s => { s with patterns := p :: s.patterns }
  | "-m" :: n :: rest => (searchOptions rest).map fun s => { s with limit := n.toNat? }
  | arg :: rest =>
    if arg.startsWith "-" && arg.length > 1 then
      let letters := arg.toList.drop 1
      match unknownOption? "nqvicEFlLxowshHG".toList arg with
      | some option => .error option
      | none => (searchOptions rest).map fun s => { s with options := letters ++ s.options }
    else (searchOptions rest).map fun s => { s with operands := arg :: s.operands }

/-- The matches in a line, from left to right and without overlap. -/
def allMatches (e : Regex) (ignoreCase : Bool) : Nat → Regex.Position → List (List Char)
  | 0, _ => []
  | fuel + 1, p =>
    match Regex.search? e ignoreCase (p.after.length + 1) p with
    | none => []
    | some (start, found) =>
      let text := start.after.take (start.after.length - found.ends.after.length)
      if text.isEmpty then
        if start.after.isEmpty then [] else allMatches e ignoreCase fuel (start.forward 1)
      else text :: allMatches e ignoreCase fuel found.ends

/-- The expression that patterns make up under the options of `grep`. -/
def searchRegex? (s : Search) : Option Regex :=
  let ofPattern (p : String) : Option Regex :=
    if s.options.contains 'F' then some (Regex.ofText p.toList)
    else Regex.parse? (if s.options.contains 'E' then .extended else .basic) p.toList
  let around (e : Regex) : Regex :=
    if s.options.contains 'x' then .sequence .lineStart (.sequence e .lineEnd)
    else if s.options.contains 'w' then .sequence .wordStart (.sequence e .wordEnd) else e
  match s.patterns with
  | [] => none
  | p :: rest => do
    let first ← ofPattern p
    let e ← rest.foldlM (fun (e : Regex) p => do return Regex.choice e (← ofPattern p)) first
    return around e

/-- Print the lines of files in which a pattern is found. -/
def grep : Tool := fun argv m =>
  let name := argv.headD "grep"
  match searchOptions (argv.drop 1) with
  | .error option =>
    let fault := if option.startsWith "--" then s!"unrecognized option '{option}'"
      else s!"invalid option -- '{option}'"
    (m.print 2 (s!"{name}: {fault}\nUsage: {name} [OPTION]... PATTERNS [FILE]...\n"
      ++ s!"Try '{name} --help' for more information.\n")).withStatus 2
  | .ok s =>
    let s := if s.patterns.isEmpty then
        { s with patterns := s.operands.take 1, operands := s.operands.drop 1 } else s
    if s.patterns.isEmpty then
      (m.print 2 (s!"Usage: {name} [OPTION]... PATTERNS [FILE]...\n"
        ++ s!"Try '{name} --help' for more information.\n")).withStatus 2
    else
      let s := { s with patterns := s.patterns.flatMap (·.splitOn "\n") }
      match searchRegex? s with
      | none => report name "Invalid regular expression" 2 m
      | some e =>
        let has (c : Char) : Bool := s.options.contains c
        let paths := if s.operands.isEmpty then ["-"] else s.operands
        let named := (paths.length > 1 || has 'H') && !has 'h'
        let ignoreCase := has 'i'
        let title (path : String) : String :=
          if named then (if path == "-" then "(standard input)" else path) ++ ":" else ""
        let (m, anyFound, anyFault) := paths.foldl (fun (m, anyFound, anyFault) path =>
          match readInput path m with
          | (.error fault, m) =>
            (if has 's' then m
              else m.print 2 s!"{name}: {path}: {fault.text}\n", anyFound, true)
          | (.ok data, m) =>
            let lines := (linesOf (textOf data)).zipIdx 1
            let hits := lines.filter fun (line, _) =>
              (Regex.find? e ignoreCase line.toList).isSome != has 'v'
            let hits := match s.limit with
              | some n => hits.take n
              | none => hits
            let shown := if has 'q' then ""
              else if has 'c' then title path ++ toString hits.length ++ "\n"
              else if has 'l' then
                if hits.isEmpty then "" else (if path == "-" then "(standard input)" else path) ++ "\n"
              else if has 'L' then
                if hits.isEmpty then (if path == "-" then "(standard input)" else path) ++ "\n" else ""
              else .join (hits.map fun (line, n) =>
                let lead := title path ++ (if has 'n' then toString n ++ ":" else "")
                if has 'o' then
                  if has 'v' then ""
                  else .join ((allMatches e ignoreCase (line.length + 1) ⟨[], line.toList⟩).map fun text =>
                    lead ++ String.ofList text ++ "\n")
                else lead ++ line ++ "\n")
            (m.print 1 shown, anyFound || !hits.isEmpty, anyFault)) (m, false, false)
        m.withStatus (if anyFound && (has 'q' || !anyFault) then 0 else if anyFault then 2 else 1)

end ScriptHost.Shell.Tool
