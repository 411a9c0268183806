import ScriptHost.Text.Blank

/-!
# Command lines

A command line is split into words as a POSIX shell splits a simple command: blanks separate words,
single quotes keep their content, double quotes allow some escapes, and a backslash outside quotes
keeps the next character. Nothing is expanded. `CommandLine.split` names the fault of every line
that has no words or an unfinished one.
-/

namespace ScriptHost.CommandLine

/-- Why a command line cannot be split. -/
inductive Fault where
  /-- A quote is never closed. -/
  | unterminatedQuote (quote : Char)
  /-- The line ends in a backslash that escapes nothing. -/
  | trailingEscape
  /-- The line has no words. -/
  | empty
  deriving DecidableEq, Repr

/-- The wording of a fault. -/
def Fault.message : Fault → String
  | unterminatedQuote quote => s!"unterminated {quote} quote"
  | trailingEscape => "trailing escape character"
  | empty => "empty command line"

/-- Where the scanner stands: outside quotes, after a backslash outside quotes, inside single
quotes, inside double quotes, or after a backslash inside double quotes. -/
inductive Mode where
  | plain
  | escaped
  | single
  | double
  | doubleEscaped
  deriving DecidableEq, Repr

/-- The fault of a line that ends in a mode; a line may end outside quotes only. -/
def Mode.faultAtEnd? : Mode → Option Fault
  | plain => none
  | escaped => some .trailingEscape
  | single => some (.unterminatedQuote '\'')
  | double | doubleEscaped => some (.unterminatedQuote '"')

/-- The characters that a backslash inside double quotes hides. -/
def isDoubleQuoteEscape (c : Char) : Bool :=
  c == '"' || c == '\\' || c == '$' || c == '`'

/-- Split the rest of a line, standing in a mode. The word being read is given in reverse; there is
none between words, and an empty one after empty quotes. -/
def scan (mode : Mode) (word : Option (List Char)) : List Char → Except Fault (List (List Char))
  | [] =>
    match mode.faultAtEnd? with
    | some fault => .error fault
    | none => .ok (word.toList.map List.reverse)
  | c :: rest =>
    let chars := word.getD []
    match mode with
    | .plain =>
      if c = '\'' then scan .single (some chars) rest
      else if c = '"' then scan .double (some chars) rest
      else if c = '\\' then scan .escaped word rest
      else if Text.isBlank c then
        match word with
        | none => scan .plain none rest
        | some read => (scan .plain none rest).map (read.reverse :: ·)
      else scan .plain (some (c :: chars)) rest
    | .escaped => scan .plain (some (c :: chars)) rest
    | .single =>
      if c = '\'' then scan .plain (some chars) rest else scan .single (some (c :: chars)) rest
    | .double =>
      if c = '"' then scan .plain (some chars) rest
      else if c = '\\' then scan .doubleEscaped (some chars) rest
      else scan .double (some (c :: chars)) rest
    | .doubleEscaped =>
      if isDoubleQuoteEscape c then scan .double (some (c :: chars)) rest
      else scan .double (some (c :: '\\' :: chars)) rest

/-- The words of a line of characters; a line without words is a fault. -/
def splitChars (line : List Char) : Except Fault (List (List Char)) :=
  match scan .plain none line with
  | .ok [] => .error .empty
  | result => result

/-- The words of a command line. -/
def split (line : String) : Except Fault (List String) :=
  (splitChars line.toList).map (·.map String.ofList)

end ScriptHost.CommandLine
