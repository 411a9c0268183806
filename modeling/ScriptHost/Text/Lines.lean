/-!
# Lines of a text

A line ends at a line feed, or at the end of the text when something follows the last line feed.
A carriage return just before the line feed belongs to the line end; any other carriage return
is a character of its line.
-/

namespace ScriptHost.Text

/-- The lines of a text, given the characters already read of the current line in reverse. -/
def linesFrom (current : List Char) : List Char → List (List Char)
  | [] => if current.isEmpty then [] else [current.reverse]
  | '\n' :: rest =>
    (match current with
      | '\r' :: before => before.reverse
      | before => before.reverse) :: linesFrom [] rest
  | c :: rest => linesFrom (c :: current) rest

/-- The lines of a text, without their line ends. -/
def lines (cs : List Char) : List (List Char) :=
  linesFrom [] cs

/-- The lines of a string, without their line ends. -/
def linesOf (s : String) : List String :=
  (lines s.toList).map String.ofList

end ScriptHost.Text
