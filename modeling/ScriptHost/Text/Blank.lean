/-!
# Blank characters

The characters that separate words and that trimming removes: the `White_Space` property of
Unicode. `Char.isWhitespace` knows only the ASCII ones among them.
-/

namespace ScriptHost.Text

/-- The inclusive code point ranges of the `White_Space` property. -/
def blankRanges : List (Nat × Nat) :=
  [(0x09, 0x0D), (0x20, 0x20), (0x85, 0x85), (0xA0, 0xA0), (0x1680, 0x1680), (0x2000, 0x200A),
    (0x2028, 0x2029), (0x202F, 0x202F), (0x205F, 0x205F), (0x3000, 0x3000)]

/-- A character is blank when it has the `White_Space` property. -/
def isBlank (c : Char) : Bool :=
  blankRanges.any fun range => range.1 ≤ c.toNat && c.toNat ≤ range.2

/-- The text without its leading blanks. -/
def trimStart (cs : List Char) : List Char :=
  cs.dropWhile isBlank

/-- The text without its trailing blanks. -/
def trimEnd (cs : List Char) : List Char :=
  (cs.reverse.dropWhile isBlank).reverse

/-- The text without its leading and trailing blanks. -/
def trim (cs : List Char) : List Char :=
  trimEnd (trimStart cs)

/-- A string without its leading and trailing blanks. -/
def trimmed (s : String) : String :=
  .ofList (trim s.toList)

/-- A string without its trailing blanks. -/
def trimmedEnd (s : String) : String :=
  .ofList (trimEnd s.toList)

end ScriptHost.Text
