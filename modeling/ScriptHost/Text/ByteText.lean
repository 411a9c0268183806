import ScriptHost.Text.Utf8

/-!
# Bytes as text

A text in which every character stands for one byte, the byte of the same number. Programs that count
and compare bytes work on such texts.
-/

namespace ScriptHost.Text

/-- Every byte as the character of its number. -/
def charsOfBytes (data : ByteArray) : List Char :=
  data.toList.map fun b => Char.ofNat b.toNat

/-- Every character as the byte of its number. -/
def bytesOfChars (cs : List Char) : ByteArray :=
  cs.foldl (fun data c => data.push c.toNat.toUInt8) (.emptyWithCapacity cs.length)

/-- The bytes of a string, as characters. -/
def byteText (s : String) : String :=
  if s.toList.all (·.toNat < 128) then s else .ofList (charsOfBytes s.toUTF8)

/-- The bytes that a text of bytes stands for. -/
def bytesOfText (s : String) : ByteArray :=
  bytesOfChars s.toList

/-- The string whose bytes a text of bytes stands for. -/
def ofByteText (s : String) : String :=
  if s.toList.all (·.toNat < 128) then s else lossy (bytesOfText s)

end ScriptHost.Text
