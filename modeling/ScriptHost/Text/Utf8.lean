/-!
# Text made from bytes

Bytes that are not UTF-8 still yield a text: every maximal part that begins like an encoded
character but does not complete one becomes a single replacement character U+FFFD.
-/

namespace ScriptHost.Text

/-- The character that stands for bytes that encode none. -/
def replacement : Char := '\ufffd'

/-- The bytes that may follow a lead byte: the bounds of the second byte and how many plain
continuation bytes come after it. A byte that leads no multi-byte character has none. -/
def continuations? (lead : UInt8) : Option ((UInt8 × UInt8) × Nat) :=
  if 0xC2 ≤ lead ∧ lead ≤ 0xDF then some ((0x80, 0xBF), 0)
  else if lead = 0xE0 then some ((0xA0, 0xBF), 1)
  else if lead = 0xED then some ((0x80, 0x9F), 1)
  else if 0xE1 ≤ lead ∧ lead ≤ 0xEF then some ((0x80, 0xBF), 1)
  else if lead = 0xF0 then some ((0x90, 0xBF), 2)
  else if 0xF1 ≤ lead ∧ lead ≤ 0xF3 then some ((0x80, 0xBF), 2)
  else if lead = 0xF4 then some ((0x80, 0x8F), 2)
  else none

/-- How many of the given bytes continue a character whose second byte lies within the bounds and
which has `more` further bytes. -/
def continued (bounds : UInt8 × UInt8) (more : Nat) : List UInt8 → Nat
  | [] => 0
  | b :: rest =>
    if bounds.1 ≤ b ∧ b ≤ bounds.2 then
      match more with
      | 0 => 1
      | more + 1 => continued (0x80, 0xBF) more rest + 1
    else 0

/-- The code point of a lead byte's payload followed by six bits of each continuation byte. -/
def codePoint (lead : UInt8) (tail : List UInt8) : Nat :=
  let width := tail.length
  let payload := lead.toNat % Nat.pow 2 (6 - width)
  tail.foldl (fun n b => 64 * n + b.toNat % 64) payload

/-- The first character of a non-empty byte sequence and the bytes after it. -/
def decodeStep (lead : UInt8) (rest : List UInt8) : Char × List UInt8 :=
  if lead < 0x80 then (Char.ofNat lead.toNat, rest)
  else
    match continuations? lead with
    | none => (replacement, rest)
    | some (bounds, more) =>
      let taken := continued bounds more rest
      if taken = more + 1 then (Char.ofNat (codePoint lead (rest.take taken)), rest.drop taken)
      else (replacement, rest.drop taken)

/-- Decoding a character never returns more bytes than were left. -/
theorem length_decodeStep_le (lead : UInt8) (rest : List UInt8) :
    (decodeStep lead rest).2.length ≤ rest.length := by
  unfold decodeStep
  split
  · simp
  · split
    · simp
    · dsimp only
      split <;> simp

/-- The characters of a byte sequence, the ones read so far given in reverse. -/
def decodeFrom (read : List Char) : List UInt8 → List Char
  | [] => read.reverse
  | lead :: rest => decodeFrom ((decodeStep lead rest).1 :: read) (decodeStep lead rest).2
termination_by bytes => bytes.length
decreasing_by
  have := length_decodeStep_le lead rest
  simp only [List.length_cons]
  omega

/-- The text of a byte sequence, with replacement characters for what is not UTF-8. -/
def lossy (data : ByteArray) : String :=
  match String.fromUTF8? data with
  | some s => s
  | none => .ofList (decodeFrom [] data.toList)

end ScriptHost.Text
