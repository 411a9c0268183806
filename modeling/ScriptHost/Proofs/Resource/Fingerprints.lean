import ScriptHost.Resource.Basic

/-!
# The digits of fingerprints

A digest has 32 bytes, whatever was hashed, so that the short form of a fingerprint always has
twelve characters, all of them hexadecimal digits: `length_short` and `not_mem_short`. Different
contents may share the twelve digits even where their digests differ; of contents that are
`ShortlyDistinguishable` no two do.
-/

namespace ScriptHost

/-! ## Digests -/

namespace Digest

theorem length_bigEndian (value n : Nat) : (Sha256.bigEndian value n).length = n := by
  induction n with
  | zero => rfl
  | succ n ih => rw [Sha256.bigEndian, List.length_cons, ih]

theorem size_sha256 (data : ByteArray) : (sha256 data).size = 32 := by
  simp [sha256, Sha256.words, ← ByteArray.size_data, length_bigEndian]

end Digest

/-! ## Hexadecimal digits -/

namespace Text

/-- The bytes still to be read are put behind those that have been. -/
theorem length_toList_loop (data : ByteArray) (i : Nat) (read : List UInt8) :
    (ByteArray.toList.loop data i read).length = read.length + (data.size - i) := by
  fun_induction ByteArray.toList.loop data i read with
  | case1 i read hlt ih =>
      rw [ih, List.length_cons]
      omega
  | case2 i read hle =>
      rw [List.length_reverse]
      omega

theorem length_hexOfBytes (data : ByteArray) :
    (hexOfBytes data).toList.length = 2 * data.size := by
  have hpairs (bytes : List UInt8) : (bytes.flatMap hexOfByte).length = 2 * bytes.length := by
    induction bytes with
    | nil => rfl
    | cons b bytes ih =>
        rw [List.flatMap_cons, List.length_append, ih, hexOfByte, List.length_cons]
        simp only [List.length_cons, List.length_nil]
        omega
  rw [hexOfBytes, String.toList_ofList, hpairs, ByteArray.toList, length_toList_loop,
    List.length_nil, Nat.zero_add, Nat.sub_zero]

/-- A character that is no digit is not in the digits of bytes. -/
theorem not_mem_hexOfBytes {c : Char} (h : ∀ n < 16, hexDigit n ≠ c) (data : ByteArray) :
    c ∉ (hexOfBytes data).toList := by
  intro hmem
  rw [hexOfBytes, String.toList_ofList, List.mem_flatMap] at hmem
  obtain ⟨b, -, hb⟩ := hmem
  have hlt := b.toNat_lt
  rw [hexOfByte, List.mem_cons, List.mem_singleton] at hb
  rcases hb with hhigh | hlow
  · exact h (b.toNat / 16) (by omega) hhigh.symm
  · exact h (b.toNat % 16) (by omega) hlow.symm

end Text

/-! ## Short fingerprints -/

namespace Fingerprint

theorem length_short (content : ByteArray) : (of content).short.toList.length = 12 := by
  have hlength := Text.length_hexOfBytes (Digest.sha256 content)
  rw [Digest.size_sha256] at hlength
  rw [short, String.toList_ofList, List.length_take, of, hlength]
  rfl

/-- A character that is no hexadecimal digit is not in a short fingerprint. -/
theorem not_mem_short {c : Char} (h : ∀ n < 16, Text.hexDigit n ≠ c) (content : ByteArray) :
    c ∉ (of content).short.toList := by
  rw [short, String.toList_ofList]
  exact fun hmem => Text.not_mem_hexOfBytes h _ (List.mem_of_mem_take hmem)

end Fingerprint

/-- No two of some contents have the same short fingerprint. -/
def ShortlyDistinguishable (contents : List ByteArray) : Prop :=
  ∀ a ∈ contents, ∀ b ∈ contents, (Fingerprint.of a).short = (Fingerprint.of b).short → a = b

theorem shortlyDistinguishable_pair {a b : ByteArray} : ShortlyDistinguishable [a, b] ↔
    ((Fingerprint.of a).short = (Fingerprint.of b).short → a = b) := by
  constructor
  · intro h
    exact h a List.mem_cons_self b (List.mem_cons_of_mem a List.mem_cons_self)
  · intro h x hx y hy hxy
    have hcases : ∀ z ∈ [a, b], z = a ∨ z = b := by simp
    rcases hcases x hx with rfl | rfl <;> rcases hcases y hy with rfl | rfl
    · rfl
    · exact h hxy
    · exact (h hxy.symm).symm
    · rfl

end ScriptHost
