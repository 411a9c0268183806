/-!
# SHA-256

The digest of a byte sequence: pad to whole blocks of 64 bytes, expand each block to 64 words,
and mix the words into eight chaining values.
-/

namespace ScriptHost.Digest

/-- The eight chaining values. -/
structure Chain where
  a : UInt32
  b : UInt32
  c : UInt32
  d : UInt32
  e : UInt32
  f : UInt32
  g : UInt32
  h : UInt32

namespace Sha256

/-- The round constants: the first 32 bits of the fractional parts of the cube roots of the first
64 primes. -/
def roundConstants : Array UInt32 := #[
  0x428a2f98, 0x71374491, 0xb5c0fbcf, 0xe9b5dba5, 0x3956c25b, 0x59f111f1, 0x923f82a4, 0xab1c5ed5,
  0xd807aa98, 0x12835b01, 0x243185be, 0x550c7dc3, 0x72be5d74, 0x80deb1fe, 0x9bdc06a7, 0xc19bf174,
  0xe49b69c1, 0xefbe4786, 0x0fc19dc6, 0x240ca1cc, 0x2de92c6f, 0x4a7484aa, 0x5cb0a9dc, 0x76f988da,
  0x983e5152, 0xa831c66d, 0xb00327c8, 0xbf597fc7, 0xc6e00bf3, 0xd5a79147, 0x06ca6351, 0x14292967,
  0x27b70a85, 0x2e1b2138, 0x4d2c6dfc, 0x53380d13, 0x650a7354, 0x766a0abb, 0x81c2c92e, 0x92722c85,
  0xa2bfe8a1, 0xa81a664b, 0xc24b8b70, 0xc76c51a3, 0xd192e819, 0xd6990624, 0xf40e3585, 0x106aa070,
  0x19a4c116, 0x1e376c08, 0x2748774c, 0x34b0bcb5, 0x391c0cb3, 0x4ed8aa4a, 0x5b9cca4f, 0x682e6ff3,
  0x748f82ee, 0x78a5636f, 0x84c87814, 0x8cc70208, 0x90befffa, 0xa4506ceb, 0xbef9a3f7, 0xc67178f2]

/-- The starting chaining values: the first 32 bits of the fractional parts of the square roots of
the first eight primes. -/
def start : Chain :=
  ⟨0x6a09e667, 0xbb67ae85, 0x3c6ef372, 0xa54ff53a, 0x510e527f, 0x9b05688c, 0x1f83d9ab, 0x5be0cd19⟩

/-- Rotate a word right. -/
@[inline] def rotr (x n : UInt32) : UInt32 :=
  (x >>> n) ||| (x <<< (32 - n))

/-- The big-endian word at a byte position, reading zeros past the end. -/
@[inline] def wordAt (data : ByteArray) (i : Nat) : UInt32 :=
  ((data[i]?.getD 0).toUInt32 <<< 24) ||| ((data[i + 1]?.getD 0).toUInt32 <<< 16)
    ||| ((data[i + 2]?.getD 0).toUInt32 <<< 8) ||| (data[i + 3]?.getD 0).toUInt32

/-- The first sixteen words of the block at a position. -/
def blockWords (data : ByteArray) (pos : Nat) : Nat → Array UInt32 → Array UInt32
  | 0, words => words
  | n + 1, words => blockWords data (pos + 4) n (words.push (wordAt data pos))

/-- Append `n` further words of the message schedule. -/
def extend : Nat → Array UInt32 → Array UInt32
  | 0, words => words
  | n + 1, words =>
    let i := words.size
    let x := words[i - 15]?.getD 0
    let y := words[i - 2]?.getD 0
    let s0 := rotr x 7 ^^^ rotr x 18 ^^^ (x >>> 3)
    let s1 := rotr y 17 ^^^ rotr y 19 ^^^ (y >>> 10)
    extend n (words.push ((words[i - 16]?.getD 0) + s0 + (words[i - 7]?.getD 0) + s1))

/-- The last `n` of the 64 mixing rounds. -/
def rounds (words : Array UInt32) : Nat → (a b c d e f g h : UInt32) → Chain
  | 0, a, b, c, d, e, f, g, h => ⟨a, b, c, d, e, f, g, h⟩
  | n + 1, a, b, c, d, e, f, g, h =>
    let i := 63 - n
    let s1 := rotr e 6 ^^^ rotr e 11 ^^^ rotr e 25
    let choice := (e &&& f) ^^^ (~~~e &&& g)
    let t1 := h + s1 + choice + (roundConstants[i]?.getD 0) + (words[i]?.getD 0)
    let s0 := rotr a 2 ^^^ rotr a 13 ^^^ rotr a 22
    let majority := (a &&& b) ^^^ (a &&& c) ^^^ (b &&& c)
    rounds words n (t1 + (s0 + majority)) a b c (d + t1) e f g

/-- Mix the block at a position into the chain. -/
def compress (data : ByteArray) (pos : Nat) (s : Chain) : Chain :=
  let words := extend 48 (blockWords data pos 16 (Array.mkEmpty 64))
  let r := rounds words 64 s.a s.b s.c s.d s.e s.f s.g s.h
  ⟨s.a + r.a, s.b + r.b, s.c + r.c, s.d + r.d, s.e + r.e, s.f + r.f, s.g + r.g, s.h + r.h⟩

/-- Mix `n` blocks from a position on. -/
def compressAll (data : ByteArray) : Nat → (pos : Nat) → Chain → Chain
  | 0, _, s => s
  | n + 1, pos, s => compressAll data n (pos + 64) (compress data pos s)

/-- `n` zero bytes appended. -/
def pushZeros : Nat → ByteArray → ByteArray
  | 0, data => data
  | n + 1, data => pushZeros n (data.push 0)

/-- The big-endian bytes of the low `n` bytes of a number. -/
def bigEndian (value : Nat) : Nat → List UInt8
  | 0 => []
  | n + 1 => (value / Nat.pow 256 n % 256).toUInt8 :: bigEndian value n

/-- The message followed by a one bit, zeros up to eight bytes short of a whole block, and the
message's length in bits. -/
def pad (data : ByteArray) : ByteArray :=
  let size := data.size
  let zeros := (119 - size % 64) % 64
  (bigEndian (8 * size) 8).foldl ByteArray.push (pushZeros zeros (data.push 0x80))

/-- The words of a chain in order. -/
def words (s : Chain) : List UInt32 :=
  [s.a, s.b, s.c, s.d, s.e, s.f, s.g, s.h]

end Sha256

open Sha256 in
/-- The 32 digest bytes of a byte sequence. -/
def sha256 (data : ByteArray) : ByteArray :=
  let padded := pad data
  let final := compressAll padded (padded.size / 64) 0 start
  ⟨((words final).flatMap fun w => bigEndian w.toNat 4).toArray⟩

end ScriptHost.Digest
