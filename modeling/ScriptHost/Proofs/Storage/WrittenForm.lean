import ScriptHost.Proofs.Text.ByteOrder
import ScriptHost.Storage.Database

/-!
# The written form of a database can be read

Every relation is read back from its written form: `read?_write`. `Ahead` says which bytes lie ahead
of a reader; a number, a chunk of bytes and the rows each have a lemma on reading them when their
written form lies ahead.
-/

namespace ScriptHost.Database

/-- Some bytes lie ahead of a position: they are what follows it. -/
def Ahead (bytes : ByteArray) (pos : Nat) (rest : List UInt8) : Prop :=
  ∃ before : List UInt8, bytes.data.toList = before ++ rest ∧ before.length = pos

namespace Ahead

variable {bytes : ByteArray} {pos : Nat} {rest : List UInt8}

/-- Behind the first of the bytes that lie ahead, the others do. -/
theorem drop {read : List UInt8} (h : Ahead bytes pos (read ++ rest)) :
    Ahead bytes (pos + read.length) rest := by
  obtain ⟨before, hbytes, rfl⟩ := h
  exact ⟨before ++ read, by rw [hbytes, List.append_assoc], List.length_append⟩

/-- The byte at a position is the first one that lies ahead. -/
theorem getElem? (h : Ahead bytes pos rest) : bytes[pos]? = rest.head? := by
  obtain ⟨before, hbytes, rfl⟩ := h
  have hget : bytes[before.length]? = bytes.data.toList[before.length]? := by
    simp [getElem?_def, ByteArray.getElem_eq_getElem_data]
  rw [hget, hbytes, List.getElem?_append_right (Nat.le_refl _), Nat.sub_self, List.head?_eq_getElem?]

/-- What lies ahead is the rest of the bytes. -/
theorem size_eq (h : Ahead bytes pos rest) : bytes.size = pos + rest.length := by
  obtain ⟨before, hbytes, rfl⟩ := h
  rw [← List.length_append, ← hbytes]
  rfl

/-- The bytes that lie ahead can be taken out. -/
theorem extract {chunk : ByteArray} (h : Ahead bytes pos (chunk.data.toList ++ rest)) :
    bytes.extract pos (pos + chunk.size) = chunk := by
  obtain ⟨before, hbytes, rfl⟩ := h
  apply ByteArray.ext
  apply Array.ext'
  have hsize : chunk.data.toList.length = chunk.size := rfl
  rw [ByteArray.data_extract, Array.toList_extract, List.extract_eq_take_drop, hbytes,
    List.drop_left, Nat.add_sub_cancel_left, ← hsize, List.take_left]

end Ahead

/-! ## Numbers -/

/-- The byte of a digit, which is not the colon, and the number it stands for. -/
theorem utf8EncodeChar_digit {c : Char} (hc : c.isDigit = true) :
    ∃ b : UInt8, String.utf8EncodeChar c = [b] ∧ b ≠ 0x3A ∧ (0x30 ≤ b ∧ b ≤ 0x39) ∧
      b.toNat - 0x30 = c.toNat - '0'.toNat := by
  have hrange : 48 ≤ c.toNat ∧ c.toNat ≤ 57 := by
    simpa [Char.isDigit, UInt32.le_iff_toNat_le] using hc
  have hb : (c.toNat.toUInt8).toNat = c.toNat := by
    rw [Nat.toUInt8_eq, UInt8.toNat_ofNat']
    omega
  refine ⟨c.toNat.toUInt8, ?_, ?_, ⟨?_, ?_⟩, ?_⟩
  · rw [String.utf8EncodeChar]
    exact if_pos (by rw [Char.toNat_val]; omega)
  · rw [Ne, ← UInt8.toNat_inj, hb]
    intro hcolon
    have hnat : c.toNat = 58 := hcolon
    omega
  · rw [UInt8.le_iff_toNat_le, hb]
    exact hrange.1
  · rw [UInt8.le_iff_toNat_le, hb]
    exact hrange.2
  · rw [hb]
    rfl

/-- The bytes of a written number: its digits and a colon. -/
theorem writeLength_toList (n : Nat) :
    (writeLength n).data.toList = (Nat.toDigits 10 n).flatMap String.utf8EncodeChar ++ [0x3A] := by
  have hbytes := Text.bytes_eq (toString n ++ ":")
  rw [Text.bytes] at hbytes
  rw [writeLength, hbytes]
  simp [Nat.toList_repr, show String.utf8EncodeChar ':' = [58] by decide]

variable {bytes : ByteArray} {fuel pos : Nat} {rest : List UInt8}

/-- There is one byte to a digit. -/
theorem length_flatMap_digits {digits : List Char} (h : ∀ c ∈ digits, c.isDigit = true) :
    (digits.flatMap String.utf8EncodeChar).length = digits.length := by
  induction digits with
  | nil => rfl
  | cons c digits ih =>
      obtain ⟨b, hb, -⟩ := utf8EncodeChar_digit (h c List.mem_cons_self)
      rw [List.flatMap_cons, hb, List.length_append,
        ih fun d hd => h d (List.mem_cons_of_mem _ hd), List.length_cons]
      exact Nat.add_comm _ _

/-- Digits that lie ahead are read up to the colon after them. -/
theorem readLength?_digits {digits : List Char} (hdigits : ∀ c ∈ digits, c.isDigit = true)
    (hfuel : digits.length < fuel) (n : Nat)
    (h : Ahead bytes pos (digits.flatMap String.utf8EncodeChar ++ 0x3A :: rest)) :
    ∃ after, readLength? bytes fuel pos n = some (Nat.ofDigitChars 10 digits n, after) ∧
      Ahead bytes after rest := by
  obtain ⟨fuel, rfl⟩ : ∃ more, fuel = more + 1 := ⟨fuel - 1, by omega⟩
  induction digits generalizing fuel pos n with
  | nil =>
      have hcolon : Ahead bytes pos ([0x3A] ++ rest) := h
      refine ⟨pos + 1, ?_, hcolon.drop⟩
      simp [readLength?, h.getElem?]
  | cons c digits ih =>
      obtain ⟨b, hb, hcolon, hrange, hvalue⟩ := utf8EncodeChar_digit (hdigits c List.mem_cons_self)
      rw [List.flatMap_cons, hb, List.append_assoc] at h
      rw [List.length_cons] at hfuel
      obtain ⟨fuel, rfl⟩ : ∃ more, fuel = more + 1 := ⟨fuel - 1, by omega⟩
      obtain ⟨after, hread, hafter⟩ := ih (fun d hd => hdigits d (List.mem_cons_of_mem _ hd))
        (10 * n + (c.toNat - '0'.toNat)) h.drop fuel (by omega)
      refine ⟨after, ?_, hafter⟩
      have hfirst : bytes[pos]? = some b := h.getElem?
      rw [Nat.ofDigitChars_cons, ← hread]
      rw [readLength?, if_neg hcolon, if_pos hrange, hvalue]
      · rfl
      · exact hfirst

/-- A chunk that lies ahead, after its length, is read. -/
theorem readBytes?_written (chunk : ByteArray)
    (h : Ahead bytes pos ((writeLength chunk.size).data.toList ++ (chunk.data.toList ++ rest))) :
    ∃ after, readBytes? bytes pos = some (chunk, after) ∧ Ahead bytes after rest := by
  have hdigits : ∀ c ∈ Nat.toDigits 10 chunk.size, c.isDigit = true := fun c hc =>
    Nat.isDigit_of_mem_toDigits (by decide) (by decide) hc
  rw [writeLength_toList, List.append_assoc] at h
  have hfuel : (Nat.toDigits 10 chunk.size).length < bytes.size := by
    rw [h.size_eq, List.length_append, length_flatMap_digits hdigits, List.length_append,
      List.length_singleton]
    omega
  obtain ⟨middle, hlength, hmiddle⟩ : ∃ middle,
      readLength? bytes bytes.size pos 0 = some (Nat.ofDigitChars 10 (Nat.toDigits 10 chunk.size) 0,
        middle) ∧ Ahead bytes middle (chunk.data.toList ++ rest) :=
    readLength?_digits hdigits hfuel 0 h
  rw [Nat.ofDigitChars_ten_toDigits] at hlength
  have hchunk : chunk.data.toList.length = chunk.size := rfl
  have hsize : middle + chunk.size ≤ bytes.size := by
    rw [hmiddle.size_eq, List.length_append, hchunk]
    omega
  refine ⟨middle + chunk.size, ?_, hmiddle.drop⟩
  rw [readBytes?, hlength]
  show (if middle + chunk.size ≤ bytes.size then _ else none) = _
  rw [if_pos hsize, hmiddle.extract]

/-! ## Rows -/

/-- The bytes of a written row. -/
theorem writeRow_toList (row : Row) :
    (writeRow row).data.toList = (writeLength row.path.toUTF8.size).data.toList ++
      (row.path.toUTF8.data.toList ++ ((writeLength row.data.size).data.toList ++
        (row.data.data.toList ++ []))) := by
  rw [writeRow]
  simp

/-- A written row is not empty. -/
theorem length_writeRow (row : Row) : 0 < (writeRow row).data.toList.length := by
  rw [writeRow_toList, writeLength_toList, List.length_append, List.length_append,
    List.length_singleton]
  omega

theorem fromUTF8?_toUTF8 (s : String) : String.fromUTF8? s.toUTF8 = some s := by
  rw [String.fromUTF8?, String.toUTF8_eq_toByteArray, dif_pos s.isValidUTF8]
  rfl

/-- Rows that lie ahead are read up to the end. -/
theorem readRows?_written {rows : List Row} (hfuel : rows.length < fuel)
    (h : Ahead bytes pos (rows.flatMap fun row => (writeRow row).data.toList)) (read : List Row) :
    readRows? bytes fuel pos read = some (read.reverse ++ rows) := by
  obtain ⟨fuel, rfl⟩ : ∃ more, fuel = more + 1 := ⟨fuel - 1, by omega⟩
  induction rows generalizing fuel pos read with
  | nil =>
      have hend : pos = bytes.size := h.size_eq.symm
      rw [readRows?, if_pos hend, List.append_nil]
  | cons row rows ih =>
      rw [List.length_cons] at hfuel
      obtain ⟨fuel, rfl⟩ : ∃ more, fuel = more + 1 := ⟨fuel - 1, by omega⟩
      have hmore : pos ≠ bytes.size := by
        have hsize := h.size_eq
        have hlength := length_writeRow row
        rw [List.flatMap_cons, List.length_append] at hsize
        omega
      rw [List.flatMap_cons, writeRow_toList] at h
      simp only [List.append_assoc, List.nil_append] at h
      obtain ⟨middle, hpath, hmiddle⟩ := readBytes?_written row.path.toUTF8 h
      obtain ⟨after, hdata, hafter⟩ := readBytes?_written row.data hmiddle
      rw [readRows?, if_neg hmore, hpath]
      simp only [Option.bind_eq_bind, Option.bind_some, hdata, fromUTF8?_toUTF8]
      show readRows? bytes (fuel + 1) after (row :: read) = _
      rw [ih hafter _ fuel (by omega), List.reverse_cons, List.append_assoc, List.singleton_append]

/-- The bytes of a written relation. -/
theorem write_toList (d : Database) :
    d.write.data.toList = signature ++ d.rows.flatMap fun row => (writeRow row).data.toList := by
  have hfold : ∀ (rows : List Row) (start : ByteArray),
      (rows.foldl (fun bytes row => bytes ++ writeRow row) start).data.toList =
        start.data.toList ++ rows.flatMap fun row => (writeRow row).data.toList := by
    intro rows
    induction rows with
    | nil => simp
    | cons row rows ih => simp [ih]
  exact hfold d.rows _

/-- A relation has no more rows than its written form has bytes. -/
theorem length_rows_le (rows : List Row) :
    rows.length ≤ (rows.flatMap fun row => (writeRow row).data.toList).length := by
  induction rows with
  | nil => exact Nat.le_refl _
  | cons row rows ih =>
      have hlength := length_writeRow row
      rw [List.flatMap_cons, List.length_append, List.length_cons]
      omega

/-- The written form of a relation is read as that relation. -/
theorem read?_write (d : Database) : read? d.write = some d := by
  have hstart : Ahead d.write 0 ((⟨signature.toArray⟩ : ByteArray).data.toList ++
      d.rows.flatMap fun row => (writeRow row).data.toList) :=
    ⟨[], d.write_toList, rfl⟩
  have hlength : (⟨signature.toArray⟩ : ByteArray).size = signature.length := rfl
  have hextract := hstart.extract
  have hbehind := hstart.drop
  rw [Nat.zero_add] at hextract hbehind
  rw [hlength] at hextract
  have hsigned : (d.write.extract 0 signature.length).toList = signature := by
    rw [hextract]
    decide +kernel
  have hsize : d.write.size = signature.length +
      (d.rows.flatMap fun row => (writeRow row).data.toList).length := by
    rw [hstart.size_eq, Nat.zero_add, List.length_append]
  have hpositive : 0 < signature.length := by decide +kernel
  have hmany := length_rows_le d.rows
  have hfuel : d.rows.length < d.write.size + 1 := by omega
  have hrows : readRows? d.write (d.write.size + 1) signature.length [] = some d.rows :=
    readRows?_written hfuel hbehind []
  rw [read?, if_neg (by omega), if_pos hsigned, hrows]
  rfl

end ScriptHost.Database
