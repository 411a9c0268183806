import ScriptHost.Proofs.Diagnostic.Reading

/-!
# The parts of a diagnostic line

What the readers of a line accept, and nothing else: for each of them, when it succeeds and with
what. A reader that looks for the shortest or the longest beginning finds it among all the `Cut`s of
the text. Readers that run until a character of another class are exact because what must follow is
never of the class they read: no digit is blank, and no code contains its closing bracket.
-/

namespace ScriptHost.Diagnostic

/-! ## Cuts -/

section Cuts

variable {α : Type} {accept : List Char → Option α} {before cs head : List Char} {a b : α}

/-- A text is cut after a beginning that is not empty, where its rest is accepted. -/
def Cut (accept : List Char → Option α) (cs head : List Char) (a : α) : Prop :=
  head ≠ [] ∧ ∃ rest, head ++ rest = cs ∧ accept rest = some a

/-- There is one cut at a place. -/
theorem Cut.eq_of_length {other : List Char} (h : Cut accept cs head a)
    (hother : Cut accept cs other b) (hlength : head.length = other.length) :
    head = other ∧ a = b := by
  obtain ⟨-, rest, rfl, ha⟩ := h
  obtain ⟨-, rest', happend, hb⟩ := hother
  obtain ⟨rfl, rfl⟩ := List.append_inj happend.symm hlength
  exact ⟨rfl, Option.some.inj (ha.symm.trans hb)⟩

/-- What finds a cut as long as a given one finds that one. -/
theorem Cut.found (h : Cut accept cs head a) {result : Option (List Char × α)}
    (hnone : result = none → ∀ other b, ¬ Cut accept cs other b)
    (hsome : ∀ other b, result = some (other, b) →
      Cut accept cs other b ∧ other.length = head.length) : result = some (head, a) := by
  cases hresult : result with
  | none => exact absurd h (hnone hresult head a)
  | some found =>
      obtain ⟨hfound, hlength⟩ := hsome _ _ hresult
      obtain ⟨hhead, ha⟩ := hfound.eq_of_length h hlength
      exact congrArg some (Prod.ext hhead ha)

theorem not_cut_nil : ¬ Cut accept [] head a := by
  rintro ⟨hne, rest, happend, -⟩
  exact hne (List.append_eq_nil_iff.mp happend).1

/-- A text is cut after its first character or later. -/
theorem cut_cons_iff {c : Char} :
    Cut accept (c :: cs) head a ↔
      (head = [c] ∧ accept cs = some a) ∨ ∃ more, head = c :: more ∧ Cut accept cs more a := by
  constructor
  · rintro ⟨hne, rest, happend, ha⟩
    cases head with
    | nil => exact absurd rfl hne
    | cons d more =>
        obtain ⟨rfl, rfl⟩ := List.cons.inj happend
        cases more with
        | nil => exact .inl ⟨rfl, ha⟩
        | cons d more => exact .inr ⟨_, rfl, List.cons_ne_nil _ _, rest, rfl, ha⟩
  · rintro (⟨rfl, ha⟩ | ⟨more, rfl, -, rest, rfl, ha⟩)
    · exact ⟨List.cons_ne_nil _ _, cs, rfl, ha⟩
    · exact ⟨List.cons_ne_nil _ _, rest, rfl, ha⟩

theorem shortestHead_eq_none_iff :
    shortestHead accept before cs = none ↔ ∀ head a, ¬ Cut accept cs head a := by
  induction cs generalizing before with
  | nil => simp [shortestHead, not_cut_nil]
  | cons c cs ih =>
      unfold shortestHead
      cases haccept : accept cs with
      | none =>
          refine ih.trans ⟨fun h head a hcut => ?_, fun h more a hmore => ?_⟩
          · rcases cut_cons_iff.mp hcut with ⟨-, ha⟩ | ⟨more, -, hmore⟩
            · cases haccept.symm.trans ha
            · exact h more a hmore
          · exact h (c :: more) a (cut_cons_iff.mpr (.inr ⟨more, rfl, hmore⟩))
      | some a =>
          refine iff_of_false (by simp) fun h => h [c] a (cut_cons_iff.mpr (.inl ⟨rfl, haccept⟩))

/-- The first accepted rest is behind the shortest beginning. -/
theorem shortestHead_sound (h : shortestHead accept before cs = some (head, a)) :
    ∃ own, head = before.reverse ++ own ∧ Cut accept cs own a ∧
      ∀ other b, Cut accept cs other b → own.length ≤ other.length := by
  induction cs generalizing before with
  | nil => cases h
  | cons c cs ih =>
      unfold shortestHead at h
      cases haccept : accept cs with
      | some first =>
          rw [haccept] at h
          obtain ⟨rfl, rfl⟩ := Prod.mk.inj (Option.some.inj h)
          refine ⟨[c], by simp, cut_cons_iff.mpr (.inl ⟨rfl, haccept⟩), fun other b hother => ?_⟩
          exact List.length_pos_of_ne_nil hother.1
      | none =>
          rw [haccept] at h
          obtain ⟨own, rfl, hcut, hshortest⟩ := ih h
          refine ⟨c :: own, by simp, cut_cons_iff.mpr (.inr ⟨own, rfl, hcut⟩),
            fun other b hother => ?_⟩
          rcases cut_cons_iff.mp hother with ⟨-, hfirst⟩ | ⟨more, rfl, hmore⟩
          · cases haccept.symm.trans hfirst
          · exact Nat.succ_le_succ (hshortest more b hmore)

/-- Of all cuts the one after the shortest beginning is found. -/
theorem shortestHead_eq_some_iff :
    shortestHead accept [] cs = some (head, a) ↔
      Cut accept cs head a ∧ ∀ other b, Cut accept cs other b → head.length ≤ other.length := by
  constructor
  · intro h
    obtain ⟨own, rfl, hcut⟩ := shortestHead_sound h
    exact hcut
  · rintro ⟨hcut, hshortest⟩
    refine hcut.found shortestHead_eq_none_iff.mp fun other b hother => ?_
    obtain ⟨_, rfl, hown, hleast⟩ := shortestHead_sound hother
    exact ⟨hown, Nat.le_antisymm (hleast head a hcut) (hshortest other b hown)⟩

theorem longestHead_eq_none_iff :
    longestHead accept before cs = none ↔ ∀ head a, ¬ Cut accept cs head a := by
  induction cs generalizing before with
  | nil => simp [longestHead, not_cut_nil]
  | cons c cs ih =>
      unfold longestHead
      cases hlater : longestHead accept (c :: before) cs with
      | some found =>
          refine iff_of_false (by simp) fun h => ?_
          have hnone : longestHead accept (c :: before) cs = none :=
            ih.mpr fun more a hmore => h (c :: more) a (cut_cons_iff.mpr (.inr ⟨more, rfl, hmore⟩))
          rw [hnone] at hlater
          cases hlater
      | none =>
          have hcuts := ih.mp hlater
          cases haccept : accept cs <;> simp [cut_cons_iff, haccept, hcuts]

/-- The last accepted rest is behind the longest beginning. -/
theorem longestHead_sound (h : longestHead accept before cs = some (head, a)) :
    ∃ own, head = before.reverse ++ own ∧ Cut accept cs own a ∧
      ∀ other b, Cut accept cs other b → other.length ≤ own.length := by
  induction cs generalizing before with
  | nil => cases h
  | cons c cs ih =>
      unfold longestHead at h
      cases hlater : longestHead accept (c :: before) cs with
      | some found =>
          rw [hlater] at h
          obtain rfl := Option.some.inj h
          obtain ⟨own, rfl, hcut, hlongest⟩ := ih hlater
          refine ⟨c :: own, by simp, cut_cons_iff.mpr (.inr ⟨own, rfl, hcut⟩),
            fun other b hother => ?_⟩
          rcases cut_cons_iff.mp hother with ⟨rfl, -⟩ | ⟨more, rfl, hmore⟩
          · exact Nat.succ_le_succ (Nat.zero_le _)
          · exact Nat.succ_le_succ (hlongest more b hmore)
      | none =>
          rw [hlater] at h
          obtain ⟨last, haccept, hlast⟩ := Option.map_eq_some_iff.mp h
          obtain ⟨rfl, rfl⟩ := Prod.mk.inj hlast
          refine ⟨[c], by simp, cut_cons_iff.mpr (.inl ⟨rfl, haccept⟩), fun other b hother => ?_⟩
          rcases cut_cons_iff.mp hother with ⟨rfl, -⟩ | ⟨more, -, hmore⟩
          · exact Nat.le_refl _
          · exact absurd hmore (longestHead_eq_none_iff.mp hlater more b)

/-- Of all cuts the one after the longest beginning is found. -/
theorem longestHead_eq_some_iff :
    longestHead accept [] cs = some (head, a) ↔
      Cut accept cs head a ∧ ∀ other b, Cut accept cs other b → other.length ≤ head.length := by
  constructor
  · intro h
    obtain ⟨own, rfl, hcut⟩ := longestHead_sound h
    exact hcut
  · rintro ⟨hcut, hlongest⟩
    refine hcut.found longestHead_eq_none_iff.mp fun other b hother => ?_
    obtain ⟨_, rfl, hown, hmost⟩ := longestHead_sound hother
    exact ⟨hown, Nat.le_antisymm (hlongest other b hown) (hmost head a hcut)⟩

end Cuts

/-! ## Digits -/

/-- Decimal digits of any script. -/
structure Digits where
  chars : List Char
  ne_nil : chars ≠ []
  decimal : ∀ c ∈ chars, Text.isDecimalDigit c = true

namespace Digits

/-- The line or column that digits give: that of a numeral when all of them are ASCII digits, and
none otherwise. -/
@[irreducible] def position (d : Digits) : Nat :=
  if hascii : d.chars.all fun c => '0' ≤ c ∧ c ≤ '9' then
    Numeral.position ⟨d.chars, d.ne_nil, by simpa using hascii⟩
  else 0

end Digits

/-- Digits other than those of ASCII have no value. -/
theorem ascii_of_mapM_asciiDigit? {digits : List Char} {values : List Nat}
    (h : digits.mapM asciiDigit? = some values) : ∀ c ∈ digits, '0' ≤ c ∧ c ≤ '9' := by
  induction digits generalizing values with
  | nil =>
      intro c hc
      cases hc
  | cons d digits ih =>
      simp only [List.mapM_cons, Option.bind_eq_bind, Option.bind_eq_some_iff] at h
      obtain ⟨value, hd, rest, hrest, -⟩ := h
      intro c hc
      rcases List.mem_cons.mp hc with rfl | hc
      · by_contra hascii
        unfold asciiDigit? at hd
        rw [if_neg hascii] at hd
        cases hd
      · exact ih hrest c hc

/-- Digits read as the position they give. -/
theorem number_chars (d : Digits) : number d.chars = d.position := by
  unfold Digits.position
  split
  · rename_i hascii
    exact number_digits ⟨d.chars, d.ne_nil, _⟩
  · rename_i hforeign
    unfold number
    split
    · rename_i values hvalues
      exact absurd (by simpa using ascii_of_mapM_asciiDigit? hvalues) hforeign
    · rfl

/-- Digits before a word that starts with another character are read off. -/
theorem Digits.read_append (d : Digits) {word : String}
    (h : word.toList.head?.all Text.isDecimalDigit = false) (rest : List Char) :
    digits? (d.chars ++ (word.toList ++ rest)) = some (d.chars, word.toList ++ rest) := by
  refine digits?_run d.ne_nil d.decimal ?_
  generalize word.toList = start at h
  cases start with
  | nil => exact absurd h (by simp)
  | cons c start => simpa using h

/-- What is read off are digits. -/
theorem digits?_sound {cs run rest : List Char} (h : digits? cs = some (run, rest)) :
    ∃ d : Digits, run = d.chars ∧ d.chars ++ rest = cs := by
  unfold digits? at h
  dsimp only at h
  split at h
  · cases h
  · rename_i hne
    obtain ⟨rfl, rfl⟩ := Prod.mk.inj (Option.some.inj h)
    refine ⟨⟨cs.takeWhile Text.isDecimalDigit, by simpa using hne, ?_⟩, rfl,
      List.takeWhile_append_dropWhile⟩
    exact List.all_eq_true.mp List.all_takeWhile

/-! ## Kinds -/

/-- A kind that is read is that of one of the words. -/
theorem kind?_sound {words : List String} {cs rest : List Char} {kind : DiagnosticKind}
    (h : kind? words cs = some (kind, rest)) :
    ∃ word ∈ words, kind = .ofWord word ∧ word.toList ++ (": ".toList ++ rest) = cs := by
  obtain ⟨word, hword, hread⟩ := List.exists_of_findSome?_eq_some h
  obtain ⟨_, hrest, heq⟩ := Option.map_eq_some_iff.mp hread
  obtain ⟨rfl, rfl⟩ := Prod.mk.inj heq
  refine ⟨word, hword, rfl, ?_⟩
  rw [← append_of_after? hrest, String.toList_append, List.append_assoc]

/-- With a column before it, every severity is read and nothing else. -/
theorem kind?_column_iff {cs message : List Char} {kind : DiagnosticKind} :
    kind? columnKinds cs = some (kind, message) ↔
      ∃ severity : Severity, kind = severity.kind ∧
        severity.word ++ (": ".toList ++ message) = cs := by
  constructor
  · intro h
    obtain ⟨word, hword, rfl, rfl⟩ := kind?_sound h
    simp only [columnKinds, List.mem_cons, List.not_mem_nil, or_false] at hword
    rcases hword with rfl | rfl | rfl | rfl | rfl
    · exact ⟨.fatalError, rfl, rfl⟩
    · exact ⟨.error, rfl, rfl⟩
    · exact ⟨.warning, rfl, rfl⟩
    · exact ⟨.note, rfl, rfl⟩
    · exact ⟨.mandatoryWarning, rfl, rfl⟩
  · rintro ⟨severity, rfl, rfl⟩
    exact kind?_column severity message

/-- Without a column before it, every severity but one is read and nothing else. -/
theorem kind?_line_iff {cs message : List Char} {kind : DiagnosticKind} :
    kind? lineKinds cs = some (kind, message) ↔
      ∃ severity : Severity, severity ≠ .fatalError ∧ kind = severity.kind ∧
        severity.word ++ (": ".toList ++ message) = cs := by
  constructor
  · intro h
    obtain ⟨word, hword, rfl, rfl⟩ := kind?_sound h
    simp only [lineKinds, List.mem_cons, List.not_mem_nil, or_false] at hword
    rcases hword with rfl | rfl | rfl | rfl
    · exact ⟨.error, by decide, rfl, rfl⟩
    · exact ⟨.warning, by decide, rfl, rfl⟩
    · exact ⟨.note, by decide, rfl, rfl⟩
    · exact ⟨.mandatoryWarning, by decide, rfl, rfl⟩
  · rintro ⟨severity, hseverity, rfl, rfl⟩
    exact kind?_line hseverity message

/-! ## Codes -/

/-- What is skipped before a colon is a code in square brackets, if anything. -/
theorem skipCode_sound {cs message : List Char} (h : after? ": " (skipCode cs) = some message) :
    ∃ code : Option ErrorCode, bracketed code ++ (": ".toList ++ message) = cs := by
  unfold skipCode at h
  split at h
  · exact ⟨none, append_of_after? h⟩
  · rename_i inner hopen
    split at h
    · rename_i c chars rest hchars hclose
      have hword : ∀ d ∈ c :: chars, Text.isWordChar d = true :=
        fun d hd => List.all_eq_true.mp List.all_takeWhile d (hchars ▸ hd)
      refine ⟨some ⟨c :: chars, List.cons_ne_nil _ _, hword⟩, ?_⟩
      rw [← append_of_after? hopen, ← inner.takeWhile_append_dropWhile (p := Text.isWordChar),
        hchars, ← append_of_after? hclose, append_of_after? h]
      simp [bracketed]
    · -- a bracket that is not skipped is no colon
      have hbracket := append_of_after? hopen
      rw [← append_of_after? h] at hbracket
      exact absurd (List.cons.inj hbracket).1 (by decide)

/-! ## Blanks -/

/-- No digit is blank. -/
theorem isDecimalDigit_of_isBlank {c : Char} (h : Text.isBlank c = true) :
    Text.isDecimalDigit c = false := by
  have hnone : ∀ range ∈ Text.blankRanges, ∀ n, range.1 ≤ n → n ≤ range.2 →
      Text.inRanges Text.digitRanges n = false := by
    have hspan : ∀ range ∈ Text.blankRanges, ∀ step ≤ range.2 - range.1,
        Text.inRanges Text.digitRanges (range.1 + step) = false := by decide +kernel
    intro range hrange n hlow hhigh
    have hstep := hspan range hrange (n - range.1) (by omega)
    rwa [Nat.add_sub_cancel' hlow] at hstep
  unfold Text.isBlank at h
  obtain ⟨range, hrange, hin⟩ := List.any_eq_true.mp h
  simp only [Bool.and_eq_true, decide_eq_true_eq] at hin
  exact hnone range hrange c.toNat hin.1 hin.2

end ScriptHost.Diagnostic
