import ScriptHost.Proofs.CommandLine.Grammar

/-!
# The faults of command lines

`Settled text` says that a text is blanks and complete fragments, so that the scanner stands outside
quotes behind it. Every line is settled, or is a settled text with something unfinished behind it:
`settled_or_unfinished`. What the scanner says of a line is what it says of the unfinished rest,
`Settled.scan_unfinished`, and `split_names_fault` reads off the fault of each line that is refused.

The grammar of the lines that are not refused: `ScriptHost.Proofs.CommandLine.Grammar`.
-/

namespace ScriptHost.CommandLine

/-- `Settled text` says that `text` is any number of blanks and complete fragments. -/
inductive Settled : List Char → Prop where
  | nil : Settled []
  | blank (c text) : Text.isBlank c = true → Settled text → Settled (c :: text)
  | fragment (text chars rest) : Fragment text chars → Settled rest → Settled (text ++ rest)

/-- No complete fragment starts with this quote and ends within the rest. -/
def NeverClosed (quote : Char) (rest : List Char) : Prop :=
  ∀ text chars after, Fragment text chars → quote :: rest ≠ text ++ after

/-- A line that ends outside quotes but for a backslash that escapes nothing. -/
def EndsInEscape (line : List Char) : Prop :=
  ∃ front, Settled front ∧ line = front ++ ['\\']

/-- A line in which a quote is opened outside quotes and never closed. -/
def LeavesOpen (line : List Char) (quote : Char) : Prop :=
  (quote = '\'' ∨ quote = '"') ∧
    ∃ front rest, Settled front ∧ line = front ++ quote :: rest ∧ NeverClosed quote rest

/-! ## Quotes that are never closed -/

/-- What can stand after a double quote that is not closed. An escaped quote does not close it, and a
backslash at the end leaves it open. -/
inductive OpenDouble : List Char → Prop where
  | nil : OpenDouble []
  | backslash : OpenDouble ['\\']
  | char (c text) : c ≠ '"' → c ≠ '\\' → OpenDouble text → OpenDouble (c :: text)
  | pair (c text) : OpenDouble text → OpenDouble ('\\' :: c :: text)

theorem DoubleRun.openDouble {run chars text : List Char} (h : DoubleRun run chars)
    (htext : OpenDouble text) : OpenDouble (run ++ text) := by
  induction h with
  | nil => exact htext
  | char c run chars hquote hback _ ih => exact .char c _ hquote hback ih
  | escape c run chars _ _ ih => exact .pair c _ ih
  | backslash c run chars _ _ ih => exact .pair c _ ih

/-- There is no closing quote behind a run. -/
theorem OpenDouble.ne_closed {text run chars : List Char} (h : OpenDouble text)
    (hrun : DoubleRun run chars) (after : List Char) : text ≠ run ++ '"' :: after := by
  induction h generalizing run chars with
  | nil => simp
  | backslash =>
      intro heq
      cases hrun <;> simp at heq
  | char c text hquote hback _ ih =>
      intro heq
      cases hrun with
      | nil => exact hquote (List.cons.inj heq).1
      | char d run chars _ _ hrun => exact ih hrun (List.cons.inj heq).2
      | escape | backslash => exact hback (List.cons.inj heq).1
  | pair c text _ ih =>
      intro heq
      cases hrun with
      | nil => simp at heq
      | char d run chars _ hback _ => exact hback (List.cons.inj heq).1.symm
      | escape d run chars _ hrun => exact ih hrun (List.cons.inj (List.cons.inj heq).2).2
      | backslash d run chars _ hrun => exact ih hrun (List.cons.inj (List.cons.inj heq).2).2

/-- A double quote is not closed in what leaves it open. -/
theorem OpenDouble.neverClosed {rest : List Char} (h : OpenDouble rest) : NeverClosed '"' rest := by
  intro text chars after hfrag heq
  cases hfrag with
  | single chars _ => simp at heq
  | double run chars hrun => exact h.ne_closed hrun after (by simpa using heq)
  | escaped c => simp at heq
  | plain c hc => exact hc.2.2.1 (List.cons.inj heq).1.symm

/-- A double quote that is never closed is unfinished. -/
theorem NeverClosed.unfinished_double {rest : List Char} (h : NeverClosed '"' rest) :
    Unfinished ('"' :: rest) (.unterminatedQuote '"') := by
  rcases double_cases rest with ⟨run, chars, after, hrun, rfl⟩ | ⟨chars, hrun⟩ |
    ⟨run, chars, hrun, rfl⟩
  · exact absurd (by simp) (h _ chars after (.double run chars hrun))
  · exact .double rest chars hrun
  · exact .doubleEscape run chars hrun

/-- An unfinished double quote has something behind it that leaves it open. -/
theorem Unfinished.openDouble {rest : List Char}
    (h : Unfinished ('"' :: rest) (.unterminatedQuote '"')) : OpenDouble rest := by
  cases h with
  | double text chars hrun => simpa using hrun.openDouble .nil
  | doubleEscape run chars hrun => exact hrun.openDouble .backslash

theorem neverClosed_double_iff {rest : List Char} : NeverClosed '"' rest ↔ OpenDouble rest :=
  ⟨fun h => h.unfinished_double.openDouble, OpenDouble.neverClosed⟩

/-- A single quote is closed by the next one. -/
theorem neverClosed_single_iff {rest : List Char} : NeverClosed '\'' rest ↔ '\'' ∉ rest := by
  constructor
  · intro h hmem
    obtain ⟨chars, after, rfl, hchars⟩ := List.eq_append_cons_of_mem hmem
    exact h _ chars after (.single chars hchars) (by simp)
  · intro hrest text chars after hfrag heq
    cases hfrag with
    | single chars _ =>
        rw [(List.cons.inj heq).2] at hrest
        simp at hrest
    | double text chars _ => simp at heq
    | escaped c => simp at heq
    | plain c hc => exact hc.2.1 (List.cons.inj heq).1.symm

/-- A quote is unfinished if it is never closed. -/
theorem unfinished_quote_iff {quote : Char} {rest : List Char} :
    Unfinished (quote :: rest) (.unterminatedQuote quote) ↔
      (quote = '\'' ∨ quote = '"') ∧ NeverClosed quote rest := by
  constructor
  · intro h
    have hquote : quote = '\'' ∨ quote = '"' := by
      cases h <;> simp
    refine ⟨hquote, ?_⟩
    rcases hquote with rfl | rfl
    · cases h with
      | single chars hchars => exact neverClosed_single_iff.mpr hchars
    · exact h.openDouble.neverClosed
  · rintro ⟨rfl | rfl, h⟩
    · exact .single rest (neverClosed_single_iff.mp h)
    · exact h.unfinished_double

/-! ## Settled and unfinished text -/

/-- A settled text is scanned to its end. -/
theorem Settled.scan_ok {text : List Char} (h : Settled text) (word : Option (List Char)) :
    ∃ words, scan .plain word text = .ok words := by
  induction h generalizing word with
  | nil => exact ⟨_, rfl⟩
  | blank c text hc _ ih =>
      obtain ⟨words, hwords⟩ := ih none
      cases word with
      | none => exact ⟨words, (scan_none_blank hc text).trans hwords⟩
      | some read => exact ⟨read.reverse :: words, by rw [scan_some_blank hc, hwords]; rfl⟩
  | fragment text chars rest hfrag _ ih =>
      rw [scan_fragment hfrag]
      exact ih _

/-- A line that is unfinished behind a settled text is refused for what is unfinished. -/
theorem Settled.scan_unfinished {front rest : List Char} {fault : Fault} (h : Settled front)
    (hrest : Unfinished rest fault) (word : Option (List Char)) :
    scan .plain word (front ++ rest) = .error fault := by
  induction h generalizing word with
  | nil => exact CommandLine.scan_unfinished hrest word
  | blank c text hc _ ih =>
      cases word with
      | none => exact (scan_none_blank hc _).trans (ih none)
      | some read =>
          rw [List.cons_append, scan_some_blank hc, ih none]
          rfl
  | fragment text chars front hfrag _ ih =>
      rw [List.append_assoc, scan_fragment hfrag]
      exact ih _

/-- Every line is settled, up to something unfinished if there is any. -/
theorem settled_or_unfinished (line : List Char) :
    Settled line ∨
      ∃ front rest fault, Settled front ∧ Unfinished rest fault ∧ line = front ++ rest := by
  -- A fragment can be of any length, so the induction is on the length of what is left.
  induction hlen : line.length using Nat.strongRecOn generalizing line with
  | ind n ih =>
      subst hlen
      rcases leading_cases line with rfl | ⟨c, rest, hc, rfl⟩ | ⟨text, chars, rest, hfrag, rfl⟩ |
        ⟨fault, hfault⟩
      · exact .inl .nil
      · have hlen : rest.length < (c :: rest).length := by
          rw [List.length_cons]
          omega
        rcases ih rest.length hlen rest rfl with h | ⟨front, tail, fault, h, hfault, rfl⟩
        · exact .inl (.blank c rest hc h)
        · exact .inr ⟨c :: front, tail, fault, .blank c front hc h, hfault, rfl⟩
      · have hlen : rest.length < (text ++ rest).length := by
          have hpos := List.length_pos_iff.mpr hfrag.ne_nil
          rw [List.length_append]
          omega
        rcases ih rest.length hlen rest rfl with h | ⟨front, tail, fault, h, hfault, rfl⟩
        · exact .inl (.fragment text chars rest hfrag h)
        · exact .inr ⟨text ++ front, tail, fault, .fragment text chars front hfrag h, hfault, by simp⟩
      · exact .inr ⟨[], line, fault, .nil, hfault, rfl⟩

/-- The scanner refuses a line for what is unfinished behind a settled text, and for nothing else. -/
theorem scan_eq_error_iff {line : List Char} {fault : Fault} :
    scan .plain none line = .error fault ↔
      ∃ front rest, Settled front ∧ Unfinished rest fault ∧ line = front ++ rest := by
  constructor
  · intro h
    rcases settled_or_unfinished line with hline | ⟨front, rest, found, hfront, hrest, rfl⟩
    · obtain ⟨words, hwords⟩ := hline.scan_ok none
      cases hwords.symm.trans h
    · cases (hfront.scan_unfinished hrest none).symm.trans h
      exact ⟨front, rest, hfront, hrest, rfl⟩
  · rintro ⟨front, rest, hfront, hrest, rfl⟩
    exact hfront.scan_unfinished hrest none

/-- The scanner finds no words just in a blank line. -/
theorem scan_eq_nil_iff {line : List Char} : scan .plain none line = .ok [] ↔ Blanks line := by
  constructor
  · intro h
    rcases (rest_of_scan line []).1 h with ⟨hblanks, _⟩ | hline
    · exact hblanks
    · exact absurd rfl hline.ne_nil
  · intro h
    simpa [scan, Mode.faultAtEnd?] using scan_none_blanks h []

/-! ## The faults -/

theorem splitChars_eq_empty_iff {line : List Char} :
    splitChars line = .error .empty ↔ Blanks line := by
  rw [← scan_eq_nil_iff, splitChars]
  cases hscan : scan .plain none line with
  | ok words => cases words <;> simp
  | error fault =>
      -- Nothing that is unfinished is refused as empty.
      obtain ⟨_, _, _, hrest, _⟩ := scan_eq_error_iff.mp hscan
      cases hrest <;> simp

theorem splitChars_eq_error_iff {line : List Char} {fault : Fault} (hfault : fault ≠ .empty) :
    splitChars line = .error fault ↔ scan .plain none line = .error fault := by
  rw [splitChars]
  cases scan .plain none line with
  | ok words => cases words <;> simp [hfault.symm]
  | error found => simp

theorem splitChars_eq_trailingEscape_iff {line : List Char} :
    splitChars line = .error .trailingEscape ↔ EndsInEscape line := by
  rw [splitChars_eq_error_iff (by decide), scan_eq_error_iff]
  constructor
  · rintro ⟨front, rest, hfront, hrest, rfl⟩
    cases hrest
    exact ⟨front, hfront, rfl⟩
  · rintro ⟨front, hfront, rfl⟩
    exact ⟨front, ['\\'], hfront, .escape, rfl⟩

theorem splitChars_eq_unterminatedQuote_iff {line : List Char} {quote : Char} :
    splitChars line = .error (.unterminatedQuote quote) ↔ LeavesOpen line quote := by
  rw [splitChars_eq_error_iff (by simp), scan_eq_error_iff]
  constructor
  · rintro ⟨front, rest, hfront, hrest, rfl⟩
    obtain ⟨tail, rfl⟩ : ∃ tail, rest = quote :: tail := by
      cases hrest <;> exact ⟨_, rfl⟩
    obtain ⟨hquote, hclosed⟩ := unfinished_quote_iff.mp hrest
    exact ⟨hquote, front, tail, hfront, rfl, hclosed⟩
  · rintro ⟨hquote, front, rest, hfront, rfl, hclosed⟩
    exact ⟨front, quote :: rest, hfront, unfinished_quote_iff.mpr ⟨hquote, hclosed⟩, rfl⟩

/-- A command line is refused as empty exactly if it is blank; for a trailing escape exactly if it ends
in a backslash behind blanks and complete fragments; and for a quote exactly if that quote is opened
behind blanks and complete fragments and never closed. These lines and the lines of words are all
lines there are, and no line is of two kinds. A single quote is closed by the next one; a double
quote is not closed by an escaped one, and stays open before a backslash at the end. -/
theorem split_names_fault :
    (∀ line : String,
      (split line = .error .empty ↔ Blanks line.toList) ∧
      (split line = .error .trailingEscape ↔ EndsInEscape line.toList) ∧
      (∀ quote, split line = .error (.unterminatedQuote quote) ↔ LeavesOpen line.toList quote) ∧
      let kinds := [Blanks line.toList, EndsInEscape line.toList,
        ∃ quote, LeavesOpen line.toList quote, ∃ words, Line line.toList words]
      (∃ kind ∈ kinds, kind) ∧ kinds.Pairwise fun kind other => ¬ (kind ∧ other)) ∧
    (∀ rest, NeverClosed '\'' rest ↔ '\'' ∉ rest) ∧
    ∀ rest, NeverClosed '"' rest ↔ OpenDouble rest := by
  refine ⟨fun line => ?_, fun _ => neverClosed_single_iff, fun _ => neverClosed_double_iff⟩
  have hfault (fault : Fault) : split line = .error fault ↔ splitChars line.toList = .error fault := by
    rw [split]
    cases splitChars line.toList <;> simp [Except.map]
  simp only [hfault, splitChars_eq_empty_iff, splitChars_eq_trailingEscape_iff,
    splitChars_eq_unterminatedQuote_iff, implies_true, true_and]
  -- Each kind is one answer of the scanner, so every line is of exactly one kind.
  simp only [← splitChars_eq_empty_iff, ← splitChars_eq_trailingEscape_iff,
    ← splitChars_eq_unterminatedQuote_iff, ← splitChars_eq_ok_iff, List.mem_cons, List.not_mem_nil,
    or_false, exists_eq_or_imp, exists_eq_left]
  cases splitChars line.toList with
  | ok words => simp
  | error fault => cases fault <;> simp

/-- A backslash is escaped, escapes nothing, or is text behind a quote that stays open. -/
example : split "a\\\\" = .ok ["a\\"] ∧ split "a\\" = .error .trailingEscape ∧
    split "a '\\" = .error (.unterminatedQuote '\'') := ⟨rfl, rfl, rfl⟩

end ScriptHost.CommandLine
