import ScriptHost.Proofs.CommandLine.Grammar

/-!
# Writing command lines

Every list of words can be written as a command line, each word in pieces and each piece in a style
of quoting that allows it. `split_reads_grammar` says that a command line splits into some words
exactly when the grammar derives it from them; in particular a written line splits into the words it
was written for.

The grammar itself: `ScriptHost.Proofs.CommandLine.Grammar`.
-/

namespace ScriptHost.CommandLine

/-- The ways to write characters in a command line. -/
inductive Quoting where
  | single
  | double
  | escaped
  | plain
  deriving DecidableEq, Repr

namespace Quoting

/-- Characters in a style. -/
def write : Quoting → List Char → List Char
  | single, chars => '\'' :: (chars ++ ['\''])
  | double, chars =>
      '"' :: ((chars.flatMap fun c => if isDoubleQuoteEscape c then ['\\', c] else [c]) ++ ['"'])
  | escaped, chars => chars.flatMap fun c => ['\\', c]
  | plain, chars => chars

/-- The characters that a style can write. Only quotes can write none at all. -/
def Allows : Quoting → List Char → Prop
  | single, chars => '\'' ∉ chars
  | double, _ => True
  | escaped, chars => chars ≠ []
  | plain, chars => chars ≠ [] ∧ ∀ c ∈ chars, IsPlain c

end Quoting

/-- Characters with a style that can write them. -/
structure Piece where
  quoting : Quoting
  chars : List Char
  allowed : quoting.Allows chars

/-- A word in one or more pieces. -/
structure QuotedWord where
  first : Piece
  others : List Piece

namespace QuotedWord

/-- The pieces in order. -/
def pieces (w : QuotedWord) : List Piece :=
  w.first :: w.others

/-- The word as it is written. -/
def written (w : QuotedWord) : List Char :=
  w.pieces.flatMap fun p => p.quoting.write p.chars

/-- The word that is meant. -/
def content (w : QuotedWord) : String :=
  .ofList (w.pieces.flatMap (·.chars))

end QuotedWord

/-- A word with the blanks between it and the word before it. -/
structure SpacedWord extends QuotedWord where
  gap : List Char
  blank : Blanks gap
  gap_ne_nil : gap ≠ []

/-- The command line of a written word and the ones after it. -/
def writtenLine (first : QuotedWord) (others : List SpacedWord) : List Char :=
  first.written ++ others.flatMap fun w => w.gap ++ w.written

/-- Between double quotes a run of escaped characters reads as those characters. -/
theorem doubleRun_write (chars : List Char) :
    DoubleRun (chars.flatMap fun c => if isDoubleQuoteEscape c then ['\\', c] else [c]) chars := by
  induction chars with
  | nil => exact .nil
  | cons c chars ih =>
      rw [List.flatMap_cons]
      cases hc : isDoubleQuoteEscape c with
      | true => exact .escape c _ _ hc ih
      | false =>
          obtain ⟨hquote, hback⟩ : c ≠ '"' ∧ c ≠ '\\' := by
            constructor <;> (rintro rfl; exact absurd hc (by decide))
          exact .char c _ _ hquote hback ih

/-- Characters that are each written as a fragment make up fragments. -/
theorem fragments_flatMap (write : Char → List Char) {chars : List Char}
    (h : ∀ c ∈ chars, Fragment (write c) [c]) : Fragments (chars.flatMap write) chars := by
  induction chars with
  | nil => exact .nil
  | cons c chars ih =>
      rw [List.flatMap_cons]
      exact .cons _ [c] _ _ (h c List.mem_cons_self)
        (ih fun d hd => h d (List.mem_cons_of_mem _ hd))

/-- One fragment alone. -/
theorem Fragment.fragments {text chars : List Char} (h : Fragment text chars) :
    Fragments text chars := by
  have hone := Fragments.cons text chars [] [] h .nil
  rwa [List.append_nil, List.append_nil] at hone

/-- What a style writes reads as the characters it was written for. -/
theorem Piece.fragments (p : Piece) : Fragments (p.quoting.write p.chars) p.chars := by
  obtain ⟨quoting, chars, hallowed⟩ := p
  cases quoting with
  | single => exact (Fragment.single chars hallowed).fragments
  | double => exact (Fragment.double _ chars (doubleRun_write chars)).fragments
  | escaped => exact fragments_flatMap _ fun c _ => .escaped c
  | plain =>
      have hplain := fragments_flatMap (fun c => [c])
        fun c hc => Fragment.plain c (hallowed.2 c hc)
      rwa [List.flatMap_singleton'] at hplain

/-- A style that can write some characters writes something. -/
theorem Piece.write_ne_nil (p : Piece) : p.quoting.write p.chars ≠ [] := by
  obtain ⟨quoting, chars, hallowed⟩ := p
  cases quoting with
  | single | double => exact List.cons_ne_nil _ _
  | escaped =>
      cases chars with
      | nil => exact absurd rfl hallowed
      | cons c chars => exact List.cons_ne_nil _ _
  | plain => exact hallowed.1

/-- Fragments one after another are fragments. -/
theorem Fragments.append {text chars texts rest : List Char} (h : Fragments text chars)
    (hrest : Fragments texts rest) : Fragments (text ++ texts) (chars ++ rest) := by
  induction h with
  | nil => exact hrest
  | cons text chars more others hfrag _ ih =>
      rw [List.append_assoc, List.append_assoc]
      exact .cons _ _ _ _ hfrag ih

/-- Fragments that are not empty are a word. -/
theorem Fragments.word {text chars : List Char} (h : Fragments text chars) (hne : text ≠ []) :
    Word text chars := by
  cases h with
  | nil => exact absurd rfl hne
  | cons text chars texts rest hfrag hfrags => exact .intro _ _ _ _ hfrag hfrags

/-- The pieces of a word read as what they were written for. -/
theorem fragments_pieces (pieces : List Piece) :
    Fragments (pieces.flatMap fun p => p.quoting.write p.chars) (pieces.flatMap (·.chars)) := by
  induction pieces with
  | nil => exact .nil
  | cons p pieces ih => exact p.fragments.append ih

/-- A written word is a word of the grammar. -/
theorem QuotedWord.word (w : QuotedWord) : Word w.written w.content.toList := by
  rw [QuotedWord.content, String.toList_ofList]
  refine (fragments_pieces w.pieces).word ?_
  exact List.append_ne_nil_of_left_ne_nil w.first.write_ne_nil _

/-- Written words with blanks between them are words of the grammar. -/
theorem words_written (first : QuotedWord) (others : List SpacedWord) :
    Words (writtenLine first others)
      (first.content.toList :: others.map fun w => w.content.toList) := by
  induction others generalizing first with
  | nil =>
      rw [writtenLine, List.flatMap_nil, List.append_nil]
      exact .one _ _ first.word
  | cons second others ih =>
      rw [writtenLine, List.flatMap_cons, List.append_assoc, ← List.append_assoc]
      exact .more _ _ _ _ _ first.word second.blank second.gap_ne_nil (ih second.toQuotedWord)

/-- Splitting a command line gives some words exactly when the grammar derives the line from them.
In particular words written in any mix of styles, with any blanks between them, come back as they
were meant, and there is no word that cannot be written. -/
theorem split_reads_grammar :
    (∀ (line : String) (argv : List String),
      split line = .ok argv ↔ Line line.toList (argv.map String.toList)) ∧
    (∀ (first : QuotedWord) (others : List SpacedWord),
      split (.ofList (writtenLine first others)) =
        .ok (first.content :: others.map (·.content))) ∧
    ∀ text : String, ∃ word : QuotedWord, word.content = text := by
  have hiff : ∀ (line : String) (argv : List String),
      split line = .ok argv ↔ Line line.toList (argv.map String.toList) := by
    intro line argv
    rw [← splitChars_eq_ok_iff, split]
    cases splitChars line.toList with
    | error fault => simp [Except.map]
    | ok words =>
        simp only [Except.map, Except.ok.injEq]
        constructor
        · rintro rfl
          simp [Function.comp_def]
        · rintro rfl
          simp [Function.comp_def]
  refine ⟨hiff, fun first others => ?_, fun text => ?_⟩
  · rw [hiff, String.toList_ofList, List.map_cons, List.map_map]
    have hnone : Blanks [] := fun c hc => absurd hc List.not_mem_nil
    refine ⟨[], writtenLine first others, [], hnone, words_written first others, hnone, ?_⟩
    rw [List.nil_append, List.append_nil]
  · refine ⟨⟨⟨.double, text.toList, trivial⟩, []⟩, ?_⟩
    simp [QuotedWord.content, QuotedWord.pieces]

/-- An empty word, a word in three styles and a quoted blank. -/
example : split "'' a\"b'c\"\\d \" \"" = .ok ["", "ab'cd", " "] := rfl

end ScriptHost.CommandLine
