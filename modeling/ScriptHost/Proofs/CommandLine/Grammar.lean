import ScriptHost.CommandLine

/-!
# The grammar of command lines

`Line text words` says that a line of characters is blanks, then words with blanks between them,
then blanks. A word is one or more fragments, and what it reads as is what they read as, put
together. `splitChars_eq_ok_iff` says that splitting a command line is reading this grammar;
`scan_fragment` and `leading_cases` are the two halves of the argument: the scanner passes over a
complete fragment, and the rest of a line is empty, or starts with a blank or a complete fragment,
or is unfinished.
-/

namespace ScriptHost.CommandLine

/-- A character that stands for itself outside quotes. -/
def IsPlain (c : Char) : Prop :=
  Text.isBlank c = false ∧ c ≠ '\'' ∧ c ≠ '"' ∧ c ≠ '\\'

/-- `DoubleRun text chars` says that between double quotes `text` reads as `chars`. -/
inductive DoubleRun : List Char → List Char → Prop where
  | nil : DoubleRun [] []
  | char (c text chars) :
      c ≠ '"' → c ≠ '\\' → DoubleRun text chars → DoubleRun (c :: text) (c :: chars)
  | escape (c text chars) :
      isDoubleQuoteEscape c = true → DoubleRun text chars →
      DoubleRun ('\\' :: c :: text) (c :: chars)
  | backslash (c text chars) :
      isDoubleQuoteEscape c = false → DoubleRun text chars →
      DoubleRun ('\\' :: c :: text) ('\\' :: c :: chars)

/-- `Fragment text chars` says that `text` is one quoted run, escaped character or plain character,
and reads as `chars`. -/
inductive Fragment : List Char → List Char → Prop where
  | single (chars) : '\'' ∉ chars → Fragment ('\'' :: (chars ++ ['\''])) chars
  | double (text chars) : DoubleRun text chars → Fragment ('"' :: (text ++ ['"'])) chars
  | escaped (c) : Fragment ['\\', c] [c]
  | plain (c) : IsPlain c → Fragment [c] [c]

/-- `Fragments text chars` says that `text` is any number of fragments that together read as
`chars`. -/
inductive Fragments : List Char → List Char → Prop where
  | nil : Fragments [] []
  | cons (text chars texts rest) :
      Fragment text chars → Fragments texts rest → Fragments (text ++ texts) (chars ++ rest)

/-- `Word text chars` says that `text` is one or more fragments that together read as `chars`. -/
inductive Word : List Char → List Char → Prop where
  | intro (text chars texts rest) :
      Fragment text chars → Fragments texts rest → Word (text ++ texts) (chars ++ rest)

/-- Every character is a blank. -/
def Blanks (text : List Char) : Prop :=
  ∀ c ∈ text, Text.isBlank c = true

/-- `Words text words` says that `text` is one or more words with blanks between them. -/
inductive Words : List Char → List (List Char) → Prop where
  | one (text word) : Word text word → Words text [word]
  | more (text word gap texts words) :
      Word text word → Blanks gap → gap ≠ [] → Words texts words →
      Words (text ++ gap ++ texts) (word :: words)

/-- `Line text words` says that `text` is words with blanks around and between them. -/
def Line (text : List Char) (words : List (List Char)) : Prop :=
  ∃ before inner after, Blanks before ∧ Words inner words ∧ Blanks after ∧
    text = before ++ inner ++ after

/-- `Unfinished text fault` says that `text` starts with a quote that is never closed, or is a
backslash that escapes nothing. -/
inductive Unfinished : List Char → Fault → Prop where
  | single (chars) : '\'' ∉ chars → Unfinished ('\'' :: chars) (.unterminatedQuote '\'')
  | double (text chars) :
      DoubleRun text chars → Unfinished ('"' :: text) (.unterminatedQuote '"')
  | doubleEscape (text chars) :
      DoubleRun text chars → Unfinished ('"' :: (text ++ ['\\'])) (.unterminatedQuote '"')
  | escape : Unfinished ['\\'] .trailingEscape

/-! ## The scanner on complete text -/

/-- A character that is blank is neither a quote nor a backslash. -/
theorem blank_ne {c : Char} (h : Text.isBlank c = true) : c ≠ '\'' ∧ c ≠ '"' ∧ c ≠ '\\' := by
  refine ⟨?_, ?_, ?_⟩ <;> (rintro rfl; exact absurd h (by decide))

/-- What the scanner does with a character outside quotes. -/
theorem scan_plain_cons (word : Option (List Char)) (c : Char) (rest : List Char) :
    scan .plain word (c :: rest) =
      if c = '\'' then scan .single (some (word.getD [])) rest
      else if c = '"' then scan .double (some (word.getD [])) rest
      else if c = '\\' then scan .escaped word rest
      else if Text.isBlank c then
        match word with
        | none => scan .plain none rest
        | some read => (scan .plain none rest).map (read.reverse :: ·)
      else scan .plain (some (c :: word.getD [])) rest := rfl

/-- What the scanner does with a character inside single quotes. -/
theorem scan_single_cons (read : List Char) (c : Char) (rest : List Char) :
    scan .single (some read) (c :: rest) =
      if c = '\'' then scan .plain (some read) rest
      else scan .single (some (c :: read)) rest := rfl

/-- What the scanner does with a character inside double quotes. -/
theorem scan_double_cons (read : List Char) (c : Char) (rest : List Char) :
    scan .double (some read) (c :: rest) =
      if c = '"' then scan .plain (some read) rest
      else if c = '\\' then scan .doubleEscaped (some read) rest
      else scan .double (some (c :: read)) rest := rfl

/-- What the scanner does with a character after a backslash inside double quotes. -/
theorem scan_doubleEscaped_cons (read : List Char) (c : Char) (rest : List Char) :
    scan .doubleEscaped (some read) (c :: rest) =
      if isDoubleQuoteEscape c then scan .double (some (c :: read)) rest
      else scan .double (some (c :: '\\' :: read)) rest := rfl

/-- Inside single quotes a run is read without leaving them. -/
theorem scan_single {chars : List Char} (h : '\'' ∉ chars) (read rest : List Char) :
    scan .single (some read) (chars ++ rest) =
      scan .single (some (chars.reverse ++ read)) rest := by
  induction chars generalizing read with
  | nil => rfl
  | cons c chars ih =>
      have hc : c ≠ '\'' := fun hc => h (by simp [hc])
      have hrest : '\'' ∉ chars := fun hr => h (List.mem_cons_of_mem _ hr)
      rw [List.cons_append, scan_single_cons, if_neg hc, ih hrest]
      simp

/-- Inside double quotes a run is read without leaving them. -/
theorem scan_double {text chars : List Char} (h : DoubleRun text chars) (read rest : List Char) :
    scan .double (some read) (text ++ rest) = scan .double (some (chars.reverse ++ read)) rest := by
  induction h generalizing read with
  | nil => rfl
  | char c text chars hquote hback _ ih =>
      rw [List.cons_append, scan_double_cons, if_neg hquote, if_neg hback, ih]
      simp
  | escape c text chars hc _ ih =>
      rw [List.cons_append, List.cons_append, scan_double_cons, if_neg (by decide), if_pos rfl,
        scan_doubleEscaped_cons, if_pos hc, ih]
      simp
  | backslash c text chars hc _ ih =>
      rw [List.cons_append, List.cons_append, scan_double_cons, if_neg (by decide), if_pos rfl,
        scan_doubleEscaped_cons, if_neg (by simp [hc]), ih]
      simp

/-- Outside quotes the scanner passes over a complete fragment and adds it to the word. -/
theorem scan_fragment {text chars : List Char} (h : Fragment text chars)
    (word : Option (List Char)) (rest : List Char) :
    scan .plain word (text ++ rest) = scan .plain (some (chars.reverse ++ word.getD [])) rest := by
  cases h with
  | single chars h =>
      rw [List.cons_append, List.append_assoc, scan_plain_cons, if_pos rfl, scan_single h]
      rfl
  | double text chars h =>
      rw [List.cons_append, List.append_assoc, scan_plain_cons, if_neg (by decide), if_pos rfl,
        scan_double h]
      rfl
  | escaped c => rfl
  | plain c h =>
      obtain ⟨hblank, hsingle, hdouble, hback⟩ := h
      rw [List.singleton_append, scan_plain_cons, if_neg hsingle, if_neg hdouble, if_neg hback,
        if_neg (by simp [hblank])]
      rfl

/-- Outside quotes the scanner passes over any number of fragments. -/
theorem scan_fragments {text chars : List Char} (h : Fragments text chars)
    (read rest : List Char) :
    scan .plain (some read) (text ++ rest) = scan .plain (some (chars.reverse ++ read)) rest := by
  induction h generalizing read with
  | nil => rfl
  | cons text chars texts others h _ ih =>
      rw [List.append_assoc, scan_fragment h, ih]
      simp

/-- A blank between words is passed over. -/
theorem scan_none_blank {c : Char} (h : Text.isBlank c = true) (rest : List Char) :
    scan .plain none (c :: rest) = scan .plain none rest := by
  obtain ⟨hsingle, hdouble, hback⟩ := blank_ne h
  rw [scan_plain_cons, if_neg hsingle, if_neg hdouble, if_neg hback, if_pos h]

/-- A blank after a word ends it. -/
theorem scan_some_blank {c : Char} (h : Text.isBlank c = true) (read rest : List Char) :
    scan .plain (some read) (c :: rest) = (scan .plain none rest).map (read.reverse :: ·) := by
  obtain ⟨hsingle, hdouble, hback⟩ := blank_ne h
  rw [scan_plain_cons, if_neg hsingle, if_neg hdouble, if_neg hback, if_pos h]

/-- Any number of blanks between words is passed over. -/
theorem scan_none_blanks {gap : List Char} (h : Blanks gap) (rest : List Char) :
    scan .plain none (gap ++ rest) = scan .plain none rest := by
  induction gap with
  | nil => rfl
  | cons c gap ih =>
      rw [List.cons_append, scan_none_blank (h c List.mem_cons_self),
        ih fun d hd => h d (List.mem_cons_of_mem _ hd)]

/-- One or more blanks after a word end it. -/
theorem scan_some_blanks {gap : List Char} (h : Blanks gap) (hne : gap ≠ [])
    (read rest : List Char) :
    scan .plain (some read) (gap ++ rest) =
      (scan .plain none rest).map (read.reverse :: ·) := by
  cases gap with
  | nil => exact absurd rfl hne
  | cons c gap =>
      rw [List.cons_append, scan_some_blank (h c List.mem_cons_self),
        scan_none_blanks fun d hd => h d (List.mem_cons_of_mem _ hd)]

/-- A line that is unfinished from some place on is refused there. -/
theorem scan_unfinished {text : List Char} {fault : Fault} (h : Unfinished text fault)
    (word : Option (List Char)) : scan .plain word text = .error fault := by
  cases h with
  | single chars h =>
      rw [scan_plain_cons, if_pos rfl, ← List.append_nil chars, scan_single h]
      rfl
  | double text chars h =>
      rw [scan_plain_cons, if_neg (by decide), if_pos rfl, ← List.append_nil text, scan_double h]
      rfl
  | doubleEscape text chars h =>
      rw [scan_plain_cons, if_neg (by decide), if_pos rfl, scan_double h]
      rfl
  | escape => rfl

/-! ## Taking a line apart -/

/-- A text without a closing single quote, or what stands before the first one. -/
theorem single_cases (text : List Char) :
    '\'' ∉ text ∨ ∃ chars rest, '\'' ∉ chars ∧ text = chars ++ '\'' :: rest := by
  by_cases h : '\'' ∈ text
  · obtain ⟨chars, rest, rfl, hchars⟩ := List.eq_append_cons_of_mem h
    exact .inr ⟨chars, rest, hchars, rfl⟩
  · exact .inl h

/-- A pair of a backslash and a character can be put in front of any run. -/
theorem DoubleRun.pair (c : Char) :
    ∃ kept, ∀ text chars, DoubleRun text chars → DoubleRun ('\\' :: c :: text) (kept ++ chars) := by
  cases hc : isDoubleQuoteEscape c with
  | true => exact ⟨[c], fun text chars h => .escape c text chars hc h⟩
  | false => exact ⟨['\\', c], fun text chars h => .backslash c text chars hc h⟩

/-- What can stand after a double quote: a run and the closing quote, a run without end, or one that
ends in a backslash. -/
def AfterDouble (text : List Char) : Prop :=
  (∃ run chars rest, DoubleRun run chars ∧ text = run ++ '"' :: rest) ∨
  (∃ chars, DoubleRun text chars) ∨
  ∃ run chars, DoubleRun run chars ∧ text = run ++ ['\\']

/-- What stands in front of every run may stand in front of what follows a double quote. -/
theorem AfterDouble.prepend (start kept : List Char) {text : List Char}
    (hrun : ∀ run chars, DoubleRun run chars → DoubleRun (start ++ run) (kept ++ chars))
    (h : AfterDouble text) : AfterDouble (start ++ text) := by
  rcases h with ⟨run, chars, rest, h, rfl⟩ | ⟨chars, h⟩ | ⟨run, chars, h, rfl⟩
  · exact .inl ⟨start ++ run, kept ++ chars, rest, hrun run chars h, by simp⟩
  · exact .inr (.inl ⟨kept ++ chars, hrun text chars h⟩)
  · exact .inr (.inr ⟨start ++ run, kept ++ chars, hrun run chars h, by simp⟩)

/-- Nothing else can stand after a double quote. -/
theorem double_cases : ∀ text : List Char, AfterDouble text
  | [] => .inr (.inl ⟨[], .nil⟩)
  | c :: text => by
      by_cases hquote : c = '"'
      · subst hquote
        exact .inl ⟨[], [], text, .nil, rfl⟩
      by_cases hback : c = '\\'
      · subst hback
        match text with
        | [] => exact .inr (.inr ⟨[], [], .nil, rfl⟩)
        | d :: text =>
            obtain ⟨kept, hpair⟩ := DoubleRun.pair d
            exact AfterDouble.prepend ['\\', d] kept hpair (double_cases text)
      · exact AfterDouble.prepend [c] [c]
          (fun run chars h => .char c run chars hquote hback h) (double_cases text)

/-- A line is empty, starts with a blank, starts with a complete fragment, or is unfinished. -/
theorem leading_cases (line : List Char) :
    line = [] ∨ (∃ c rest, Text.isBlank c = true ∧ line = c :: rest) ∨
    (∃ text chars rest, Fragment text chars ∧ line = text ++ rest) ∨
    ∃ fault, Unfinished line fault := by
  cases line with
  | nil => exact .inl rfl
  | cons c line =>
      refine .inr ?_
      by_cases hblank : Text.isBlank c = true
      · exact .inl ⟨c, line, hblank, rfl⟩
      refine .inr ?_
      by_cases hsingle : c = '\''
      · subst hsingle
        rcases single_cases line with h | ⟨chars, rest, h, rfl⟩
        · exact .inr ⟨_, .single line h⟩
        · exact .inl ⟨_, chars, rest, .single chars h, by simp⟩
      by_cases hdouble : c = '"'
      · subst hdouble
        rcases double_cases line with ⟨run, chars, rest, h, rfl⟩ | ⟨chars, h⟩ | ⟨run, chars, h, rfl⟩
        · exact .inl ⟨_, chars, rest, .double run chars h, by simp⟩
        · exact .inr ⟨_, .double line chars h⟩
        · exact .inr ⟨_, .doubleEscape run chars h⟩
      by_cases hback : c = '\\'
      · subst hback
        cases line with
        | nil => exact .inr ⟨_, .escape⟩
        | cons d line => exact .inl ⟨_, [d], line, .escaped d, rfl⟩
      · exact .inl ⟨[c], [c], line, .plain c ⟨by simpa using hblank, hsingle, hdouble, hback⟩, rfl⟩

/-! ## Splitting is reading the grammar -/

/-- What can stand between words: blanks to the end, or a line. -/
def Rest (text : List Char) (words : List (List Char)) : Prop :=
  (Blanks text ∧ words = []) ∨ Line text words

/-- What can stand after the characters `read` of a word, which are given in reverse: fragments that
complete it, and then the end or a blank and what can stand between words. -/
def OpenRest (read text : List Char) (words : List (List Char)) : Prop :=
  ∃ texts chars rest others, Fragments texts chars ∧ text = texts ++ rest ∧
    words = (read.reverse ++ chars) :: others ∧
    ((rest = [] ∧ others = []) ∨
      ∃ c tail, Text.isBlank c = true ∧ rest = c :: tail ∧ Rest tail others)

/-- A line may have one more blank in front. -/
theorem Line.cons_blank {c : Char} {text : List Char} {words : List (List Char)}
    (hc : Text.isBlank c = true) (h : Line text words) : Line (c :: text) words := by
  obtain ⟨before, inner, after, hbefore, hinner, hafter, rfl⟩ := h
  refine ⟨c :: before, inner, after, ?_, hinner, hafter, rfl⟩
  exact List.forall_mem_cons.mpr ⟨hc, hbefore⟩

/-- So may whatever can stand between words. -/
theorem Rest.cons_blank {c : Char} {text : List Char} {words : List (List Char)}
    (hc : Text.isBlank c = true) (h : Rest text words) : Rest (c :: text) words := by
  rcases h with ⟨hblanks, rfl⟩ | hline
  · exact .inl ⟨List.forall_mem_cons.mpr ⟨hc, hblanks⟩, rfl⟩
  · exact .inr (hline.cons_blank hc)

/-- A fragment goes in front of what completes a word. -/
theorem OpenRest.prepend {text chars read rest : List Char} {words : List (List Char)}
    (hfrag : Fragment text chars) (h : OpenRest (chars.reverse ++ read) rest words) :
    OpenRest read (text ++ rest) words := by
  obtain ⟨texts, more, tail, others, hfrags, rfl, rfl, htail⟩ := h
  refine ⟨text ++ texts, chars ++ more, tail, others, .cons _ _ _ _ hfrag hfrags, ?_, ?_, htail⟩
  · rw [List.append_assoc]
  · simp

/-- A fragment and what completes its word are a line. -/
theorem OpenRest.line {text chars rest : List Char} {words : List (List Char)}
    (hfrag : Fragment text chars) (h : OpenRest chars.reverse rest words) :
    Line (text ++ rest) words := by
  obtain ⟨texts, more, tail, others, hfrags, rfl, rfl, htail⟩ := h
  have hword : Word (text ++ texts) (chars.reverse.reverse ++ more) := by
    rw [List.reverse_reverse]
    exact .intro _ _ _ _ hfrag hfrags
  -- After the word come the end, blanks to the end, or blanks and a line.
  rcases htail with ⟨rfl, rfl⟩ | ⟨c, tail, hc, rfl, ⟨htail, rfl⟩ | htail⟩
  · exact ⟨[], text ++ texts, [], by simp [Blanks], .one _ _ hword, by simp [Blanks], by simp⟩
  · exact ⟨[], text ++ texts, c :: tail, by simp [Blanks], .one _ _ hword,
      List.forall_mem_cons.mpr ⟨hc, htail⟩, by simp⟩
  · obtain ⟨before, inner, after, hbefore, hinner, hafter, rfl⟩ := htail
    refine ⟨[], text ++ texts ++ (c :: before) ++ inner, after, by simp [Blanks],
      .more _ _ _ _ _ hword (List.forall_mem_cons.mpr ⟨hc, hbefore⟩) (by simp) hinner, hafter, ?_⟩
    simp

/-- No fragment is written with nothing. -/
theorem Fragment.ne_nil {text chars : List Char} (h : Fragment text chars) : text ≠ [] := by
  cases h <;> exact List.cons_ne_nil _ _

/-- Whatever the scanner accepts is what can stand between words, or after the characters of one. -/
theorem rest_of_scan (text : List Char) (words : List (List Char)) :
    (scan .plain none text = .ok words → Rest text words) ∧
    ∀ read, scan .plain (some read) text = .ok words → OpenRest read text words := by
  -- A fragment can be of any length, so the induction is on the length of what is left. Both parts
  -- go together: a blank leads out of a word, and a fragment into one.
  induction hlen : text.length using Nat.strongRecOn generalizing text words with
  | ind n ih =>
      subst hlen
      rcases leading_cases text with rfl | ⟨c, rest, hc, rfl⟩ | ⟨text, chars, rest, hfrag, rfl⟩ |
        ⟨fault, hfault⟩
      · refine ⟨fun h => .inl ⟨by simp [Blanks], ?_⟩, fun read h => ?_⟩
        · cases h
          rfl
        · cases h
          exact ⟨[], [], [], [], .nil, rfl, by simp, .inl ⟨rfl, rfl⟩⟩
      · have hlen : rest.length < (c :: rest).length := by
          rw [List.length_cons]
          omega
        have hrest := ih rest.length hlen rest
        refine ⟨fun h => ?_, fun read h => ?_⟩
        · rw [scan_none_blank hc] at h
          exact ((hrest words rfl).1 h).cons_blank hc
        · rw [scan_some_blank hc] at h
          cases hothers : scan .plain none rest with
          | error fault => simp [hothers, Except.map] at h
          | ok others =>
              rw [hothers] at h
              cases h
              exact ⟨[], [], _, others, .nil, rfl, by simp,
                .inr ⟨c, rest, hc, rfl, (hrest others rfl).1 hothers⟩⟩
      · have hlen : rest.length < (text ++ rest).length := by
          have hpos := List.length_pos_iff.mpr hfrag.ne_nil
          rw [List.length_append]
          omega
        have hrest := (ih rest.length hlen rest words rfl).2
        refine ⟨fun h => ?_, fun read h => ?_⟩
        · rw [scan_fragment hfrag] at h
          exact .inr (OpenRest.line hfrag (hrest _ (by simpa using h)))
        · rw [scan_fragment hfrag] at h
          exact (hrest _ h).prepend hfrag
      · refine ⟨fun h => ?_, fun read h => ?_⟩
        · rw [scan_unfinished hfault] at h
          cases h
        · rw [scan_unfinished hfault] at h
          cases h

/-- The scanner passes over a word. -/
theorem scan_word {text word : List Char} (h : Word text word) (rest : List Char) :
    scan .plain none (text ++ rest) = scan .plain (some word.reverse) rest := by
  cases h with
  | intro text chars texts more hfrag hfrags =>
      rw [List.append_assoc, scan_fragment hfrag, scan_fragments hfrags]
      simp

/-- Words with blanks behind them are read as those words. -/
theorem scan_words {text after : List Char} {words : List (List Char)} (h : Words text words)
    (hafter : Blanks after) : scan .plain none (text ++ after) = .ok words := by
  induction h with
  | one text word h =>
      rw [scan_word h]
      cases after with
      | nil => simp [scan, Mode.faultAtEnd?]
      | cons c after =>
          rw [← List.append_nil (c :: after), scan_some_blanks hafter (by simp)]
          simp [scan, Mode.faultAtEnd?, Except.map]
  | more text word gap texts words h hgap hne _ ih =>
      rw [List.append_assoc, List.append_assoc, scan_word h, scan_some_blanks hgap hne, ih]
      simp [Except.map]

/-- A line has a word. -/
theorem Line.ne_nil {text : List Char} {words : List (List Char)} (h : Line text words) :
    words ≠ [] := by
  obtain ⟨_, _, _, _, hinner, _, _⟩ := h
  cases hinner <;> simp

/-- Splitting characters gives words exactly when the characters are a line of those words. -/
theorem splitChars_eq_ok_iff {text : List Char} {words : List (List Char)} :
    splitChars text = .ok words ↔ Line text words := by
  constructor
  · intro h
    cases hscan : scan .plain none text with
    | error fault => simp [splitChars, hscan] at h
    | ok found =>
        cases found with
        | nil => simp [splitChars, hscan] at h
        | cons word others =>
            obtain rfl : word :: others = words := by simpa [splitChars, hscan] using h
            rcases (rest_of_scan text _).1 hscan with ⟨_, hnil⟩ | hline
            · cases hnil
            · exact hline
  · intro h
    have hne := h.ne_nil
    obtain ⟨before, inner, after, hbefore, hinner, hafter, rfl⟩ := h
    have hscan : scan .plain none (before ++ inner ++ after) = .ok words := by
      rw [List.append_assoc, scan_none_blanks hbefore, scan_words hinner hafter]
    cases words with
    | nil => exact absurd rfl hne
    | cons word others => rw [splitChars, hscan]

end ScriptHost.CommandLine
