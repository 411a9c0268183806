import Mathlib.Data.List.Infix
import ScriptHost.Proofs.Diagnostic.Printing

/-!
# Reading what compilers print

How the parts of a line are read off a text that was put together from them: lines, numerals, words,
file names, and then the lines of the layouts one by one. A file name ends at the first colon after
it, because nothing that may follow it is accepted anywhere before.
-/

namespace ScriptHost.Diagnostic

/-! ## Lines -/

/-- A text before a line feed is read as one line. -/
theorem linesFrom_append {text : List Char} (h : '\n' ∉ text) (current rest : List Char) :
    Text.linesFrom current (text ++ '\n' :: rest) =
      lineOf (current.reverse ++ text) :: Text.linesFrom [] rest := by
  induction text generalizing current with
  | nil =>
      rw [List.nil_append, List.append_nil]
      cases current with
      | nil => rfl
      | cons c before =>
          by_cases hc : c = '\r'
          · subst hc
            simp [Text.linesFrom, lineOf]
          · simp [Text.linesFrom, lineOf, hc]
  | cons c text ih =>
      have hc : c ≠ '\n' := fun heq => h (heq ▸ List.mem_cons_self)
      have htext : '\n' ∉ text := fun hmem => h (List.mem_cons_of_mem _ hmem)
      rw [List.cons_append, Text.linesFrom, ih htext, List.reverse_cons, List.append_assoc]
      · rfl
      · exact hc

/-- The lines of texts that are each ended by a line feed. -/
theorem lines_flatMap {texts : List (List Char)} (h : ∀ text ∈ texts, '\n' ∉ text) :
    Text.lines (texts.flatMap (· ++ ['\n'])) = texts.map lineOf := by
  induction texts with
  | nil => rfl
  | cons text texts ih =>
      have hrest := ih fun other hother => h other (List.mem_cons_of_mem _ hother)
      rw [List.flatMap_cons, List.append_assoc, List.singleton_append, Text.lines,
        linesFrom_append (h text List.mem_cons_self), List.map_cons, ← hrest]
      rfl

/-- A text that does not end in a carriage return is read as it is. -/
theorem lineOf_eq_self {text : List Char} (h : text.getLast? ≠ some '\r') : lineOf text = text :=
  if_neg h

/-! ## Numerals -/

/-- An ASCII digit is a decimal digit. -/
theorem isDecimalDigit_of_ascii {c : Char} (h : '0' ≤ c ∧ c ≤ '9') :
    Text.isDecimalDigit c = true := by
  have hlow : 48 ≤ c.toNat := h.1
  have hhigh : c.toNat ≤ 57 := h.2
  rw [Text.isDecimalDigit]
  generalize c.toNat = n at *
  obtain rfl | rfl | rfl | rfl | rfl | rfl | rfl | rfl | rfl | rfl :
      n = 48 ∨ n = 49 ∨ n = 50 ∨ n = 51 ∨ n = 52 ∨ n = 53 ∨ n = 54 ∨ n = 55 ∨ n = 56 ∨ n = 57 := by
    omega
  all_goals rfl

/-- What is no ASCII digit is not in a numeral. -/
theorem Numeral.not_mem_digits (n : Numeral) {c : Char} (h : ¬ ('0' ≤ c ∧ c ≤ '9')) :
    c ∉ n.digits :=
  fun hc => h (n.ascii c hc)

/-- A run of digits is read off, where it ends. -/
theorem digits?_run {run rest : List Char} (hne : run ≠ [])
    (hrun : ∀ c ∈ run, Text.isDecimalDigit c = true)
    (hrest : rest.head?.any Text.isDecimalDigit = false) :
    digits? (run ++ rest) = some (run, rest) := by
  have htake : rest.takeWhile Text.isDecimalDigit = [] := by
    cases rest with
    | nil => rfl
    | cons c rest => exact List.takeWhile_cons_of_neg (by simpa using hrest)
  have hdrop : rest.dropWhile Text.isDecimalDigit = rest := by
    cases rest with
    | nil => rfl
    | cons c rest => exact List.dropWhile_cons_of_neg (by simpa using hrest)
  rw [digits?, List.takeWhile_append_of_pos hrun, List.dropWhile_append_of_pos hrun, htake, hdrop,
    List.append_nil, if_neg (by simp [hne])]

/-- The digits before a text that does not start with a digit are read off. -/
theorem digits?_of_head (n : Numeral) {rest : List Char}
    (hrest : rest.head?.any Text.isDecimalDigit = false) :
    digits? (n.digits ++ rest) = some (n.digits, rest) :=
  digits?_run n.ne_nil (fun c hc => isDecimalDigit_of_ascii (n.ascii c hc)) hrest

/-- The digits before a word that starts with another character are read off. -/
theorem digits?_append (n : Numeral) {word : String}
    (h : word.toList.head?.all Text.isDecimalDigit = false) (rest : List Char) :
    digits? (n.digits ++ (word.toList ++ rest)) = some (n.digits, word.toList ++ rest) := by
  refine digits?_of_head n ?_
  generalize word.toList = start at h
  cases start with
  | nil => exact absurd h (by simp)
  | cons c start => simpa using h

/-- The digits at the end of a text are read off. -/
theorem digits?_end (n : Numeral) : digits? n.digits = some (n.digits, []) := by
  have h : digits? (n.digits ++ []) = some (n.digits, []) := digits?_of_head n rfl
  rwa [List.append_nil] at h

/-- The values of ASCII digits are read off. -/
theorem mapM_asciiDigit? {digits : List Char} (h : ∀ c ∈ digits, '0' ≤ c ∧ c ≤ '9') :
    digits.mapM asciiDigit? = some (digits.map fun c => c.toNat - '0'.toNat) := by
  induction digits with
  | nil => rfl
  | cons c digits ih =>
      have hc : asciiDigit? c = some (c.toNat - '0'.toNat) := if_pos (h c List.mem_cons_self)
      have hrest := ih fun d hd => h d (List.mem_cons_of_mem _ hd)
      rw [List.mapM_cons, hc, hrest]
      rfl

/-- Digits that are read from the highest on are worth the same as from the lowest on. -/
theorem foldl_digits (ds : List Nat) :
    ds.foldl (fun n d => 10 * n + d) 0 = Nat.ofDigits 10 ds.reverse := by
  rw [Nat.ofDigits_eq_foldr, List.foldr_reverse]
  simp only [Nat.cast_id, Nat.add_comm]

/-- The digits of a numeral are read as its position. -/
theorem number_digits (n : Numeral) : number n.digits = n.position := by
  rw [number, mapM_asciiDigit? n.ascii]
  simp only [foldl_digits, ← List.map_reverse]
  rfl

/-! ## Beginnings of a line -/

/-- What follows a given text is read off. -/
theorem after?_append (word : String) (rest : List Char) :
    after? word (word.toList ++ rest) = some rest := by
  rw [after?, List.isPrefixOf?_eq_some_iff_append_eq]

/-- What is read after a given text follows it. -/
theorem append_of_after? {word : String} {cs rest : List Char} (h : after? word cs = some rest) :
    word.toList ++ rest = cs :=
  List.isPrefixOf?_eq_some_iff_append_eq.mp h

/-- A text that starts with another character than the one that is asked for is refused. -/
theorem after?_of_head {word : String} {c : Char} {word' : List Char} (h : word.toList = c :: word')
    {cs : List Char} (hcs : cs.head? ≠ some c) : after? word cs = none := by
  refine Option.eq_none_iff_forall_not_mem.mpr fun rest hrest => hcs ?_
  rw [← append_of_after? hrest, h]
  rfl

/-! ## File names -/

/-- The shortest head of a line that starts with a file name is the file name, where everything that
is accepted starts with a colon. -/
theorem shortestHead_file {α : Type} {accept : List Char → Option α}
    (haccept : ∀ cs, cs.head? ≠ some ':' → accept cs = none) (file : FileName) {rest : List Char}
    {a : α} (h : accept rest = some a) :
    shortestHead accept [] (file.chars ++ rest) = some (file.chars, a) := by
  have hread : ∀ (chars before : List Char), chars ≠ [] → ':' ∉ chars →
      shortestHead accept before (chars ++ rest) = some (before.reverse ++ chars, a) := by
    intro chars
    induction chars with
    | nil => intro before hne; exact absurd rfl hne
    | cons c chars ih =>
        intro before _ hcolon
        rw [List.cons_append, shortestHead]
        cases chars with
        | nil => simp [h]
        | cons d chars =>
            -- the head could end here only if the name went on with a colon
            have hd : d ≠ ':' := fun heq => hcolon (by simp [heq])
            rw [haccept _ (by simp [hd])]
            simp only []
            rw [ih (c :: before) (List.cons_ne_nil _ _)
              fun hmem => hcolon (List.mem_cons_of_mem _ hmem)]
            simp
  exact hread file.chars [] file.ne_nil file.no_colon

/-! ## Located lines -/

/-- Every severity is read where a column stands before it. -/
theorem kind?_column (severity : Severity) (message : List Char) :
    kind? columnKinds (severity.word ++ (": ".toList ++ message)) =
      some (severity.kind, message) := by
  cases severity <;> rfl

/-- Every severity but one is read where no column stands before it. -/
theorem kind?_line {severity : Severity} (h : severity ≠ .fatalError) (message : List Char) :
    kind? lineKinds (severity.word ++ (": ".toList ++ message)) =
      some (severity.kind, message) := by
  cases severity with
  | fatalError => exact absurd rfl h
  | error | warning | mandatoryWarning | note => rfl

/-- The message of a located line with a column is read. -/
theorem locatedColumn?_located (file : FileName) (line column : Numeral) (severity : Severity)
    (message : Message) :
    locatedColumn? (Item.located file line column severity message).firstLine =
      (Item.located file line column severity message).diagnostic? := by
  have hstart (cs : List Char) (hcs : cs.head? ≠ some ':') : columnTail? cs = none := by
    rw [columnTail?, after?_of_head rfl hcs]
    rfl
  have htail : columnTail? (":".toList ++ (line.digits ++ (":".toList ++ (column.digits ++
      (": ".toList ++ (severity.word ++ (": ".toList ++ message.chars))))))) =
        some (line.position, column.position, severity.kind, message.chars) := by
    simp (disch := decide) only [columnTail?, digits?_append, after?_append, kind?_column,
      number_digits, Option.bind_eq_bind, Option.bind_some, Option.pure_def]
  exact congrArg (Option.map _) (shortestHead_file hstart file htail)

/-- The message of a located line without a column is read. -/
theorem located?_caret (file : FileName) (line : Numeral) {severity : Severity}
    (h : severity ≠ .fatalError) (message : Message) (echo : List Char) (indent trail : Nat) :
    located? (Item.caret file line severity message echo indent trail).firstLine =
      some ⟨severity.kind, some (.ofList file.chars), .ofList message.chars, line.position, 0⟩ := by
  have hstart (cs : List Char) (hcs : cs.head? ≠ some ':') : lineTail? cs = none := by
    rw [lineTail?, after?_of_head rfl hcs]
    rfl
  have htail : lineTail? (":".toList ++ (line.digits ++ (": ".toList ++
      (severity.word ++ (": ".toList ++ message.chars))))) =
        some (line.position, severity.kind, message.chars) := by
    simp (disch := decide) only [lineTail?, digits?_append, after?_append, kind?_line h,
      number_digits, Option.bind_eq_bind, Option.bind_some, Option.pure_def]
  exact congrArg (Option.map _) (shortestHead_file hstart file htail)

/-- The column of a caret between spaces is read. -/
theorem caretColumn?_spaces (indent trail : Nat) :
    caretColumn? (List.replicate indent ' ' ++ '^' :: List.replicate trail ' ') =
      some (indent + 1) := by
  have hspace : ∀ n, ∀ c ∈ List.replicate n ' ', Text.isBlank c = true :=
    fun n c hc => List.eq_of_mem_replicate hc ▸ rfl
  have hcaret : ¬ Text.isBlank '^' = true := by decide
  rw [caretColumn?, List.takeWhile_append_of_pos (hspace indent),
    List.dropWhile_append_of_pos (hspace indent), List.takeWhile_cons_of_neg hcaret,
    List.dropWhile_cons_of_neg hcaret]
  simp only [List.all_eq_true.mpr (hspace trail), List.append_nil, List.map_replicate]
  have hsum : ∀ n, (List.replicate n (Char.utf8Size ' ')).foldr (· + ·) 1 = n + 1 := by
    intro n
    induction n with
    | zero => rfl
    | succ n ih =>
        have hsize : Char.utf8Size ' ' = 1 := rfl
        rw [List.replicate_succ, List.foldr_cons, ih, hsize]
        omega
  rw [if_pos trivial, hsum]

/-! ## Bare lines and arrows -/

/-- A code in square brackets is skipped. -/
theorem skipCode_bracketed (code : Option ErrorCode) (rest : List Char) :
    skipCode (bracketed code ++ (": ".toList ++ rest)) = ": ".toList ++ rest := by
  cases code with
  | none => rfl
  | some code =>
      have hopen (cs : List Char) : after? "[" ('[' :: cs) = some cs := rfl
      have hclose : ¬ Text.isWordChar ']' = true := by decide +kernel
      have hclosed (cs : List Char) : after? "]" (']' :: cs) = some cs := rfl
      obtain ⟨c, chars, hchars⟩ := List.exists_cons_of_ne_nil code.ne_nil
      rw [skipCode, bracketed, List.cons_append, hopen, List.append_assoc, List.singleton_append]
      simp only []
      rw [List.takeWhile_append_of_pos code.word, List.dropWhile_append_of_pos code.word,
        List.takeWhile_cons_of_neg hclose, List.dropWhile_cons_of_neg hclose, List.append_nil,
        hclosed, hchars]

/-- The message of a bare line is read, whether there is a code or not. -/
theorem bare?_word {severity : Severity} (h : severity ∈ [.error, .warning, .note])
    (code : Option ErrorCode) (message : List Char) :
    bare? (severity.word ++ (bracketed code ++ (": ".toList ++ message))) =
      some ⟨severity.kind, none, .ofList message, 0, 0⟩ := by
  have hcode (cs : List Char) : after? ": " (": ".toList ++ cs) = some cs := rfl
  cases severity with
  | error =>
      have herror (cs : List Char) : after? "error" (Severity.error.word ++ cs) = some cs := rfl
      simp only [bare?, bareKinds, List.findSome?_cons, herror, skipCode_bracketed, hcode,
        Option.bind_eq_bind, Option.bind_some, Option.pure_def]
      rfl
  | warning =>
      have herror (cs : List Char) : after? "error" (Severity.warning.word ++ cs) = none := rfl
      have hwarning (cs : List Char) :
          after? "warning" (Severity.warning.word ++ cs) = some cs := rfl
      simp only [bare?, bareKinds, List.findSome?_cons, herror, hwarning, skipCode_bracketed, hcode,
        Option.bind_eq_bind, Option.bind_some, Option.bind_none, Option.pure_def]
      rfl
  | note =>
      have herror (cs : List Char) : after? "error" (Severity.note.word ++ cs) = none := rfl
      have hwarning (cs : List Char) : after? "warning" (Severity.note.word ++ cs) = none := rfl
      have hnote (cs : List Char) : after? "note" (Severity.note.word ++ cs) = some cs := rfl
      simp only [bare?, bareKinds, List.findSome?_cons, herror, hwarning, hnote, skipCode_bracketed,
        hcode, Option.bind_eq_bind, Option.bind_some, Option.bind_none, Option.pure_def]
      rfl
  | fatalError => simp at h
  | mandatoryWarning => simp at h

/-- The position that an arrow points at is read. -/
theorem arrow?_position (file : FileName) (line column : Numeral) :
    arrow? (" --> ".toList ++ (file.chars ++ (":".toList ++ (line.digits ++
      (":".toList ++ column.digits))))) =
        some (.ofList file.chars, line.position, column.position) := by
  have hstart (cs : List Char) (hcs : cs.head? ≠ some ':') : arrowPosition? cs = none := by
    rw [arrowPosition?, after?_of_head rfl hcs]
    rfl
  have htail : arrowPosition? (":".toList ++ (line.digits ++ (":".toList ++ column.digits))) =
      some (line.position, column.position) := by
    simp (disch := decide) only [arrowPosition?, digits?_append, digits?_end, after?_append,
      number_digits, Option.bind_eq_bind, Option.bind_some, List.all_nil, if_pos]
  have hblank (cs : List Char) :
      after? "--> " ((" --> ".toList ++ cs).dropWhile Text.isBlank) = some cs := rfl
  simp only [arrow?, hblank, shortestHead_file hstart file htail, Option.bind_eq_bind,
    Option.bind_some, Option.pure_def]

/-- A line that starts with a file name and a colon is no arrow. -/
theorem arrow?_file (file : FileName) (rest : List Char) :
    arrow? (file.chars ++ ':' :: rest) = none := by
  have hnone : after? "--> " ((file.chars ++ ':' :: rest).dropWhile Text.isBlank) = none := by
    refine Option.eq_none_iff_forall_not_mem.mpr fun tail htail => ?_
    have happend := append_of_after? htail
    have hcolon : ¬ Text.isBlank ':' = true := by decide
    have hfile : ¬ "-->".toList <:+: file.chars.dropWhile Text.isBlank :=
      fun h => file.no_arrow (h.trans (List.dropWhile_suffix _).isInfix)
    rw [List.dropWhile_append] at happend
    split at happend
    · rw [List.dropWhile_cons_of_neg hcolon] at happend
      exact absurd (List.cons.inj happend).1 (by decide)
    · obtain ⟨middle, hname, -⟩ | ⟨middle, hword, hrest⟩ := List.append_eq_append_iff.mp happend
      · exact hfile ⟨[], ' ' :: middle, hname.symm⟩
      · cases middle with
        | nil => exact hfile ⟨[], [' '], hword.trans (List.append_nil _)⟩
        | cons c middle =>
            obtain rfl : ':' = c := (List.cons.inj hrest).1
            have hmem : ':' ∈ "--> ".toList := by simp [hword]
            exact absurd hmem (by decide)
  simp only [arrow?, hnone, Option.bind_eq_bind, Option.bind_none]

/-! ## Scripted lines -/

/-- The longest head of a text is what stands before the last rest that is accepted. -/
theorem longestHead_append {α : Type} {accept : List Char → Option α} {tail : List Char} {a : α}
    (h : accept tail = some a) (hlast : ∀ before, longestHead accept before tail = none)
    {cs : List Char} (hcs : cs ≠ []) (before : List Char) :
    longestHead accept before (cs ++ tail) = some (before.reverse ++ cs, a) := by
  induction cs generalizing before with
  | nil => exact absurd rfl hcs
  | cons c cs ih =>
      rw [List.cons_append, longestHead]
      cases cs with
      | nil => simp [hlast, h]
      | cons d cs =>
          rw [ih (List.cons_ne_nil _ _)]
          simp

/-- There is no head where no rest is accepted. -/
theorem longestHead_eq_none {α : Type} {accept : List Char → Option α} {cs : List Char}
    (h : ∀ rest, rest <:+ cs.tail → accept rest = none) (before : List Char) :
    longestHead accept before cs = none := by
  induction cs generalizing before with
  | nil => rfl
  | cons c cs ih =>
      rw [longestHead, ih fun rest hrest => h rest (hrest.trans (List.tail_suffix cs)),
        h cs List.suffix_rfl]
      rfl

/-- Inside the end of a scripted line no other end starts. -/
theorem scriptedPosition?_suffix {inner rest : List Char} (h : '@' ∉ inner)
    (hrest : rest <:+ '@' :: inner) : scriptedPosition? rest = none := by
  have hnone : after? " @ line " rest = none := by
    refine Option.eq_none_iff_forall_not_mem.mpr fun tail htail => ?_
    obtain rfl := append_of_after? htail
    obtain heq | hinner := List.suffix_cons_iff.mp hrest
    · exact absurd (List.cons.inj heq).1 (by decide)
    · exact h (hinner.subset (List.mem_append_left _ (by decide)))
  simp only [scriptedPosition?, hnone, Option.bind_eq_bind, Option.bind_none]

/-- The message of a scripted line is read. -/
theorem scripted?_scripted (file : FileName) (number : Numeral) {message : Message}
    (hne : message.chars ≠ []) (htrim : Text.trim message.chars = message.chars)
    (line column : Numeral) :
    scripted? (Item.scripted file number message line column).firstLine =
      (Item.scripted file number message line column).diagnostic? := by
  have hstart (cs : List Char) (hcs : cs.head? ≠ some ':') : scriptedTail? cs = none := by
    rw [scriptedTail?, after?_of_head rfl hcs]
    rfl
  have hstop : digits? (column.digits ++ ".".toList) = some (column.digits, ".".toList) :=
    digits?_of_head column rfl
  have hdot : after? "." ".".toList = some [] := rfl
  have hposition : scriptedPosition? (" @ line ".toList ++ (line.digits ++ (", column ".toList ++
      (column.digits ++ ".".toList)))) = some (line.position, column.position) := by
    simp (disch := decide) only [scriptedPosition?, digits?_append, after?_append, number_digits,
      hstop, hdot, Option.getD_some, Option.bind_eq_bind, Option.bind_some, List.all_nil, if_pos]
  have hinner : '@' ∉ " line ".toList ++ (line.digits ++ (", column ".toList ++
      (column.digits ++ ".".toList))) := by
    simp [line.not_mem_digits, column.not_mem_digits]
  have hmessage := longestHead_append hposition
    (longestHead_eq_none fun _ hrest => scriptedPosition?_suffix hinner hrest) hne []
  have htail : scriptedTail? (": ".toList ++ (number.digits ++ (": ".toList ++ (message.chars ++
      (" @ line ".toList ++ (line.digits ++ (", column ".toList ++
        (column.digits ++ ".".toList)))))))) =
      some (message.chars, line.position, column.position) := by
    simp (disch := decide) only [scriptedTail?, digits?_append, after?_append, hmessage,
      Option.bind_eq_bind, Option.bind_some]
    rfl
  refine (congrArg (Option.map _) (shortestHead_file hstart file htail)).trans ?_
  simp only [Option.map_some, htrim, Item.diagnostic?]

end ScriptHost.Diagnostic
