import ScriptHost.Proofs.Compiler.Verdict
import ScriptHost.Proofs.Diagnostic.Reading

/-!
# Diagnostics on two streams

The diagnostics of a process are read from one text, the standard output with the standard error
behind it. `ProcessOutput.announced_streams` says when that is the same as reading the two streams
apart: when the standard output does not stop in the middle of a line, and no message of it takes a
caret or an arrow from the standard error. It also says what is lost otherwise.
-/

namespace ScriptHost

namespace Diagnostic

/-! ## Texts that end with a line -/

/-- A text does not stop in the middle of a line. -/
def Finished (text : String) : Prop :=
  text = "" ∨ text.toList.getLast? = some '\n'

instance (text : String) : Decidable (Finished text) :=
  inferInstanceAs (Decidable (_ ∨ _))

/-- Behind a line feed the lines start anew. -/
theorem linesFrom_finished (current before rest : List Char) :
    Text.linesFrom current (before ++ '\n' :: rest) =
      Text.linesFrom current (before ++ ['\n']) ++ Text.lines rest := by
  induction before generalizing current with
  | nil =>
      have hline := linesFrom_append (List.not_mem_nil (a := '\n')) current
      exact (hline rest).trans (congrArg (· ++ Text.lines rest) (hline [])).symm
  | cons c before ih =>
      by_cases hc : c = '\n'
      · have hline := linesFrom_append (List.not_mem_nil (a := '\n')) current
        simp only [List.nil_append, List.append_nil] at hline
        rw [hc, List.cons_append, List.cons_append, hline, hline, ih, List.cons_append]
      · rw [List.cons_append, List.cons_append, Text.linesFrom, Text.linesFrom, ih]
        · exact hc
        · exact hc

/-- The lines of a finished text and of a text behind it are the lines of both. -/
theorem lines_append {whole : String} (h : Finished whole) (rest : String) :
    Text.lines (whole ++ rest).toList = Text.lines whole.toList ++ Text.lines rest.toList := by
  rw [String.toList_append]
  rcases h with rfl | hlast
  · rfl
  · obtain ⟨before, hbefore⟩ := List.getLast?_eq_some_iff.mp hlast
    rw [hbefore, List.append_assoc, List.singleton_append]
    exact linesFrom_finished [] before rest.toList

/-! ## Announcements -/

/-- A diagnostic says the same as another, but of another place. -/
structure Moved (alone completed : Diagnostic) : Prop where
  kind : completed.kind = alone.kind
  message : completed.message = alone.message
  place : completed ≠ alone

/-- The lines that announce a diagnostic, each as its form with the lines below it. A line that
belongs to the message above it announces nothing. -/
def announcements : List (List Char) → List (Form × List (List Char))
  | [] => []
  | line :: rest =>
    match Form.ofLine? line with
    | none => announcements rest
    | some form => (form, rest) :: announcements (rest.drop (form.complete rest).2)
termination_by lines => lines.length

/-- The diagnostics of lines are those of the announcing ones, each completed by the lines below. -/
theorem ofLines_eq_map (lines : List (List Char)) :
    ofLines lines = (announcements lines).map fun a => (a.1.complete a.2).1 := by
  induction lines using ofLines.induct with
  | case1 => simp [ofLines, announcements]
  | case2 line rest hform ih =>
      rw [ofLines, announcements, hform]
      exact ih
  | case3 line rest form hform ih =>
      rw [ofLines, announcements, hform]
      exact congrArg _ ih

/-- No more diagnostics are announced than there are lines. -/
theorem length_ofLines_le (lines : List (List Char)) : (ofLines lines).length ≤ lines.length := by
  induction lines using ofLines.induct with
  | case1 => simp [ofLines]
  | case2 line rest hform ih =>
      rw [ofLines, hform]
      exact ih.trans (Nat.le_succ _)
  | case3 line rest form hform ih =>
      rw [ofLines, hform, List.length_cons, List.length_cons]
      rw [List.length_drop] at ih
      omega

namespace Form

/-- A message takes its position from the lines of `back`, because those of its own text below it
come to an end: a located one from a caret, a bare one from an arrow. -/
def Reaches (below back : List (List Char)) : Form → Prop
  | .located _ => below.length < 2 ∧ (back[1 - below.length]?.bind caretColumn?).isSome
  | .bare _ => below = [] ∧ (back.head?.bind arrow?).isSome
  | _ => False

instance (below back : List (List Char)) : (form : Form) → Decidable (form.Reaches below back)
  | .located _ | .bare _ => inferInstanceAs (Decidable (_ ∧ _))
  | .scripted _ | .locatedColumn _ | .note _ => inferInstanceAs (Decidable False)

variable {below back : List (List Char)} {form : Form}

/-- The lines that belong to a message are there. -/
theorem complete_snd_le (form : Form) (below : List (List Char)) :
    (form.complete below).2 ≤ below.length := by
  cases form with
  | located d =>
      rw [complete]
      split
      · rename_i column hcolumn
        obtain ⟨line, hline, -⟩ := Option.bind_eq_some_iff.mp hcolumn
        exact (List.getElem?_eq_some_iff.mp hline).1
      · exact Nat.zero_le _
  | bare d =>
      rw [complete]
      split
      · rename_i file row column harrow
        obtain ⟨line, hline, -⟩ := Option.bind_eq_some_iff.mp harrow
        cases below with
        | nil => cases hline
        | cons => simp
      · exact Nat.zero_le _
  | scripted | locatedColumn | note => exact Nat.zero_le _

/-- A message that does not reach further lines is completed without them. -/
theorem complete_append (h : ¬ form.Reaches below back) :
    form.complete (below ++ back) = form.complete below := by
  cases form with
  | located d =>
      have hcaret : (below ++ back)[1]?.bind caretColumn? = below[1]?.bind caretColumn? := by
        by_cases hlength : below.length < 2
        · have hnone : (back[1 - below.length]?.bind caretColumn?) = none :=
            Option.not_isSome_iff_eq_none.mp fun hsome => h ⟨hlength, hsome⟩
          rw [List.getElem?_append_right (by omega), hnone, List.getElem?_eq_none (by omega)]
          rfl
        · rw [List.getElem?_append_left (by omega)]
      rw [complete, complete, hcaret]
  | bare d =>
      have harrow : (below ++ back).head?.bind arrow? = below.head?.bind arrow? := by
        cases below with
        | nil => exact Option.not_isSome_iff_eq_none.mp fun hsome => h ⟨rfl, hsome⟩
        | cons => rfl
      rw [complete, complete, harrow]
  | scripted | locatedColumn | note => rfl

/-- A caret points at a column from one on. -/
theorem caretColumn?_pos {line : List Char} {column : Nat} (h : caretColumn? line = some column) :
    0 < column := by
  have hpos (sizes : List Nat) : 0 < sizes.foldr (· + ·) 1 := by
    induction sizes with
    | nil => exact Nat.one_pos
    | cons size sizes ih => exact Nat.add_pos_right size ih
  unfold caretColumn? at h
  simp only at h
  split at h
  · split_ifs at h
    obtain rfl := Option.some.inj h
    exact hpos _
  · cases h

/-- A located line does not give the column. -/
theorem column_of_located {line : List Char} {d : Diagnostic}
    (h : ofLine? line = some (.located d)) : d.column = 0 := by
  have hread : scripted? line = none ∧ locatedColumn? line = none ∧ located? line = some d := by
    simpa [ofLine?] using h
  obtain ⟨parts, -, rfl⟩ := Option.map_eq_some_iff.mp hread.2.2
  rfl

/-- A bare line does not give the source. -/
theorem source_of_bare {line : List Char} {d : Diagnostic}
    (h : ofLine? line = some (.bare d)) : d.source = none := by
  have hread : scripted? line = none ∧ locatedColumn? line = none ∧ located? line = none ∧
      bare? line = some d := by
    simpa [ofLine?] using h
  obtain ⟨word, -, hword⟩ := List.exists_of_findSome?_eq_some hread.2.2.2
  simp only [Option.bind_eq_bind, Option.bind_eq_some_iff, Option.pure_def,
    Option.some.injEq] at hword
  obtain ⟨_, -, _, -, rfl⟩ := hword
  rfl

/-- A message that reaches further lines gets its place from them, and takes one or two of them.
Without them, no line below it belongs to it. -/
theorem complete_of_reaches {line : List Char} (hform : ofLine? line = some form)
    (h : form.Reaches below back) :
    (form.complete below).2 = 0 ∧
      Moved (form.complete below).1 (form.complete (below ++ back)).1 ∧
      ∃ taken, (form.complete (below ++ back)).2 = below.length + taken ∧ 1 ≤ taken ∧
        below.length + taken ≤ 2 := by
  cases form with
  | located d =>
      obtain ⟨hlength, hsome⟩ := h
      obtain ⟨column, hcolumn⟩ := Option.isSome_iff_exists.mp hsome
      have halone : below[1]?.bind caretColumn? = none := by
        rw [List.getElem?_eq_none (by omega)]
        rfl
      have hboth : (below ++ back)[1]?.bind caretColumn? = some column := by
        rw [List.getElem?_append_right (by omega), hcolumn]
      simp only [complete, halone, hboth]
      refine ⟨trivial, ⟨rfl, rfl, fun heq => ?_⟩, 2 - below.length, by omega, by omega, by omega⟩
      have hzero : column = 0 := (congrArg Diagnostic.column heq).trans (column_of_located hform)
      obtain ⟨caret, -, hcaret⟩ := Option.bind_eq_some_iff.mp hcolumn
      exact absurd hzero (caretColumn?_pos hcaret).ne'
  | bare d =>
      obtain ⟨rfl, hsome⟩ := h
      obtain ⟨⟨file, row, column⟩, harrow⟩ := Option.isSome_iff_exists.mp hsome
      simp only [complete, List.nil_append, harrow]
      refine ⟨rfl, ⟨rfl, rfl, fun heq => ?_⟩, 1, rfl, Nat.le_refl 1, Nat.le_succ 1⟩
      have hsource := (congrArg Diagnostic.source heq).trans (source_of_bare hform)
      cases hsource
  | scripted | locatedColumn | note => exact h.elim

end Form

/-! ## Reading two texts -/

/-- Some message in the lines of `front` takes its position from the lines of `back`. -/
def Reaches (front back : List (List Char)) : Prop :=
  ∃ announcement ∈ announcements front, announcement.1.Reaches announcement.2 back

instance (front back : List (List Char)) : Decidable (Reaches front back) :=
  inferInstanceAs (Decidable (∃ announcement ∈ announcements front, _))

variable {front back : List (List Char)}

/-- Where no message takes its position from the lines behind, those are read for themselves. -/
theorem ofLines_append (h : ¬ Reaches front back) :
    ofLines (front ++ back) = ofLines front ++ ofLines back := by
  induction front using ofLines.induct with
  | case1 => simp [ofLines]
  | case2 line rest hform ih =>
      have hrest : ¬ Reaches rest back := by simpa [Reaches, announcements, hform] using h
      rw [List.cons_append, ofLines, ofLines, hform]
      exact ih hrest
  | case3 line rest form hform ih =>
      simp only [Reaches, announcements, hform, List.exists_mem_cons_iff, not_or] at h
      obtain ⟨hform', hrest⟩ := h
      rw [List.cons_append, ofLines, ofLines, hform]
      simp only
      rw [Form.complete_append hform', List.drop_append_of_le_length (form.complete_snd_le rest),
        ih hrest, List.cons_append]

/-- Otherwise one message gets another place. At most the message on the line below it is lost, and
one or two of the lines behind are not read. -/
theorem ofLines_append_of_reaches (h : Reaches front back) :
    ∃ before alone completed lost taken,
      ofLines front = before ++ alone :: lost ∧
      ofLines (front ++ back) = before ++ completed :: ofLines (back.drop taken) ∧
      Moved alone completed ∧ 1 ≤ taken ∧ lost.length + taken ≤ 2 := by
  induction front using ofLines.induct with
  | case1 => simp [Reaches, announcements] at h
  | case2 line rest hform ih =>
      have hrest : Reaches rest back := by simpa [Reaches, announcements, hform] using h
      rw [List.cons_append, ofLines, ofLines, hform]
      exact ih hrest
  | case3 line rest form hform ih =>
      simp only [Reaches, announcements, hform, List.exists_mem_cons_iff] at h
      rw [List.cons_append, ofLines, ofLines, hform]
      simp only
      by_cases hreaches : form.Reaches rest back
      · obtain ⟨hnone, hmoved, taken, hsome, hpos, hle⟩ := Form.complete_of_reaches hform hreaches
        have hlost := length_ofLines_le rest
        rw [hnone, hsome, List.drop_zero, List.drop_length_add_append]
        exact ⟨[], _, _, ofLines rest, taken, rfl, rfl, hmoved, hpos, by omega⟩
      · obtain ⟨before, alone, completed, lost, taken, hfront, hall, hrest⟩ :=
          ih (h.resolve_left hreaches)
        rw [Form.complete_append hreaches,
          List.drop_append_of_le_length (form.complete_snd_le rest), hfront, hall]
        exact ⟨(form.complete rest).1 :: before, alone, completed, lost, taken, rfl, rfl, hrest⟩

end Diagnostic

namespace ProcessOutput

open Diagnostic

/-- The standard output up to some line end, and the rest of the output, are read as if each stood
alone exactly if no message before takes its place from behind. Otherwise one message before gets
another place, at most one message after that is lost, and the rest is read without its first line
or its first two. -/
theorem announced_streams (o : ProcessOutput) (whole unfinished : String)
    (hstdout : o.stdout = whole ++ unfinished) (hwhole : Finished whole) :
    let front := Text.lines whole.toList
    let back := Text.lines (unfinished ++ o.stderr).toList
    (o.announced = ofOutput whole ++ ofOutput (unfinished ++ o.stderr) ↔ ¬ Reaches front back) ∧
      (Reaches front back → ∃ before alone completed lost taken,
        ofOutput whole = before ++ alone :: lost ∧
        o.announced = before ++ completed :: ofLines (back.drop taken) ∧
        Moved alone completed ∧ 1 ≤ taken ∧ lost.length + taken ≤ 2) := by
  intro front back
  have hannounced : o.announced = ofLines (front ++ back) := by
    rw [announced, hstdout, String.append_assoc, ofOutput, lines_append hwhole]
  rw [hannounced]
  refine ⟨⟨fun heq hreaches => ?_, ofLines_append⟩, ofLines_append_of_reaches⟩
  obtain ⟨before, alone, completed, lost, taken, hfront, hall, hmoved, -⟩ :=
    ofLines_append_of_reaches hreaches
  have hfront' : ofOutput whole = before ++ alone :: lost := hfront
  rw [hall, hfront', List.append_assoc, List.append_cancel_left_eq, List.cons_append] at heq
  exact hmoved.place (List.cons.inj heq).1

/-- A finished standard output, and an error on the standard error. -/
theorem announced_streams_finished :
    (⟨"Compiling 2 files\n", "A.java:3: error: unknown name\n", 1⟩ : ProcessOutput).announced =
      [⟨.error, some "A.java", "unknown name", 3, 0⟩] := by
  have hseparate := (announced_streams
    ⟨"Compiling 2 files\n", "A.java:3: error: unknown name\n", 1⟩ "Compiling 2 files\n" ""
    rfl (by decide +kernel)).1.mpr (by decide +kernel)
  exact hseparate.trans (by decide +kernel)

/-- A process that prints no line feed after its progress, and succeeds in spite of an error: the
error is not announced, though it is one on the standard error. -/
theorem announced_unfinished :
    (⟨"Compiling 2 files", "error: unknown name\n", 0⟩ : ProcessOutput).announced ≠
      ofOutput "Compiling 2 files" ++ ofOutput "error: unknown name\n" := by
  decide +kernel

-- a message on the standard output takes the caret of the one on the standard error
example :
    (⟨"A.java:1: warning: unused\n", "B.java:2: error: unknown name\n  ^\n", 0⟩ :
        ProcessOutput).announced = [⟨.warning, some "A.java", "unused", 1, 3⟩] := by
  decide +kernel

end ProcessOutput

end ScriptHost
