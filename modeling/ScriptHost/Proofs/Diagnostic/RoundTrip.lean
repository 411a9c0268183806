import ScriptHost.Proofs.Diagnostic.Reading

/-!
# Reading undoes printing

The first line of every item is read as the form that its layout stands for, `ofLine?_firstLine`,
and an arrow is never read where an item starts. Lines are read one item at a time then, whatever
stands between the messages: `ofLines_item` is the step, and `ofLines_items` the induction over the
items.
-/

namespace ScriptHost.Diagnostic

/-! ## The lines of an item -/

/-- The first line of an item that announces something does not end in a carriage return. -/
theorem lineOf_firstLine {item : Item} (h : ∀ text, item ≠ .other text) :
    lineOf item.firstLine = item.firstLine := by
  have hmessage (before : List Char) (message : Message) :
      (before ++ ": ".toList ++ message.chars).getLast? ≠ some '\r' := by
    rw [List.getLast?_append]
    cases hlast : message.chars.getLast? with
    | none => simp
    | some c => exact fun hc => message.no_return (hlast.trans hc)
  refine lineOf_eq_self ?_
  cases item with
  | caret _ _ _ message | located _ _ _ _ message | arrow _ _ message | bare _ message =>
      simp only [Item.firstLine, ← List.append_assoc]
      exact hmessage _ message
  | note message => exact hmessage "Note".toList message
  | scripted =>
      simp only [Item.firstLine, ← List.append_assoc]
      rw [List.getLast?_append_of_ne_nil _ (by decide)]
      decide
  | other text => exact absurd rfl (h text)

/-- A line that ends in a digit does not end in a carriage return. -/
theorem lineOf_digits (before : List Char) (n : Numeral) :
    lineOf (before ++ n.digits) = before ++ n.digits := by
  refine lineOf_eq_self fun hlast => ?_
  rw [List.getLast?_append_of_ne_nil _ n.ne_nil] at hlast
  exact n.not_mem_digits (by decide) (List.mem_of_getLast? hlast)

/-- A line of a caret between spaces does not end in a carriage return. -/
theorem lineOf_caret (indent trail : Nat) :
    lineOf (List.replicate indent ' ' ++ '^' :: List.replicate trail ' ') =
      List.replicate indent ' ' ++ '^' :: List.replicate trail ' ' := by
  refine lineOf_eq_self fun hlast => ?_
  have hmem := List.mem_of_getLast? hlast
  simp at hmem

/-- The lines of an item contain no line feed. -/
theorem newline_not_mem_lines {item : Item} (h : item.Proper) :
    ∀ text ∈ item.lines, '\n' ∉ text := by
  have hword (severity : Severity) : '\n' ∉ severity.word := by cases severity <;> decide
  have hcode (code : Option ErrorCode) : '\n' ∉ bracketed code := by
    cases code with
    | none => simp [bracketed]
    | some code =>
        have hn : ¬ Text.isWordChar '\n' = true := by decide +kernel
        have hchars : '\n' ∉ code.chars := fun hmem => hn (code.word _ hmem)
        simp [bracketed, hchars]
  cases item with
  | caret file line severity message echo =>
      simp [Item.lines, Item.firstLine, Item.laterLines, file.no_newline, line.not_mem_digits,
        hword, message.no_newline, h.2.1]
  | located file line column severity message =>
      simp [Item.lines, Item.firstLine, Item.laterLines, file.no_newline, line.not_mem_digits,
        column.not_mem_digits, hword, message.no_newline]
  | arrow severity code message file line column =>
      simp [Item.lines, Item.firstLine, Item.laterLines, file.no_newline, line.not_mem_digits,
        column.not_mem_digits, hword, hcode, message.no_newline]
  | bare severity message =>
      simp [Item.lines, Item.firstLine, Item.laterLines, hword, message.no_newline]
  | scripted file number message line column =>
      simp [Item.lines, Item.firstLine, Item.laterLines, file.no_newline, number.not_mem_digits,
        line.not_mem_digits, column.not_mem_digits, message.no_newline]
  | note message =>
      simp [Item.lines, Item.firstLine, Item.laterLines, message.no_newline]
  | other text => simpa [Item.lines, Item.firstLine, Item.laterLines] using h.1

/-- No item starts with an arrow. -/
theorem arrow?_firstLine {item : Item} (h : item.Proper) :
    arrow? (lineOf item.firstLine) = none := by
  have hword (severity : Severity) (rest : List Char) : arrow? (severity.word ++ rest) = none := by
    cases severity <;> rfl
  cases item with
  | caret file | located file | scripted file =>
      rw [lineOf_firstLine (by simp)]
      exact arrow?_file file _
  | arrow severity | bare severity =>
      rw [lineOf_firstLine (by simp)]
      exact hword severity _
  | note =>
      rw [lineOf_firstLine (by simp)]
      rfl
  | other text => exact h.2.2

/-! ## The forms of items -/

/-- The form that the first line of an item is meant to have. -/
def Item.form? : Item → Option Form
  | caret file line severity message _ _ _ =>
    some (.located
      ⟨severity.kind, some (.ofList file.chars), .ofList message.chars, line.position, 0⟩)
  | arrow severity _ message _ _ _ | bare severity message =>
    some (.bare ⟨severity.kind, none, .ofList message.chars, 0, 0⟩)
  | item@(located ..) => item.diagnostic?.map .locatedColumn
  | item@(scripted ..) => item.diagnostic?.map .scripted
  | item@(note _) => item.diagnostic?.map .note
  | other _ => none

/-- The first line of an item has the form that it is meant to have. -/
theorem ofLine?_firstLine {item : Item} (h : item.Proper) :
    Form.ofLine? (lineOf item.firstLine) = item.form? := by
  cases item with
  | caret file line severity message echo indent trail =>
      obtain ⟨hseverity, -, hscripted, hcolumn⟩ := h
      have hread := located?_caret file line hseverity message echo indent trail
      rw [lineOf_firstLine (by simp), Form.ofLine?, hscripted, hcolumn, hread]
      rfl
  | located file line column severity message =>
      have hread := locatedColumn?_located file line column severity message
      rw [lineOf_firstLine (by simp), Form.ofLine?, show scripted? _ = none from h, hread]
      rfl
  | arrow severity code message =>
      obtain ⟨hseverity, hscripted, hcolumn, hlocated⟩ := h
      have hread := bare?_word hseverity code message.chars
      rw [lineOf_firstLine (by simp), Form.ofLine?, hscripted, hcolumn, hlocated, Item.firstLine,
        hread]
      rfl
  | bare severity message =>
      obtain ⟨hseverity, hscripted, hcolumn, hlocated⟩ := h
      have hread := bare?_word hseverity none message.chars
      rw [lineOf_firstLine (by simp), Form.ofLine?, hscripted, hcolumn, hlocated, Item.firstLine]
      rw [show severity.word ++ (": ".toList ++ message.chars) =
        severity.word ++ (bracketed none ++ (": ".toList ++ message.chars)) from rfl, hread]
      rfl
  | scripted file number message line column =>
      have hread := scripted?_scripted file number h.1 h.2 line column
      rw [lineOf_firstLine (by simp), Form.ofLine?, hread]
      rfl
  | note message =>
      obtain ⟨hscripted, hcolumn, hlocated⟩ := h
      rw [lineOf_firstLine (by simp), Form.ofLine?, hscripted, hcolumn, hlocated]
      rfl
  | other text => exact h.2.1

/-! ## The diagnostics of items -/

/-- The lines of one item are read as its diagnostic, where no arrow follows. -/
theorem ofLines_item {item : Item} (h : item.Proper) {rest : List (List Char)}
    (hrest : rest.head?.bind arrow? = none) :
    ofLines (item.lines.map lineOf ++ rest) = item.diagnostic?.toList ++ ofLines rest := by
  rw [Item.lines, List.map_cons, List.cons_append, ofLines, ofLine?_firstLine h]
  cases item with
  | caret file line severity message echo indent trail =>
      simp [Item.form?, Item.laterLines, Item.diagnostic?, Form.complete, lineOf_caret,
        caretColumn?_spaces]
  | arrow severity code message file line column =>
      have hline := lineOf_digits (" --> ".toList ++ (file.chars ++ (":".toList ++ (line.digits ++
        ":".toList)))) column
      simp only [List.append_assoc] at hline
      simp only [Item.form?, Item.laterLines, Item.diagnostic?, Form.complete, List.map_cons,
        List.map_nil, List.cons_append, List.nil_append, List.head?_cons, Option.bind_some, hline,
        arrow?_position, List.drop_one, List.tail_cons, Option.toList_some]
  | bare | located | scripted | note | other =>
      simp [Item.form?, Item.laterLines, Item.diagnostic?, Form.complete, Form.diagnostic, hrest]

/-- What follows the lines of an item does not start with an arrow. -/
theorem head?_bind_arrow? {items : List Item} (h : ∀ item ∈ items, item.Proper) :
    ((items.flatMap Item.lines).map lineOf).head?.bind arrow? = none := by
  cases items with
  | nil => rfl
  | cons item items => exact arrow?_firstLine (h item List.mem_cons_self)

/-- The lines of items are read as their diagnostics, in order. -/
theorem ofLines_items {items : List Item} (h : ∀ item ∈ items, item.Proper) :
    ofLines ((items.flatMap Item.lines).map lineOf) = items.filterMap Item.diagnostic? := by
  induction items with
  | nil => simp [ofLines]
  | cons item items ih =>
      have hitems : ∀ other ∈ items, other.Proper :=
        fun other hother => h other (List.mem_cons_of_mem _ hother)
      -- the items that follow do not start with an arrow that the item could take for its own
      rw [List.flatMap_cons, List.map_append,
        ofLines_item (h item List.mem_cons_self) (head?_bind_arrow? hitems), ih hitems]
      cases hitem : item.diagnostic? <;> simp [hitem]

/-- What compilers print is read as it was meant: every message gives one diagnostic, in order, with
its kind, its source, its text and its position, and nothing else gives one. -/
theorem ofOutput_printed {items : List Item} (h : ∀ item ∈ items, item.Proper) :
    ofOutput (printed items) = items.filterMap Item.diagnostic? := by
  have hlines : ∀ text ∈ items.flatMap Item.lines, '\n' ∉ text := by
    intro text htext
    obtain ⟨item, hitem, hmem⟩ := List.mem_flatMap.mp htext
    exact newline_not_mem_lines (h item hitem) text hmem
  rw [ofOutput, printed, String.toList_ofList, lines_flatMap hlines, ofLines_items h]

/-- One message in each layout, with an echo that looks like a message, and lines between. -/
def layouts : List Item :=
  let main : FileName := ⟨"Main.java".toList, by decide, by decide, by decide, by decide⟩
  let three : Numeral := ⟨"3".toList, by decide, by simp⟩
  let ten : Numeral := ⟨"10".toList, by decide, by simp⟩
  let mismatch : ErrorCode :=
    ⟨"E0308".toList, by decide, List.all_eq_true.mp (by decide +kernel)⟩
  let unknown : Message := ⟨"unknown name".toList, by decide, by decide⟩
  let unused : Message := ⟨"unused: x".toList, by decide, by decide⟩
  [.other "Compiling 2 files".toList,
    .caret main ten .error unknown "a.c:3:10: error: unknown name".toList 4 0,
    .located main three ten .fatalError unused,
    .arrow .error (some mismatch) unknown main three ten,
    .arrow .warning none unused main ten three,
    .other [],
    .bare .note unknown,
    .scripted main three unused three ten,
    .note unused,
    .other "1 error".toList]

/-- Every layout is read back. -/
theorem ofOutput_printed_layouts :
    ofOutput (printed layouts) =
      [⟨.error, some "Main.java", "unknown name", 10, 5⟩,
        ⟨.error, some "Main.java", "unused: x", 3, 10⟩,
        ⟨.error, some "Main.java", "unknown name", 3, 10⟩,
        ⟨.warning, some "Main.java", "unused: x", 10, 3⟩,
        ⟨.note, none, "unknown name", 0, 0⟩,
        ⟨.error, some "Main.java", "unused: x", 3, 10⟩,
        ⟨.note, none, "unused: x", 0, 0⟩] :=
  have hproper : ∀ item ∈ layouts, item.Proper := by decide +kernel
  (ofOutput_printed hproper).trans (by decide +kernel)

end ScriptHost.Diagnostic
