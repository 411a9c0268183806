import ScriptHost.Proofs.Diagnostic.Parts

/-!
# Lines by their shape

What a line announces, without reference to how it is read: the first shape in which it can be taken
apart, and of several ways to do so the one with the shortest file name, in a scripted line then
with the longest message. `ofOutput_line` says that reading a line gives just that. The readers of
the tails behind a file name accept what the shapes ask for, so the first accepted tail is behind
the shortest name.
-/

namespace ScriptHost.Diagnostic

/-! ## Shapes -/

/-- The shapes of a line, in the order in which they are tried. -/
inductive Shape where
  | scripted
  | locatedColumn
  | located
  | bare
  | note
  deriving DecidableEq

/-- A line can be taken apart in a shape, with some file name and message, and then announces a
diagnostic. Bare lines and notes have no file name. -/
inductive Decomposes (line file message : List Char) : Shape → Diagnostic → Prop where
  /-- `F: N: M @ line L, column C`, then perhaps a full stop, then blanks. -/
  | scripted (number row column : Digits) {stop blanks : List Char} (hfile : file ≠ [])
      (hmessage : message ≠ []) (hstop : stop = [] ∨ stop = ['.'])
      (hblanks : ∀ c ∈ blanks, Text.isBlank c = true)
      (hline : line = file ++ (": ".toList ++ (number.chars ++ (": ".toList ++ (message ++
        (" @ line ".toList ++ (row.chars ++ (", column ".toList ++ (column.chars ++
          (stop ++ blanks)))))))))) :
      Decomposes line file message .scripted
        ⟨.error, some (.ofList file), .ofList (Text.trim message), row.position, column.position⟩
  /-- `F:L:C: K: M`. -/
  | locatedColumn (row column : Digits) (severity : Severity) (hfile : file ≠ [])
      (hline : line = file ++ (":".toList ++ (row.chars ++ (":".toList ++ (column.chars ++
        (": ".toList ++ (severity.word ++ (": ".toList ++ message)))))))) :
      Decomposes line file message .locatedColumn
        ⟨severity.kind, some (.ofList file), .ofList message, row.position, column.position⟩
  /-- `F:L: K: M`. No fatal error is announced without a column. -/
  | located (row : Digits) (severity : Severity) (hseverity : severity ≠ .fatalError)
      (hfile : file ≠ [])
      (hline : line = file ++ (":".toList ++ (row.chars ++ (": ".toList ++ (severity.word ++
        (": ".toList ++ message)))))) :
      Decomposes line file message .located
        ⟨severity.kind, some (.ofList file), .ofList message, row.position, 0⟩
  /-- `K: M` or `K[CODE]: M`. -/
  | bare (severity : Severity) (code : Option ErrorCode)
      (hseverity : severity ∈ [.error, .warning, .note]) (hfile : file = [])
      (hline : line = severity.word ++ (bracketed code ++ (": ".toList ++ message))) :
      Decomposes line file message .bare ⟨severity.kind, none, .ofList message, 0, 0⟩
  /-- `Note: M`. -/
  | note (hfile : file = []) (hline : line = "Note: ".toList ++ message) :
      Decomposes line file message .note ⟨.note, none, .ofList message, 0, 0⟩

namespace Shape

/-- All shapes in their order. -/
def all : List Shape :=
  [scripted, locatedColumn, located, bare, note]

/-- A line can be taken apart in a shape. -/
def Fits (shape : Shape) (line : List Char) : Prop :=
  ∃ file message d, Decomposes line file message shape d

/-- How a line is taken apart in a shape once its file name is chosen: a scripted line at its
longest message. -/
structure Takes (shape : Shape) (line file message : List Char) (d : Diagnostic) : Prop where
  decomposes : Decomposes line file message shape d
  longest : shape = scripted → ∀ message' d', Decomposes line file message' shape d' →
    message'.length ≤ message.length

/-- What a line announces in a shape: it is taken apart at its shortest file name. -/
def Announces (shape : Shape) (line : List Char) (d : Diagnostic) : Prop :=
  ∃ file message, shape.Takes line file message d ∧
    ∀ file' message' d', Decomposes line file' message' shape d' → file.length ≤ file'.length

/-- How a line is read in a shape. -/
def read? : Shape → List Char → Option Diagnostic
  | scripted => scripted?
  | locatedColumn => locatedColumn?
  | located => located?
  | bare => bare?
  | note => note?

end Shape

/-- What a line announces, in the first shape that fits it. -/
inductive Announces (line : List Char) : Option Diagnostic → Prop where
  | first {before after : List Shape} {shape : Shape} {d : Diagnostic}
      (hshapes : Shape.all = before ++ shape :: after)
      (hbefore : ∀ earlier ∈ before, ¬ earlier.Fits line) (h : shape.Announces line d) :
      Announces line (some d)
  | nothing (h : ∀ shape : Shape, ¬ shape.Fits line) : Announces line none

variable {line cs file message : List Char} {shape : Shape} {d : Diagnostic}

/-! ## Located lines -/

/-- Behind the file name of a located line with a column. -/
theorem columnTail?_eq_some_iff {row column : Nat} {kind : DiagnosticKind} :
    columnTail? cs = some (row, column, kind, message) ↔
      ∃ (r c : Digits) (severity : Severity),
        cs = ":".toList ++ (r.chars ++ (":".toList ++ (c.chars ++ (": ".toList ++
          (severity.word ++ (": ".toList ++ message)))))) ∧
        row = r.position ∧ column = c.position ∧ kind = severity.kind := by
  constructor
  · intro h
    simp only [columnTail?, Option.bind_eq_bind, Option.bind_eq_some_iff, Prod.exists] at h
    obtain ⟨_, hopen, _, _, hrow, _, hcolon, _, _, hcolumn, _, hclose, _, _, hkind, h⟩ := h
    obtain ⟨rfl, rfl, rfl, rfl⟩ : _ ∧ _ ∧ _ ∧ _ := by simpa using h
    obtain ⟨r, rfl, rfl⟩ := digits?_sound hrow
    obtain ⟨c, rfl, rfl⟩ := digits?_sound hcolumn
    obtain ⟨severity, rfl, rfl⟩ := kind?_column_iff.mp hkind
    refine ⟨r, c, severity, ?_, number_chars r, number_chars c, rfl⟩
    rw [← append_of_after? hopen, ← append_of_after? hcolon, ← append_of_after? hclose]
  · rintro ⟨r, c, severity, rfl, rfl, rfl, rfl⟩
    simp (disch := decide) only [columnTail?, Digits.read_append, after?_append, kind?_column,
      number_chars, Option.bind_eq_bind, Option.bind_some, Option.pure_def]

/-- Behind the file name of a located line without a column. -/
theorem lineTail?_eq_some_iff {row : Nat} {kind : DiagnosticKind} :
    lineTail? cs = some (row, kind, message) ↔
      ∃ (r : Digits) (severity : Severity), severity ≠ .fatalError ∧
        cs = ":".toList ++ (r.chars ++ (": ".toList ++ (severity.word ++
          (": ".toList ++ message)))) ∧
        row = r.position ∧ kind = severity.kind := by
  constructor
  · intro h
    simp only [lineTail?, Option.bind_eq_bind, Option.bind_eq_some_iff, Prod.exists] at h
    obtain ⟨_, hopen, _, _, hrow, _, hclose, _, _, hkind, h⟩ := h
    obtain ⟨rfl, rfl, rfl⟩ : _ ∧ _ ∧ _ := by simpa using h
    obtain ⟨r, rfl, rfl⟩ := digits?_sound hrow
    obtain ⟨severity, hseverity, rfl, rfl⟩ := kind?_line_iff.mp hkind
    refine ⟨r, severity, hseverity, ?_, number_chars r, rfl⟩
    rw [← append_of_after? hopen, ← append_of_after? hclose]
  · rintro ⟨r, severity, hseverity, rfl, rfl, rfl⟩
    simp (disch := decide) only [lineTail?, Digits.read_append, after?_append,
      kind?_line hseverity, number_chars, Option.bind_eq_bind, Option.bind_some, Option.pure_def]

namespace Shape

/-- A line is read in a shape just when it announces something there. -/
structure Exact (shape : Shape) (line : List Char) : Prop where
  read_iff : ∀ d, shape.read? line = some d ↔ shape.Announces line d
  refused_iff : shape.read? line = none ↔ ¬ shape.Fits line

/-- There is nothing to choose behind the file name of a line that is not scripted. -/
theorem takes_iff (h : shape ≠ scripted) :
    shape.Takes line file message d ↔ Decomposes line file message shape d :=
  ⟨Takes.decomposes, fun hdecomposes => ⟨hdecomposes, fun hscripted => absurd hscripted h⟩⟩

/-- Where a shape is a file name and a tail that is accepted, the shortest name is the one that is
looked for. -/
theorem exact_of_cuts {α : Type} (accept : List Char → Option α) (text : α → List Char)
    (diagnose : List Char → α → Diagnostic)
    (hread : shape.read? line =
      (shortestHead accept [] line).map fun found => diagnose found.1 found.2)
    (htakes : ∀ {file message d}, shape.Takes line file message d ↔
      ∃ a, Cut accept line file a ∧ text a = message ∧ diagnose file a = d)
    (hcut : ∀ {file message d}, Decomposes line file message shape d →
      ∃ a, Cut accept line file a) :
    shape.Exact line where
  read_iff d := by
    rw [hread, Option.map_eq_some_iff]
    constructor
    · rintro ⟨⟨file, a⟩, hfound, rfl⟩
      obtain ⟨hfile, hshortest⟩ := shortestHead_eq_some_iff.mp hfound
      refine ⟨file, text a, htakes.mpr ⟨a, hfile, rfl, rfl⟩, fun file' message' d' hother => ?_⟩
      obtain ⟨b, hother⟩ := hcut hother
      exact hshortest file' b hother
    · rintro ⟨file, message, hbest, hshortest⟩
      obtain ⟨a, hfile, -, rfl⟩ := htakes.mp hbest
      refine ⟨(file, a), shortestHead_eq_some_iff.mpr ⟨hfile, fun other b hother => ?_⟩, rfl⟩
      have hdecomposes := (htakes.mpr ⟨b, hother, rfl, rfl⟩).decomposes
      exact hshortest other (text b) _ hdecomposes
  refused_iff := by
    rw [hread, Option.map_eq_none_iff, shortestHead_eq_none_iff]
    constructor
    · rintro h ⟨file, message, d, hdecomposes⟩
      obtain ⟨a, hfile⟩ := hcut hdecomposes
      exact h file a hfile
    · intro h file a hfile
      exact h ⟨file, text a, _, (htakes.mpr ⟨a, hfile, rfl, rfl⟩).decomposes⟩

/-- Where every accepted tail is the only one behind its file name, it is enough to know them. -/
theorem exact_of_tails {α : Type} (accept : List Char → Option α) (text : α → List Char)
    (diagnose : List Char → α → Diagnostic) (hshape : shape ≠ scripted)
    (hread : shape.read? line =
      (shortestHead accept [] line).map fun found => diagnose found.1 found.2)
    (hcuts : ∀ {file message d}, Decomposes line file message shape d ↔
      ∃ a, Cut accept line file a ∧ text a = message ∧ diagnose file a = d) :
    shape.Exact line := by
  refine exact_of_cuts accept text diagnose hread (fun {_ _ _} => (takes_iff hshape).trans hcuts) ?_
  intro file message d hdecomposes
  obtain ⟨a, hcut, -, -⟩ := hcuts.mp hdecomposes
  exact ⟨a, hcut⟩

theorem exact_locatedColumn (line : List Char) : locatedColumn.Exact line := by
  refine exact_of_tails columnTail? (fun a => a.2.2.2)
    (fun file a => ⟨a.2.2.1, some (.ofList file), .ofList a.2.2.2, a.1, a.2.1⟩)
    (by decide) rfl fun {file message d} => ?_
  constructor
  · intro hdecomposes
    cases hdecomposes with
    | locatedColumn r c severity hfile hline =>
        refine ⟨(r.position, c.position, severity.kind, message),
          ⟨hfile, _, hline.symm, ?_⟩, rfl, rfl⟩
        exact columnTail?_eq_some_iff.mpr ⟨r, c, severity, rfl, rfl, rfl, rfl⟩
  · rintro ⟨_, ⟨hfile, rest, rfl, htail⟩, rfl, rfl⟩
    obtain ⟨r, c, severity, rfl, hrow, hcolumn, hkind⟩ := columnTail?_eq_some_iff.mp htail
    rw [hrow, hcolumn, hkind]
    exact .locatedColumn r c severity hfile rfl

theorem exact_located (line : List Char) : located.Exact line := by
  refine exact_of_tails lineTail? (fun a => a.2.2)
    (fun file a => ⟨a.2.1, some (.ofList file), .ofList a.2.2, a.1, 0⟩)
    (by decide) rfl fun {file message d} => ?_
  constructor
  · intro hdecomposes
    cases hdecomposes with
    | located r severity hseverity hfile hline =>
        refine ⟨(r.position, severity.kind, message), ⟨hfile, _, hline.symm, ?_⟩, rfl, rfl⟩
        exact lineTail?_eq_some_iff.mpr ⟨r, severity, hseverity, rfl, rfl, rfl⟩
  · rintro ⟨_, ⟨hfile, rest, rfl, htail⟩, rfl, rfl⟩
    obtain ⟨r, severity, hseverity, rfl, hrow, hkind⟩ := lineTail?_eq_some_iff.mp htail
    rw [hrow, hkind]
    exact .located r severity hseverity hfile rfl

/-- Where a shape has no file name, it is enough that what is read are the ways to take a line
apart. -/
theorem exact_of_read (hshape : shape ≠ scripted)
    (hfile : ∀ {file message d}, Decomposes line file message shape d → file = [])
    (hread : ∀ {d}, shape.read? line = some d ↔ ∃ message, Decomposes line [] message shape d) :
    shape.Exact line where
  read_iff d := by
    rw [hread]
    constructor
    · rintro ⟨message, hdecomposes⟩
      exact ⟨[], message, (takes_iff hshape).mpr hdecomposes, fun _ _ _ _ => Nat.zero_le _⟩
    · rintro ⟨file, message, htakes, -⟩
      obtain rfl := hfile htakes.decomposes
      exact ⟨message, htakes.decomposes⟩
  refused_iff := by
    rw [Option.eq_none_iff_forall_ne_some]
    constructor
    · rintro h ⟨file, message, d, hdecomposes⟩
      obtain rfl := hfile hdecomposes
      exact h d (hread.mpr ⟨message, hdecomposes⟩)
    · intro h d hd
      obtain ⟨message, hdecomposes⟩ := hread.mp hd
      exact h ⟨[], message, d, hdecomposes⟩

theorem exact_bare (line : List Char) : bare.Exact line := by
  refine exact_of_read (by decide) (fun {file message d} hdecomposes => ?_)
    fun {d} => ⟨fun h => ?_, fun ⟨message, hdecomposes⟩ => ?_⟩
  · cases hdecomposes with
    | bare _ _ _ hfile _ => exact hfile
  · obtain ⟨word, hword, hread⟩ := List.exists_of_findSome?_eq_some h
    simp only [Option.bind_eq_bind, Option.bind_eq_some_iff, Option.pure_def,
      Option.some.injEq] at hread
    obtain ⟨rest, hrest, message, hmessage, rfl⟩ := hread
    obtain ⟨code, rfl⟩ := skipCode_sound hmessage
    obtain rfl := append_of_after? hrest
    refine ⟨message, ?_⟩
    simp only [bareKinds, List.mem_cons, List.not_mem_nil, or_false] at hword
    rcases hword with rfl | rfl | rfl
    · exact .bare .error code (by decide) rfl rfl
    · exact .bare .warning code (by decide) rfl rfl
    · exact .bare .note code (by decide) rfl rfl
  · cases hdecomposes with
    | bare severity code hseverity _ hline => exact hline ▸ bare?_word hseverity code message

theorem exact_note (line : List Char) : note.Exact line := by
  refine exact_of_read (by decide) (fun {file message d} hdecomposes => ?_)
    fun {d} => ⟨fun h => ?_, fun ⟨message, hdecomposes⟩ => ?_⟩
  · cases hdecomposes with
    | note hfile _ => exact hfile
  · obtain ⟨message, hmessage, rfl⟩ := Option.map_eq_some_iff.mp h
    exact ⟨message, .note rfl (append_of_after? hmessage).symm⟩
  · cases hdecomposes with
    | note _ hline =>
        show note? line = _
        rw [note?, hline, after?_append]
        rfl

end Shape

/-! ## Scripted lines -/

/-- Behind the message of a scripted line. -/
theorem scriptedPosition?_eq_some_iff {position : Nat × Nat} :
    scriptedPosition? cs = some position ↔
      ∃ (r c : Digits) (stop blanks : List Char), (stop = [] ∨ stop = ['.']) ∧
        (∀ b ∈ blanks, Text.isBlank b = true) ∧
        cs = " @ line ".toList ++ (r.chars ++ (", column ".toList ++ (c.chars ++
          (stop ++ blanks)))) ∧
        position = (r.position, c.position) := by
  constructor
  · intro h
    simp only [scriptedPosition?, Option.bind_eq_bind, Option.bind_eq_some_iff, Prod.exists] at h
    obtain ⟨_, hopen, _, _, hrow, _, hcolon, _, rest, hcolumn, h⟩ := h
    obtain ⟨r, rfl, rfl⟩ := digits?_sound hrow
    obtain ⟨c, rfl, rfl⟩ := digits?_sound hcolumn
    split at h
    · rename_i hblank
      obtain rfl := Option.some.inj h
      rw [number_chars, number_chars]
      have hline (stop blanks : List Char) (happend : stop ++ blanks = rest) :
          cs = " @ line ".toList ++ (r.chars ++ (", column ".toList ++ (c.chars ++
            (stop ++ blanks)))) := by
        rw [happend, append_of_after? hcolon, append_of_after? hopen]
      cases hstop : after? "." rest with
      | none =>
          rw [hstop] at hblank
          exact ⟨r, c, [], rest, .inl rfl, List.all_eq_true.mp hblank, hline [] rest rfl, rfl⟩
      | some blanks =>
          rw [hstop] at hblank
          exact ⟨r, c, ['.'], blanks, .inr rfl, List.all_eq_true.mp hblank,
            hline ['.'] blanks (append_of_after? hstop), rfl⟩
    · cases h
  · rintro ⟨r, c, stop, blanks, hstop, hblanks, rfl, rfl⟩
    -- a digit after the column would be neither the full stop nor blank
    have hcolumn : digits? (c.chars ++ (stop ++ blanks)) = some (c.chars, stop ++ blanks) := by
      refine digits?_run c.ne_nil c.decimal ?_
      rcases hstop with rfl | rfl
      · cases blanks with
        | nil => rfl
        | cons b blanks => exact isDecimalDigit_of_isBlank (hblanks b List.mem_cons_self)
      · rfl
    have hrest : (after? "." (stop ++ blanks)).getD (stop ++ blanks) = blanks := by
      rcases hstop with rfl | rfl
      · have hnone : after? "." blanks = none := by
          refine after?_of_head (c := '.') rfl fun hhead => ?_
          have hdot := hblanks '.' (List.mem_of_mem_head? hhead)
          exact absurd hdot (by decide)
        rw [List.nil_append, hnone]
        rfl
      · rfl
    simp (disch := decide) only [scriptedPosition?, Digits.read_append, after?_append, hcolumn,
      hrest, List.all_eq_true.mpr hblanks, number_chars, Option.bind_eq_bind, Option.bind_some,
      if_pos]

/-- Behind the file name of a scripted line a number is skipped. -/
theorem scriptedTail?_append (number : Digits) (inner : List Char) :
    scriptedTail? (": ".toList ++ (number.chars ++ (": ".toList ++ inner))) =
      longestHead scriptedPosition? [] inner := by
  simp (disch := decide) only [scriptedTail?, Digits.read_append, after?_append,
    Option.bind_eq_bind, Option.bind_some]

theorem scriptedTail?_sound {a : List Char × Nat × Nat} (h : scriptedTail? cs = some a) :
    ∃ (number : Digits) (inner : List Char),
      cs = ": ".toList ++ (number.chars ++ (": ".toList ++ inner)) ∧
      longestHead scriptedPosition? [] inner = some a := by
  simp only [scriptedTail?, Option.bind_eq_bind, Option.bind_eq_some_iff, Prod.exists] at h
  obtain ⟨_, hopen, _, _, hnumber, inner, hclose, h⟩ := h
  obtain ⟨number, rfl, rfl⟩ := digits?_sound hnumber
  refine ⟨number, inner, ?_, h⟩
  rw [append_of_after? hclose, append_of_after? hopen]

/-- A scripted line is taken apart by cutting what follows its number. -/
theorem decomposes_scripted_iff :
    Decomposes line file message .scripted d ↔
      file ≠ [] ∧ ∃ (number : Digits) (inner : List Char) (position : Nat × Nat),
        line = file ++ (": ".toList ++ (number.chars ++ (": ".toList ++ inner))) ∧
        Cut scriptedPosition? inner message position ∧
        d = ⟨.error, some (.ofList file), .ofList (Text.trim message), position.1,
          position.2⟩ := by
  constructor
  · intro hdecomposes
    cases hdecomposes with
    | scripted number r c hfile hmessage hstop hblanks hline =>
        have hposition := scriptedPosition?_eq_some_iff.mpr
          ⟨r, c, _, _, hstop, hblanks, rfl, rfl⟩
        exact ⟨hfile, number, _, _, hline, ⟨hmessage, _, rfl, hposition⟩, rfl⟩
  · rintro ⟨hfile, number, inner, position, rfl, ⟨hmessage, rest, rfl, hrest⟩, rfl⟩
    obtain ⟨r, c, stop, blanks, hstop, hblanks, rfl, rfl⟩ :=
      scriptedPosition?_eq_some_iff.mp hrest
    exact .scripted number r c hfile hmessage hstop hblanks rfl

/-- A way to take a scripted line apart is a cut behind its file name, though perhaps not with its
message. -/
theorem Decomposes.cut (h : Decomposes line file message .scripted d) :
    ∃ a, Cut scriptedTail? line file a := by
  obtain ⟨hfile, number, inner, position, rfl, hcut, -⟩ := decomposes_scripted_iff.mp h
  cases hlongest : longestHead scriptedPosition? [] inner with
  | none => exact absurd hcut (longestHead_eq_none_iff.mp hlongest message position)
  | some a => exact ⟨a, hfile, _, rfl, (scriptedTail?_append number inner).trans hlongest⟩

/-- The cut behind a file name has the longest message for that name. -/
theorem Shape.takes_scripted_iff :
    scripted.Takes line file message d ↔
      ∃ position : Nat × Nat, Cut scriptedTail? line file (message, position) ∧
        d = ⟨.error, some (.ofList file), .ofList (Text.trim message), position.1,
          position.2⟩ := by
  constructor
  · rintro ⟨hdecomposes, hlongest⟩
    obtain ⟨hfile, number, inner, position, rfl, hcut, rfl⟩ :=
      decomposes_scripted_iff.mp hdecomposes
    refine ⟨position, ⟨hfile, _, rfl, ?_⟩, rfl⟩
    rw [scriptedTail?_append, longestHead_eq_some_iff]
    refine ⟨hcut, fun other b hother => ?_⟩
    have hother := decomposes_scripted_iff.mpr ⟨hfile, number, inner, b, rfl, hother, rfl⟩
    exact hlongest rfl other _ hother
  · rintro ⟨position, ⟨hfile, rest, rfl, htail⟩, rfl⟩
    obtain ⟨number, inner, rfl, hinner⟩ := scriptedTail?_sound htail
    have hcut := (longestHead_eq_some_iff.mp hinner).1
    refine ⟨decomposes_scripted_iff.mpr ⟨hfile, number, inner, position, rfl, hcut, rfl⟩,
      fun _ message' d' hother => ?_⟩
    -- the number ends where its digits do, so what follows it is the same for both messages
    obtain ⟨-, number', inner', position', hline, hcut', -⟩ := decomposes_scripted_iff.mp hother
    rw [List.append_cancel_left hline, scriptedTail?_append] at htail
    exact (longestHead_eq_some_iff.mp htail).2 message' position' hcut'

theorem Shape.exact_scripted (line : List Char) : scripted.Exact line := by
  refine exact_of_cuts scriptedTail? Prod.fst (fun file a =>
    ⟨.error, some (.ofList file), .ofList (Text.trim a.1), a.2.1, a.2.2⟩) rfl
    (fun {file message d} => takes_scripted_iff.trans ?_) Decomposes.cut
  constructor
  · rintro ⟨position, hcut, rfl⟩
    exact ⟨(message, position), hcut, rfl, rfl⟩
  · rintro ⟨⟨message, position⟩, hcut, rfl, rfl⟩
    exact ⟨position, hcut, rfl⟩

/-! ## Lines -/

theorem Shape.exact (shape : Shape) (line : List Char) : shape.Exact line := by
  cases shape with
  | scripted => exact exact_scripted line
  | locatedColumn => exact exact_locatedColumn line
  | located => exact exact_located line
  | bare => exact exact_bare line
  | note => exact exact_note line

/-- The first shape in which a line is read is the first one that fits it. -/
theorem announces_iff {found : Option Diagnostic} :
    Announces line found ↔ Shape.all.findSome? (·.read? line) = found := by
  constructor
  · rintro (⟨hshapes, hbefore, h⟩ | h)
    · refine List.findSome?_eq_some_iff.mpr ⟨_, _, _, hshapes, ?_, fun earlier hearlier => ?_⟩
      · exact ((Shape.exact _ line).read_iff _).mpr h
      · exact (Shape.exact earlier line).refused_iff.mpr (hbefore earlier hearlier)
    · refine List.findSome?_eq_none_iff.mpr fun shape _ => ?_
      exact (Shape.exact shape line).refused_iff.mpr (h shape)
  · intro h
    cases found with
    | some d =>
        obtain ⟨before, shape, after, hshapes, hread, hbefore⟩ := List.findSome?_eq_some_iff.mp h
        have hannounces := ((Shape.exact shape line).read_iff d).mp hread
        refine .first hshapes (fun earlier hearlier => ?_) hannounces
        exact (Shape.exact earlier line).refused_iff.mp (hbefore earlier hearlier)
    | none =>
        refine .nothing fun shape => (Shape.exact shape line).refused_iff.mp ?_
        refine List.findSome?_eq_none_iff.mp h shape ?_
        cases shape <;> decide

/-- The forms of a line are tried in the order of the shapes. -/
theorem ofLine?_diagnostic (line : List Char) :
    (Form.ofLine? line).map Form.diagnostic = Shape.all.findSome? (·.read? line) := by
  unfold Form.ofLine? Shape.all
  simp only [List.findSome?_cons, List.findSome?_nil, Shape.read?]
  cases scripted? line with
  | some d => rfl
  | none =>
  cases locatedColumn? line with
  | some d => rfl
  | none =>
  cases located? line with
  | some d => rfl
  | none =>
  cases bare? line with
  | some d => rfl
  | none => cases note? line <;> rfl

theorem ofLines_nil : ofLines [] = [] := by
  rw [ofLines]

/-- A line with no lines below it announces what its form says. -/
theorem ofLines_single (line : List Char) :
    ofLines [line] = ((Form.ofLine? line).map Form.diagnostic).toList := by
  rw [ofLines]
  cases Form.ofLine? line with
  | none => exact ofLines_nil
  | some form =>
      have hbelow : form.complete [] = (form.diagnostic, 0) := by cases form <;> rfl
      simp only [hbelow, List.drop_nil, ofLines_nil]
      rfl

/-- The end of a text without a line feed is its last line, if anything is left. -/
theorem linesFrom_unfinished {text : List Char} (h : '\n' ∉ text) (current : List Char) :
    Text.linesFrom current text =
      if current.reverse ++ text = [] then [] else [current.reverse ++ text] := by
  induction text generalizing current with
  | nil => cases current <;> simp [Text.linesFrom]
  | cons c text ih =>
      have hc : c ≠ '\n' := fun heq => h (heq ▸ List.mem_cons_self)
      have htext : '\n' ∉ text := fun hmem => h (List.mem_cons_of_mem _ hmem)
      rw [Text.linesFrom, ih htext]
      · simp
      · exact hc

/-- A text of one line gives at most one diagnostic, and that is what the line announces. -/
theorem ofOutput_line {line : String} (h : '\n' ∉ line.toList) :
    ∃ found : Option Diagnostic, ofOutput line = found.toList ∧
      ∀ other, Announces line.toList other ↔ other = found := by
  refine ⟨(Form.ofLine? line.toList).map Form.diagnostic, ?_, fun other => ?_⟩
  · unfold ofOutput Text.lines
    rw [linesFrom_unfinished h, List.reverse_nil, List.nil_append]
    split
    · rename_i hempty
      rw [hempty, ofLines_nil]
      rfl
    · exact ofLines_single line.toList
  · rw [announces_iff, ← ofLine?_diagnostic]
    exact eq_comm

/-- A scripted line that is also a located one, with two numbers to cut at and two positions. -/
theorem ofOutput_line_nested :
    ∃ found, ofOutput "a:1:2: error: 3: b: 4: c @ line 5, column 6 @ line \u0667, column 8. " =
        Option.toList found ∧
      (∀ other, Announces
        "a:1:2: error: 3: b: 4: c @ line 5, column 6 @ line \u0667, column 8. ".toList other ↔
          other = found) ∧
      found = some ⟨.error, some "a:1:2: error", "b: 4: c @ line 5, column 6", 0, 8⟩ := by
  obtain ⟨found, hfound, hannounces⟩ := @ofOutput_line
    "a:1:2: error: 3: b: 4: c @ line 5, column 6 @ line \u0667, column 8. " (by decide +kernel)
  refine ⟨found, hfound, hannounces, ((hannounces _).mp (announces_iff.mpr ?_)).symm⟩
  decide +kernel

end ScriptHost.Diagnostic
