/-!
# Options among words

The words of a call are options and operands. An option has a long name after two hyphens, and perhaps a
letter after one; letters can be written together. A value follows in the next word, or in the same one,
where an equals sign may stand before it. A word of two hyphens ends the options. `scan` separates the
options of one level of commands from its operands.
-/

namespace ScriptHost.Console

/-- What an option looks like. -/
structure OptionForm where
  letter : Option Char
  name : String
  takesValue : Bool
  repeatable : Bool
  deriving DecidableEq, Repr

namespace OptionForm

/-- An option without a value. -/
def flag (letter : Option Char) (name : String) : OptionForm :=
  ⟨letter, name, false, false⟩

/-- An option with a value that can be given once. -/
def value (letter : Option Char) (name : String) : OptionForm :=
  ⟨letter, name, true, false⟩

/-- An option with a value that can be given again and again. -/
def values (letter : Option Char) (name : String) : OptionForm :=
  ⟨letter, name, true, true⟩

end OptionForm

/-- An option as it is given, by its name; the value of a flag is empty. -/
abbrev GivenOption := String × String

/-- What a single word is. -/
inductive WordKind where
  | operand
  /-- Options that are complete. -/
  | options (given : List GivenOption)
  /-- Options of which the last one still lacks its value. -/
  | pending (given : List GivenOption) (name : String)
  | unknown
  deriving DecidableEq, Repr

/-- More options before those of a word. -/
def WordKind.after (given : GivenOption) : WordKind → WordKind
  | options more => options (given :: more)
  | pending more name => pending (given :: more) name
  | kind => kind

/-- Letters written together. -/
def lettersKind (forms : List OptionForm) : List Char → WordKind
  | [] => .options []
  | c :: rest =>
    match forms.find? (·.letter == some c) with
    | none => .unknown
    | some form =>
      if !form.takesValue then (lettersKind forms rest).after (form.name, "")
      else match rest with
        | [] => .pending [] form.name
        | '=' :: value => .options [(form.name, .ofList value)]
        | value => .options [(form.name, .ofList value)]

/-- A long name, perhaps with a value after an equals sign. -/
def longKind (forms : List OptionForm) (cs : List Char) : WordKind :=
  let name := String.ofList (cs.takeWhile (· != '='))
  match forms.find? (·.name == name), cs.dropWhile (· != '=') with
  | none, _ => .unknown
  | some form, [] => if form.takesValue then .pending [] form.name else .options [(form.name, "")]
  | some form, _ :: value =>
    if form.takesValue then .options [(form.name, .ofList value)] else .unknown

/-- What a word is before the end of the options. -/
def wordKind (forms : List OptionForm) (word : String) : WordKind :=
  match word.toList with
  | '-' :: '-' :: name => longKind forms name
  | '-' :: c :: letters => lettersKind forms (c :: letters)
  | _ => .operand

/-- The options and operands of one level. -/
structure Scan where
  given : List GivenOption
  operands : List String
  deriving DecidableEq, Repr

namespace Scan

/-- More options before the others. -/
def withOptions (s : Scan) (given : List GivenOption) : Scan :=
  { s with given := given ++ s.given }

/-- Whether an option is given. -/
def has (s : Scan) (name : String) : Bool :=
  s.given.any (·.1 == name)

/-- The values of an option in order. -/
def valuesOf (s : Scan) (name : String) : List String :=
  s.given.filterMap fun (given, value) => if given == name then some value else none

/-- Whether no option is given twice that must not be. -/
def isUnrepeated (s : Scan) (forms : List OptionForm) : Bool :=
  forms.all fun form => form.repeatable || (s.valuesOf form.name).length ≤ 1

end Scan

/-- Separate words; none when an option is unknown or lacks its value. On a level that has commands
below it, the first operand ends the level: it and all words after it are the operands. -/
def scan (forms : List OptionForm) (hasCommands : Bool) : List String → Option Scan
  | [] => some ⟨[], []⟩
  | word :: rest =>
    if word = "--" then if hasCommands then none else some ⟨[], rest⟩
    else match wordKind forms word with
      | .unknown => none
      | .operand =>
        if hasCommands then some ⟨[], word :: rest⟩
        else (scan forms hasCommands rest).map fun s => { s with operands := word :: s.operands }
      | .options given => (scan forms hasCommands rest).map (·.withOptions given)
      | .pending given name =>
        match rest with
        | [] => none
        | value :: rest =>
          if value ≠ "--" ∧ wordKind forms value = .operand then
            (scan forms hasCommands rest).map (·.withOptions (given ++ [(name, value)]))
          else none

end ScriptHost.Console
