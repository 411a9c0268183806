import ScriptHost.Error

/-!
# Replies

What a call of the program says: its exit code and what it writes to its two outputs. A call that fails
writes its error to the second output and nothing to the first.
-/

namespace ScriptHost.Console

/-- What a call of the program says. -/
structure Reply where
  code : Nat
  stdout : String
  stderr : String
  deriving DecidableEq, Repr

/-- Why an order cannot be carried out. -/
inductive Fault where
  | settings (fault : SettingsFault)
  | failed (e : Error)
  /-- The file to deploy cannot be read. -/
  | deployedFile (file : String) (fault : FileFault)
  /-- The file with the value to store cannot be read. -/
  | valueFile (fault : FileFault)
  /-- There is neither a value nor a file to store. -/
  | missingValue
  | noEntry (path : String)
  deriving DecidableEq, Repr

namespace Fault

/-- The wording of a fault. -/
def message : Fault → String
  | settings fault => fault.message
  | failed e => e.message
  | deployedFile file fault => s!"reading {file}\n\nCaused by:\n    {fault.message}"
  | valueFile fault => fault.message
  | missingValue => "provide a value or --file"
  | noEntry path => s!"no entry at {path}"

/-- The exit code of a fault; one that ends the whole program has its own. -/
def code : Fault → Nat
  | failed .clockOverflow => 101
  | _ => 1

end Fault

namespace Reply

/-- The reply of a call that has only something to tell. -/
def telling (text : String) : Reply :=
  ⟨0, text, ""⟩

/-- The reply of a call that fails. -/
def ofFault (fault : Fault) : Reply :=
  ⟨fault.code, "", s!"Error: {fault.message}\n"⟩

end Reply

/-- A text filled up with spaces on the right. -/
def filledRight (width : Nat) (text : String) : String :=
  text ++ .ofList (List.replicate (width - text.length) ' ')

/-- A text filled up with spaces on the left. -/
def filledLeft (width : Nat) (text : String) : String :=
  .ofList (List.replicate (width - text.length) ' ') ++ text

/-- The sign of success. -/
def done (text : String) : String :=
  s!"✓ {text}\n"

end ScriptHost.Console
