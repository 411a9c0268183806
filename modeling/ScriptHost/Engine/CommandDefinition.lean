import ScriptHost.Environment
import ScriptHost.Error
import ScriptHost.Json.Reader

/-!
# Command definitions

A command resource is a JSON object with a list of command lines, each for an operating system, and
changes to the environment. The first command line whose system matches is run.
-/

namespace ScriptHost

/-- A command line for one operating system. -/
structure OsCommand where
  os : String
  command : String
  deriving DecidableEq, Repr

namespace OsCommand

/-- Whether the command is meant for an operating system. -/
def matchesOs (c : OsCommand) (os : String) : Bool :=
  match String.ofList ((Text.trim c.os.toList).map Char.toLower) with
  | "any" | "*" => true
  | "unix" => os != "windows"
  | "mac" | "osx" | "darwin" => os == "macos"
  | wanted => wanted == os

end OsCommand

/-- The content of a command resource. -/
structure CommandDefinition where
  description : String
  contentType : Option String
  commands : List OsCommand
  environment : EnvironmentPatch

namespace CommandDefinition

open Json (Raw Value)

/-- The only value among the members of an object that have a key. Two are refused; none is
fine. -/
def unique? {α : Type} (key : String) (members : List (Option String × α)) : Option (Option α) :=
  match members.filter (·.1 == some key) with
  | [] => some none
  | [(_, value)] => some (some value)
  | _ => none

/-- The text of a sound form. -/
def text? : Raw → Option String
  | .string s => s
  | _ => none

/-- A command at a nesting depth at which `depth` further levels are allowed: an object with both
fields, or an array of both. Further members of the object are skipped, whatever they hold. -/
def command? (depth : Nat) : Raw → Option OsCommand
  | .object members => do
    if depth = 0 || members.any (·.1.isNone) then none
    else
      let os ← (← unique? "os" members).bind text?
      let command ← (← unique? "command" members).bind text?
      return ⟨os, command⟩
  | .array [os, command] => do
    if depth = 0 then none else return ⟨← text? os, ← text? command⟩
  | _ => none

/-- The commands of a definition. -/
def commands? : Raw → Option (List OsCommand)
  | .array items => items.mapM (command? (Json.maxNesting - 2))
  | _ => none

/-- A text that may be left out or null. -/
def optionalText? : Option Raw → Option (Option String)
  | none | some .null => some none
  | some raw => (text? raw).map some

/-- The variables that a definition sets; of two values for a name the last one counts. -/
def set? : Option Raw → Option Variables
  | none => some .empty
  | some (.object members) => do
    let pairs ← members.mapM fun (key, raw) => do return (← key, ← text? raw)
    return .ofPairs pairs
  | some _ => none

/-- The names that a definition unsets. -/
def unset? : Option Raw → Option (List String)
  | none => some []
  | some (.array items) => items.mapM text?
  | some _ => none

/-- The keys that a definition knows. -/
def knownKeys : List String := ["description", "contentType", "commands", "set", "unset"]

/-- The definition that the members of an object hold. Unknown members must be sound. -/
def ofMembers? (members : List (Option String × Raw)) : Option CommandDefinition := do
  let _ ← members.mapM (·.1)
  let unknown := members.filter fun (key, _) => !(key.any (knownKeys.contains ·))
  let _ ← unknown.mapM fun (_, raw) => raw.checked? (Json.maxNesting - 1)
  let description ← match ← unique? "description" members with
    | none => some ""
    | some raw => text? raw
  let contentType ← optionalText? (← unique? "contentType" members)
  let commands ← (← unique? "commands" members).bind commands?
  let set ← set? (← unique? "set" members)
  let unset ← unset? (← unique? "unset" members)
  return ⟨description, contentType, commands, ⟨set, unset⟩⟩

/-- The definition that a resource at a path holds. -/
def parse (path : String) (content : ByteArray) : Except Error CommandDefinition :=
  match Json.readRaw? content with
  | some (.object members) =>
    match ofMembers? members with
    | some definition =>
      if definition.commands.isEmpty then .error (.invalidDefinition path .noCommands)
      else .ok definition
    | none => .error (.invalidDefinition path .malformed)
  | _ => .error (.invalidDefinition path .malformed)

/-- The first command that is meant for an operating system. -/
def commandFor? (d : CommandDefinition) (os : String) : Option OsCommand :=
  d.commands.find? (·.matchesOs os)

end CommandDefinition

end ScriptHost
