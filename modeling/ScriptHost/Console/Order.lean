import ScriptHost.Console.Options

/-!
# Orders

An order is what a call of the program asks for. `Order.ofWords` reads it from the words of the call;
some options can stand on every level of commands, and there the innermost one counts.
-/

namespace ScriptHost.Console

/-- What is to be done with the storage. -/
inductive StorageAction where
  | get (path : String)
  | put (path : String) (value : Option String) (file : Option String)
  | list (top : String)
  | delete (path : String)
  | clear
  deriving DecidableEq, Repr

/-- What is to be done. -/
inductive Action where
  | run (engine path : String) (params environment : List (String × String))
    (breakpoints : List Nat)
  | engines
  | deploy (file path : String)
  | storage (action : StorageAction)
  deriving DecidableEq, Repr

/-- What a call asks for, how it wants to be told, and the file of its settings if it names one. -/
structure Order where
  action : Action
  json : Bool
  verbose : Bool
  settingsFile : Option String
  deriving DecidableEq, Repr

/-- Why a call holds no order. -/
inductive NoOrder where
  /-- The call asks for an explanation. -/
  | help
  /-- The call cannot be understood. -/
  | misuse
  deriving DecidableEq, Repr

/-- The options that can stand on every level. -/
def sharedForms : List OptionForm :=
  [.flag (some 'v') "verbose", .flag none "json", .value (some 'c') "config",
    .flag (some 'h') "help", .flag (some 'V') "version"]

/-- Scan one level, which has options of its own. -/
def scanLevel (forms : List OptionForm) (hasCommands : Bool) (words : List String) :
    Except NoOrder Scan :=
  let forms := sharedForms ++ forms
  match scan forms hasCommands words with
  | none => .error .misuse
  | some s =>
    if s.has "help" || s.has "version" then .error .help
    else if s.isUnrepeated forms && !(s.valuesOf "config").contains "" then .ok s
    else .error .misuse

/-- A text with a key that is not empty, an equals sign and a value. -/
def pair? (text : String) : Option (String × String) :=
  let cs := text.toList
  let key := cs.takeWhile (· != '=')
  match cs.dropWhile (· != '=') with
  | _ :: value => if key.isEmpty then none else some (.ofList key, .ofList value)
  | [] => none

/-- The number of a line: digits, perhaps after a sign, within 32 bits. -/
def line? (text : String) : Option Nat := do
  let (negative, digits) := match text.toList with
    | '-' :: digits => (true, digits)
    | '+' :: digits => (false, digits)
    | digits => (false, digits)
  if digits.isEmpty || !digits.all Char.isDigit then none
  else
    let n := Nat.ofDigitChars 10 digits 0
    if n < Nat.pow 2 32 ∧ (!negative ∨ n = 0) then some n else none

/-- A result that is there, or a misuse. -/
def orMisuse {α : Type} : Option α → Except NoOrder α
  | some a => .ok a
  | none => .error .misuse

/-- The order to run something. -/
def readRun (words : List String) : Except NoOrder (Scan × Action) := do
  let s ← scanLevel
    [.values (some 'p') "param", .values (some 'e') "env", .values (some 'b') "break"] false words
  let params ← orMisuse ((s.valuesOf "param").mapM pair?)
  let environment ← orMisuse ((s.valuesOf "env").mapM pair?)
  let breakpoints ← orMisuse ((s.valuesOf "break").mapM line?)
  match s.operands with
  | [engine, path] => return (s, .run engine path params environment breakpoints)
  | _ => throw .misuse

/-- The order to list the engines. -/
def readEngines (words : List String) : Except NoOrder (Scan × Action) := do
  let s ← scanLevel [] false words
  if s.operands.isEmpty then return (s, .engines) else throw .misuse

/-- The order to deploy a file. -/
def readDeploy (words : List String) : Except NoOrder (Scan × Action) := do
  let s ← scanLevel [] false words
  match s.operands with
  | [file, path] => if file = "" then throw .misuse else return (s, .deploy file path)
  | _ => throw .misuse

/-- The order to store something: a value or the content of a file, but not both. -/
def readPut (words : List String) : Except NoOrder (Scan × Action) := do
  let s ← scanLevel [.value none "file"] false words
  match s.operands, s.valuesOf "file" with
  | [path], [] => return (s, .storage (.put path none none))
  | [path], file :: _ =>
    if file = "" then throw .misuse else return (s, .storage (.put path none (some file)))
  | [path, value], [] => return (s, .storage (.put path (some value) none))
  | _, _ => throw .misuse

/-- The orders for the storage that have nothing but operands. -/
def readPlain (name : String) (words : List String) : Except NoOrder (Scan × Action) := do
  let s ← scanLevel [] false words
  match name, s.operands with
  | "get", [path] => return (s, .storage (.get path))
  | "list", [] => return (s, .storage (.list "/"))
  | "list", [top] => return (s, .storage (.list top))
  | "delete", [path] => return (s, .storage (.delete path))
  | "clear", [] => return (s, .storage .clear)
  | _, _ => throw .misuse

/-- The order for the storage, with the scans of both levels, outermost first. -/
def readStorage (words : List String) : Except NoOrder (List Scan × Action) := do
  let outer ← scanLevel [] true words
  match outer.operands with
  | [] => throw .misuse
  | "help" :: _ => throw .help
  | name :: words =>
    let (inner, action) ← if name = "put" then readPut words else readPlain name words
    return ([outer, inner], action)

namespace Order

/-- The order of an action, given the scans of all levels, outermost first. -/
def ofScans (scans : List Scan) (action : Action) : Order where
  action
  json := scans.any (·.has "json")
  verbose := scans.any (·.has "verbose")
  settingsFile := (scans.flatMap (·.valuesOf "config")).getLast?

/-- The order in the words of a call. -/
def ofWords (words : List String) : Except NoOrder Order := do
  let top ← scanLevel [] true words
  let (scans, action) ← match top.operands with
    | [] => throw .misuse
    | "help" :: _ => throw .help
    | "run" :: words => (fun (s, a) => ([s], a)) <$> readRun words
    | "engines" :: words => (fun (s, a) => ([s], a)) <$> readEngines words
    | "deploy" :: words => (fun (s, a) => ([s], a)) <$> readDeploy words
    | "storage" :: words => readStorage words
    | _ => throw .misuse
  return ofScans (top :: scans) action

end Order

end ScriptHost.Console
