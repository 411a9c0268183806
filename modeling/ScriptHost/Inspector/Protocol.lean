import ScriptHost.Json.Reader
import ScriptHost.Text.Blank

/-!
# The inspector protocol

What a debug session reads from and writes to the inspector of a running script: the URL that the
inspector announces, the events it sends, and the pattern by which a breakpoint finds its script.
-/

namespace ScriptHost.Inspector

/-- Something an inspector tells. -/
inductive Event where
  /-- The script stopped at a line, counted from zero, perhaps at a breakpoint. -/
  | paused (reason : String) (line : Nat) (hitBreakpoint : Bool)
  | resumed
  /-- The script is over. -/
  | contextDestroyed
  /-- The answer to a call, with the message of its error if it failed. -/
  | response (id : Nat) (error : Option String)
  | other (method : String)
  deriving DecidableEq, Repr

/-- The text from the first occurrence of another text on. -/
def fromFirst? (needle : List Char) : List Char → Option (List Char)
  | [] => if needle.isEmpty then some [] else none
  | c :: rest =>
    if needle.isPrefixOf (c :: rest) then some (c :: rest) else fromFirst? needle rest

/-- The URL in a line: from the scheme of a web socket up to the next blank. -/
def url? (line : String) : Option String :=
  (fromFirst? "ws://".toList line.toList).map fun found =>
    .ofList (found.takeWhile fun c => !Text.isBlank c)

/-- The characters that a pattern must escape to mean themselves. -/
def patternSigns : List Char :=
  "\\.+*?()|[]\x7b\x7d^$#&-~".toList

/-- The pattern of the URLs that end in a file name. -/
def urlPattern (fileName : String) : String :=
  .ofList (fileName.toList.flatMap fun c => if patternSigns.contains c then ['\\', c] else [c])
    ++ "$"

/-- The largest line number. -/
def maxLine : Nat := Nat.pow 2 32 - 1

/-- The line of the innermost frame of a pause; zero when it is not given. -/
def pausedLine (params : Json.Value) : Nat :=
  let path : List (String ⊕ Nat) :=
    [.inl "callFrames", .inr 0, .inl "location", .inl "lineNumber"]
  min (((params.at? path).bind Json.Value.unsigned64?).getD 0) maxLine

/-- The event of a notification. -/
def notification? (method : String) (value : Json.Value) : Option Event :=
  match method with
  | "Debugger.paused" => do
    let params ← value.get? "params"
    let hits := ((params.get? "hitBreakpoints").bind Json.Value.array?).getD []
    let reason := ((params.get? "reason").bind Json.Value.string?).getD ""
    return .paused reason (pausedLine params) (!hits.isEmpty)
  | "Debugger.resumed" => some .resumed
  | "Runtime.executionContextDestroyed" => some .contextDestroyed
  | other => some (.other other)

/-- The event that a message holds. A message with a number as its id is the answer to a call. -/
def event? (message : String) : Option Event := do
  let value ← Json.read? message
  match (value.get? "id").bind Json.Value.unsigned64? with
  | some id =>
    let error := ((value.get? "error").bind (·.get? "message")).bind Json.Value.string?
    return .response id error
  | none =>
    let method ← (value.get? "method").bind Json.Value.string?
    notification? method value

/-- Whether a line is one of those an inspector writes about itself. -/
def isBanner (line : String) : Bool :=
  ["Debugger listening on", "For help, see", "Debugger attached.",
    "Waiting for the debugger to disconnect"].any fun start => line.startsWith start

end ScriptHost.Inspector
