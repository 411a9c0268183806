import ScriptHost.Inspector.Session
import ScriptHost.Program.Run
import ScriptHost.Resource.Basic
import ScriptHost.Text.ByteText
import ScriptHost.Text.Lines

/-!
# Running a script under an inspector

A bridge writes a script into a file, starts the debugger on it, and waits for the debugger to name the
URL of its inspector. What the connection to that URL yields then decides how the run ends: it may be
refused, or it delivers the inputs of a session. The file is gone when the run is over.
-/

namespace ScriptHost.Inspector

/-- What comes of connecting to an inspector. -/
inductive Connection where
  | refused
  /-- The session takes these inputs; after the last of them the connection is closed. -/
  | accepted (inputs : List Input)

/-- How scripts are run under an inspector: the debugger, the directory for its files, how long it may
take to name its inspector, and how long a script may run. -/
structure Bridge where
  debugger : List String
  workDir : String
  connectTimeout : Duration
  runTimeout : Duration

/-- The lines of some output, up to the first that is not Unicode text. -/
def readableLines (data : ByteArray) : List String :=
  let decoded := (Text.lines (Text.charsOfBytes data)).map fun line =>
    String.fromUTF8? (Text.bytesOfChars line)
  (decoded.takeWhile Option.isSome).filterMap id

/-- The first URL in some lines, with the lines after it. -/
def announcement? : List String → Option (String × List String)
  | [] => none
  | line :: rest =>
    match url? line with
    | some url => some (url, rest)
    | none => announcement? rest

/-- The lines that a script wrote itself. -/
def ownText (lines : List String) : String :=
  lines.foldl (fun text line => if isBanner line then text else text ++ line ++ "\n") ""

namespace Bridge

/-- The time that a debugger gets to name its inspector, unless it is set. -/
def defaultConnectTimeout : Duration :=
  .ofSeconds 10

/-- A bridge with the default time to name an inspector. -/
def new (debugger : List String) (workDir : String) (runTimeout : Duration) : Bridge :=
  ⟨debugger, workDir, defaultConnectTimeout, runTimeout⟩

/-- The directory of the scripts that are being debugged. -/
def scriptDir (b : Bridge) : String :=
  joinPath b.workDir "debug"

/-- The file of the script of a session. -/
def scriptFile (b : Bridge) (session : String) : String :=
  joinPath b.scriptDir (session ++ ".js")

/-- Why a session stops listening; a connection that delivers nothing more is closed. -/
def endingOf (inputs : List Input) : Ending :=
  match Session.released.run inputs with
  | some ⟨_, .inr ending⟩ => ending
  | _ => .closed

/-- What a run yields once the session has stopped listening and its process is over. -/
def outcome (b : Bridge) (session : String) (ending : Ending) (ended : Ended) (lines : List String) :
    Except Error Output :=
  match ending, ended.status with
  | .timedOut, _ | _, none => .error (.timeout b.runTimeout)
  | .terminated, some _ => .error (.debug (.terminated session))
  | .closed, some status =>
    if status.code = 0 then
      .ok { Output.empty with stdout := Text.lossy ended.stdout, stderr := ownText lines }
    else .error (.execution (.exited "debuggee" status.code (ownText lines)))

/-- The process of the debugger on the file of a session. -/
def invocation (b : Bridge) (session : String) (environment : EnvironmentPatch) : Invocation :=
  { Invocation.new (b.debugger ++ [b.scriptFile session]) with environment }

/-- Run the file of a script. -/
def drive (b : Bridge) (connect : String → Connection) (session : String)
    (environment : EnvironmentPatch) : HostM Error Output :=
  ExceptT.mk fun host =>
    match b.debugger with
    | [] => (.error (.debug .emptyCommand), host)
    | program :: _ =>
      let invocation := b.invocation session environment
      match invocation.start program host with
      | .error fault => (.error (.debug (.startFailed program fault)), host)
      | .ok start =>
        let limit := b.connectTimeout.nanos
        let ended := launch start.view start.environment start.tool invocation.argv none limit
        let host := (host.withTree ended.tree).later (Runner.startUp + min ended.duration limit)
        match announcement? (readableLines ended.stderr) with
        | none => (.error (.debug .noUrl), host)
        | some (url, lines) =>
          match connect url with
          | .refused => (.error (.debug .connectFailed), host)
          | .accepted inputs => (b.outcome session (endingOf inputs) ended lines, host)

/-- Write the script of a session; after a fault the steps before it stay done. -/
def writeScript (b : Bridge) (session : String) (content : ByteArray) : HostM Error Unit := do
  let host ← getThe Host
  match host.view.tree.makeDirectoryPath host.view.cwd b.scriptDir with
  | (tree, some fault) =>
    set (host.withTree tree)
    throw (.debug (.scriptFile b.scriptDir fault))
  | (tree, none) =>
    match tree.write host.view.cwd (b.scriptFile session) content with
    | .error fault =>
      set (host.withTree tree)
      throw (.debug (.scriptFile (b.scriptFile session) fault))
    | .ok tree => set (host.withTree tree)

/-- The host without the file of a script. -/
def discardScript (b : Bridge) (session : String) (host : Host) : Host :=
  match host.view.tree.remove host.view.cwd (b.scriptFile session) with
  | .ok tree => host.withTree tree
  | .error _ => host

/-- Run a resource under an inspector, in a session of its own. -/
def run (b : Bridge) (connect : String → Connection) (session : String) (resource : Resource)
    (environment : EnvironmentPatch) : HostM Error Output :=
  ExceptT.mk fun host =>
    let driven := do
      b.writeScript session resource.content
      b.drive connect session environment
    let (result, host) := driven.run.run host
    (result, b.discardScript session host)

end Bridge

end ScriptHost.Inspector
