import ScriptHost.Environment
import ScriptHost.FileTree
import ScriptHost.Shell.Syntax
import ScriptHost.Text.ByteText

/-!
# The machine that runs programs

The machine holds what all processes share, the files, the open channels and the time, and the state of
the process that runs now. Processes run one after the other: a pipeline runs from left to right
with everything that is written kept until it is read, and a background process runs at once to its
end on a clock of its own. Everything that is written carries its time, so that it can be put in
order.
-/

namespace ScriptHost.Shell

/-- Bytes that were written by a process at some time. -/
structure Chunk where
  time : Nat
  writer : Nat
  data : ByteArray

/-- Something that descriptors stand for. -/
inductive Channel where
  | null
  /-- What was written, latest first, the position of the next read, and for processes that could
  write the times of their ends. -/
  | stream (chunks : List Chunk) (position : Nat) (holds : List (Nat × Nat))
  | file (place : List String) (offset : Nat) (append : Bool)
  | directory (place : List String)

/-- A process that was started in the background: its number, its end, its status, the signal that
ended it, and whether the shell has already noticed its end. -/
structure Job where
  pid : Nat
  ends : Nat
  status : Nat
  signal : Option Nat
  noticed : Bool

/-- What keeps a process from going on with its next command. -/
inductive Flow where
  | running
  | breaking (levels : Nat)
  | continuing (levels : Nat)
  | returning
  | exiting
  | signalled (signal : Nat)
  /-- The time is over, or the process does not come to an end. -/
  | expired
  deriving DecidableEq, Repr

/-- A signal on its way to a process, and when it was sent. -/
structure Sent where
  pid : Nat
  signal : Nat
  time : Nat

/-- What all processes share. -/
structure System where
  tree : FileTree
  channels : Array Channel
  now : Nat
  limit : Nat
  firstPid : Nat
  nextPid : Nat
  /-- Signals that were sent to other processes than the one that runs, latest first. -/
  pending : List Sent

/-- The state of a process. A process that is not a shell uses the first part only. -/
structure Process where
  pid : Nat
  cwd : List String
  /-- The channel of each open descriptor. -/
  descriptors : List (Nat × Nat)
  vars : Variables
  exported : List String
  readonly : List String
  name : String
  shellPid : Nat
  arguments : List String
  functions : List (String × Command)
  status : Nat
  flow : Flow
  line : Nat
  jobs : List Job
  lastJob : Option Nat
  /-- The options of the shell that are set, by their letters. -/
  options : List Char
  loopDepth : Nat
  /-- Inside a function, the variables that are local to it with their values outside. -/
  locals : Option (List (String × Option String))
  /-- How many tests of conditions the present command is part of. -/
  conditionDepth : Nat
  /-- What is run on signals; the signal zero is the end of the shell. An empty text ignores the
  signal. -/
  traps : List (Nat × String)
  /-- Signals with a trap that have arrived, latest first. -/
  raised : List Nat
  /-- The command of the shell that is running, in whose name faults are reported. -/
  speaker : Option String
  /-- How much of an argument with several options has been read. -/
  optionOffset : Nat

/-- The machine. -/
structure Machine where
  system : System
  process : Process

namespace Machine

/-! ## Channels -/

/-- The chunks of a stream in order of time. -/
def inOrder (chunks : List Chunk) : List Chunk :=
  match chunks with
  | [] | [_] => chunks
  | cs => cs.reverse.mergeSort fun a b => decide (a.time ≤ b.time)

/-- What was written to a stream, in order of time. -/
def streamData (chunks : List Chunk) : ByteArray :=
  match inOrder chunks with
  | [c] => c.data
  | cs => cs.foldl (fun data c => data ++ c.data) .empty

/-- When the byte before a position of a stream was written. -/
def arrival (position : Nat) : List Chunk → Nat
  | [] => 0
  | c :: rest =>
    if position ≤ c.data.size then c.time else arrival (position - c.data.size) rest

/-- Change a channel. -/
def setChannel (m : Machine) (id : Nat) (c : Channel) : Machine :=
  { m with system := { m.system with channels := m.system.channels.setIfInBounds id c } }

/-- A new channel and its number. -/
def newChannel (m : Machine) (c : Channel) : Nat × Machine :=
  (m.system.channels.size,
    { m with system := { m.system with channels := m.system.channels.push c } })

/-- A stream from which some data can be read. -/
def sourceOf (data : ByteArray) : Channel :=
  .stream [⟨0, 0, data⟩] 0 []

/-- The channel of a descriptor. -/
def channelOf? (m : Machine) (descriptor : Nat) : Option (Nat × Channel) := do
  let id ← m.process.descriptors.lookup descriptor
  let c ← m.system.channels[id]?
  return (id, c)

/-- Let a descriptor stand for a channel. -/
def bind (m : Machine) (descriptor id : Nat) : Machine :=
  { m with process := { m.process with
    descriptors := (descriptor, id) :: m.process.descriptors.filter (·.1 != descriptor) } }

/-- Close a descriptor. -/
def unbind (m : Machine) (descriptor : Nat) : Machine :=
  { m with process := { m.process with
    descriptors := m.process.descriptors.filter (·.1 != descriptor) } }

/-- Put data into a file at an offset. -/
def patched (old data : ByteArray) (offset : Nat) : ByteArray :=
  if offset = old.size then old ++ data
  else
    let start := old.extract 0 offset
    let gap : ByteArray := ⟨Array.replicate (offset - old.size) 0⟩
    start ++ gap ++ data ++ old.extract (offset + data.size) old.size

/-- The content of the file at a place. -/
def contentAt (m : Machine) (place : List String) : ByteArray :=
  match m.system.tree.node? place with
  | some (.file content) => content
  | _ => .empty

/-- Write data to a descriptor. Nothing happens when it is not open. -/
def write (m : Machine) (descriptor : Nat) (data : ByteArray) : Machine :=
  match m.channelOf? descriptor with
  | some (id, .stream chunks position holds) =>
    let chunk : Chunk := ⟨m.system.now, m.process.pid, data⟩
    m.setChannel id (match chunks with
      | ⟨time, writer, old⟩ :: rest =>
        if time = m.system.now && writer = m.process.pid then
          .stream (⟨time, writer, old ++ data⟩ :: rest) position holds
        else .stream (chunk :: chunks) position holds
      | [] => .stream [chunk] position holds)
  | some (id, .file place offset append) =>
    let old := m.contentAt place
    let start := if append then old.size else offset
    let m := { m with system := { m.system with
      tree := m.system.tree.put place (.file (patched old data start)) } }
    m.setChannel id (.file place (start + data.size) append)
  | _ => m

/-- Write a text of bytes to a descriptor. -/
def print (m : Machine) (descriptor : Nat) (text : String) : Machine :=
  if text.isEmpty then m else m.write descriptor (Text.bytesOfText text)

/-- Everything that can still be read from a descriptor. -/
def unread (m : Machine) (descriptor : Nat) : ByteArray :=
  match m.channelOf? descriptor with
  | some (_, .stream chunks position _) =>
    let data := streamData chunks
    if position = 0 then data else data.extract position data.size
  | some (_, .file place offset _) =>
    let data := m.contentAt place
    data.extract offset data.size
  | _ => .empty

/-- Let something keep the process from going on. -/
def withFlow (m : Machine) (flow : Flow) : Machine :=
  { m with process := { m.process with flow } }

/-- Let the time be no earlier than given. A process that is still running at the limit never ends. -/
def waitUntil (m : Machine) (time : Nat) : Machine :=
  let m := { m with system := { m.system with now := max m.system.now time } }
  if m.system.now > m.system.limit then m.withFlow .expired else m

/-- Let time pass. -/
def elapse (m : Machine) (nanos : Nat) : Machine :=
  m.waitUntil (m.system.now + nanos)

/-- Go on by some bytes in what can be read from a descriptor, once they have been written. -/
def consume (m : Machine) (descriptor n : Nat) : Machine :=
  match m.channelOf? descriptor with
  | some (id, .stream chunks position holds) =>
    let m := m.setChannel id (.stream chunks (position + n) holds)
    if n = 0 then m else m.waitUntil (arrival (position + n) (inOrder chunks))
  | some (id, .file place offset append) => m.setChannel id (.file place (offset + n) append)
  | _ => m

/-- The last end of a process that holds a stream. -/
def lastHold (holds : List (Nat × Nat)) : Nat :=
  (holds.map (·.2)).foldl max 0

/-- Read everything from a descriptor; the end is reached when nothing can be written any more. -/
def readAll (m : Machine) (descriptor : Nat) : ByteArray × Machine :=
  let data := m.unread descriptor
  let m := m.consume descriptor data.size
  match m.channelOf? descriptor with
  | some (_, .stream _ _ holds) => (data, m.waitUntil (lastHold holds))
  | _ => (data, m)

/-- The process that runs now may write to its streams until now: they stay open that long. -/
def holdStreams (m : Machine) : Machine :=
  m.process.descriptors.foldl (fun m (_, id) =>
    match m.system.channels[id]? with
    | some (.stream chunks position holds) =>
      m.setChannel id (.stream chunks position
        ((m.process.pid, m.system.now) :: holds.filter (·.1 != m.process.pid)))
    | _ => m) m

/-- Undo what a process would write after now. -/
def silence (m : Machine) (pid : Nat) : Machine :=
  { m with system := { m.system with channels := m.system.channels.map fun
    | .stream chunks position holds =>
      .stream (chunks.filter fun c => c.writer != pid || c.time ≤ m.system.now) position
        (holds.map fun (p, time) => if p = pid then (p, min time m.system.now) else (p, time))
    | c => c } }

/-! ## Ends -/

/-- Whether the process goes on. -/
def isRunning (m : Machine) : Bool :=
  m.process.flow == .running

/-- The machine with another status of the last command. -/
def withStatus (m : Machine) (status : Nat) : Machine :=
  { m with process := { m.process with status } }

/-- Whether an option of the shell is set. -/
def hasOption (m : Machine) (letter : Char) : Bool :=
  m.process.options.contains letter

/-- The signal that no trap holds up. -/
def killSignal : Nat := 9

/-- Let a signal arrive at the process that runs now: it is kept for its trap, or ends the process. -/
def receive (m : Machine) (signal : Nat) : Machine :=
  match m.process.flow with
  | .expired | .signalled _ => m
  | _ =>
    match if signal = killSignal then none else m.process.traps.lookup signal with
    | some "" => m
    | some _ => { m with process := { m.process with raised := signal :: m.process.raised } }
    | none => m.withFlow (.signalled signal)

/-- Take the signals that have been sent to the process that runs now. -/
def takeSignals (m : Machine) : Machine :=
  let (mine, others) := m.system.pending.partition fun s =>
    s.pid == m.process.pid && s.time ≤ m.system.now
  mine.foldr (fun s m => m.receive s.signal) { m with system := { m.system with pending := others } }

/-- The status of a process that a signal ended. -/
def signalStatus (signal : Nat) : Nat := 128 + signal

/-! ## Variables -/

/-- The value of a variable. -/
def valueOf? (m : Machine) (name : String) : Option String :=
  m.process.vars[name]?

/-- Set a variable. -/
def setVariable (m : Machine) (name value : String) : Machine :=
  { m with process := { m.process with vars := m.process.vars.insert name value } }

/-- Mark a variable for the environment of other programs. -/
def exportVariable (m : Machine) (name : String) : Machine :=
  { m with process := { m.process with
    exported := if m.process.exported.contains name then m.process.exported
      else name :: m.process.exported } }

/-- Remove a variable. -/
def unsetVariable (m : Machine) (name : String) : Machine :=
  { m with process := { m.process with
    vars := m.process.vars.erase name
    exported := m.process.exported.filter (· != name) } }

/-- The number of groups in which the shell keeps its variables. -/
def variableGroups : Nat := 39

/-- The group of a variable. -/
def variableGroup (name : String) : Nat :=
  (name.toList.foldl (fun n c => n + c.toNat) ((name.toList.headD '\x00').toNat * 16)) % variableGroups

/-- The environment of programs that are started, group by group. -/
def environment (m : Machine) : List (String × String) :=
  let exported := m.process.vars.toList.filter fun (name, _) => m.process.exported.contains name
  exported.mergeSort fun a b => decide (variableGroup a.1 ≤ variableGroup b.1)

/-- The values that separate fields. -/
def fieldSeparators (m : Machine) : List Char :=
  match m.valueOf? "IFS" with
  | some s => s.toList
  | none => [' ', '\t', '\n']

/-! ## Messages -/

/-- Write a message of the shell to its standard error, in the name of the command that runs. -/
def complain (m : Machine) (message : String) : Machine :=
  let speaker := match m.process.speaker with
    | some command => s!"{command}: "
    | none => ""
  m.print 2 s!"{m.process.name}: {m.process.line}: {speaker}{message}\n"

/-- Run something in the name of a command of the shell. -/
def speakingAs (m : Machine) (command : String) (body : Machine → Machine) : Machine :=
  let outer := m.process.speaker
  let m := body { m with process := { m.process with speaker := some command } }
  { m with process := { m.process with speaker := outer } }

/-- Fail in a way that ends the shell. -/
def abort (m : Machine) (message : String) : Machine :=
  ((m.complain message).withStatus 2).withFlow .exiting

/-! ## Files -/

/-- The files as the process sees them. -/
def view (m : Machine) : FileView :=
  ⟨m.system.tree, m.process.cwd⟩

/-- The machine with other files. -/
def withTree (m : Machine) (tree : FileTree) : Machine :=
  { m with system := { m.system with tree } }

end Machine

end ScriptHost.Shell
