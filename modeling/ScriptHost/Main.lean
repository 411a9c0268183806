import ScriptHost.Console.Image

/-!
# The program

Reads the files of a call into an image, answers the call on it, writes the changed files back and says
the reply. The rules are all in `ScriptHost.Console.answer`.
-/

namespace ScriptHost.Console

/-- The variables that the program and the scripts it runs are given. -/
def variableNames : List String :=
  ["HOME", "PATH", "LC_ALL", "LANG", "USER", "TMPDIR", "XDG_DATA_HOME", "XDG_CONFIG_HOME",
    "SCRIPTOR_CONFIG", "SCRIPTOR_CONFIG_DIR"]

/-- The values of the variables that are set. -/
def readVariables : IO Variables := do
  let pairs ← variableNames.filterMapM fun name => do
    return (← IO.getEnv name).map fun value => (name, value)
  return .ofPairs pairs

/-- Add a file to the image if it can be read. -/
def readInto (host : Host) (path : String) : IO Host := do
  match ← (IO.FS.readBinFile path).toBaseIO with
  | .error _ => return host
  | .ok content =>
    let view := host.view
    let tree := (view.tree.makeDirectoryPath view.cwd ((parentPath? path).getD "/")).1
    return match tree.write view.cwd path content with
      | .ok tree => host.withTree tree
      | .error _ => host

/-- Read the files of a call, in as many rounds as it takes to learn of all of them. -/
def readImage (words : List String) : Nat → Host → IO Host
  | 0, host => return host
  | rounds + 1, host => do
    let missing := (filesOf words host).filter fun path => !host.view.isFile path
    if missing.isEmpty then return host
    else readImage words rounds (← missing.foldlM readInto host)

/-- Write the files that a call has changed, and remove those that it has removed. -/
def writeImage (before after : Host) : IO Unit := do
  for (place, content) in changedFiles before.view.tree after.view.tree do
    IO.FS.createDirAll (FileTree.pathOf place.dropLast)
    IO.FS.writeBinFile (FileTree.pathOf place) content
  for place in removedFiles before.view.tree after.view.tree do
    IO.FS.removeFile (FileTree.pathOf place)

/-- Answer the call that some words make in the present directory. -/
def call (words : List String) : IO UInt32 := do
  let cwd := (← IO.currentDir).toString
  let tree := (FileTree.standard.makeDirectoryPath [] cwd).1
  let place := FileTree.steps cwd
  let before ← readImage words (maxJobDepth + 4)
    ⟨⟨tree, place⟩, ← readVariables, 0, ← IO.monoNanosNow⟩
  let (reply, after) := answer words before
  writeImage before after
  IO.print reply.stdout
  IO.eprint reply.stderr
  return reply.code.toUInt32

end ScriptHost.Console

/-- Answer the call that the arguments make. -/
def main (args : List String) : IO UInt32 :=
  ScriptHost.Console.call args
