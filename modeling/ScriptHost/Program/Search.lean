import ScriptHost.Environment
import ScriptHost.FileTree

/-!
# Finding programs

A program is named by a path, or by a bare name that is looked for in the directories of the search
path. What counts as a bare name differs between asking whether a program is there, where a path
has more than one component, and starting it, where a path has a slash.
-/

namespace ScriptHost

/-- The variable that holds the search path. -/
def searchPathVariable : String := "PATH"

/-- The directories of a search path. -/
def directoriesOf (searchPath : String) : List String :=
  searchPath.splitOn ":"

/-- The number of components of a path: a leading slash or single dot counts as one, and so does
every other name that is not a single dot. -/
def componentCount (path : String) : Nat :=
  let names := path.splitOn "/"
  let named := (names.filter fun s => s != "" && s != ".").length
  if path.startsWith "/" || names.head? == some "." then named + 1 else named

namespace FileView

/-- Whether a program is there: as a file when it is named by a path, else in the search path. -/
def isAvailable (v : FileView) (vars : Variables) (program : String) : Bool :=
  if componentCount program > 1 then v.isFile program
  else match vars[searchPathVariable]? with
    | none => false
    | some path => (directoriesOf path).any fun dir => v.isFile (joinPath dir program)

/-- The tool that the program at a path is. -/
def toolAt (v : FileView) (path : String) : Except FileFault String := do
  match ← v.tree.lookup v.cwd path with
  | (_, .program tool) => return tool
  | _ => throw .notExecutable

/-- The search path of programs that are started without one. -/
def defaultSearchPath : String := "/bin:/usr/bin"

/-- The tool in the first of some directories that has the program. -/
def toolIn (v : FileView) (program : String) (fault : FileFault) :
    List String → Except FileFault String
  | [] => .error fault
  | dir :: rest =>
    match v.toolAt (joinPath dir program) with
    | .ok tool => .ok tool
    | .error .notExecutable => v.toolIn program .notExecutable rest
    | .error _ => v.toolIn program fault rest

/-- The tool that is started for a program under a search path, if there is one. -/
def findTool (v : FileView) (searchPath? : Option String) (program : String) :
    Except FileFault String :=
  if program = "" then .error .notFound
  else if program.contains '/' then v.toolAt program
  else v.toolIn program .notFound (directoriesOf (searchPath?.getD defaultSearchPath))

end FileView

end ScriptHost
