import Std.Data.TreeMap

/-!
# File trees

A file tree maps lists of names to directories, files, installed programs and the null device; the
empty list is the root directory. Paths are resolved the POSIX way: every name but the last must
lead to a directory, a trailing slash asks for one, and names and paths keep to the limits of the
tree, if it has any. There are no symbolic links and no permissions.
-/

namespace ScriptHost

/-- Why an operation on the file tree fails. -/
inductive FileFault where
  | notFound
  | notDirectory
  | isDirectory
  | nameTooLong
  | invalidName
  | exists
  | notExecutable
  deriving DecidableEq, Repr

/-- Messages leave the system's own wording of a fault open. -/
def FileFault.message (_ : FileFault) : String :=
  "<os error>"

/-- The text by which programs name a fault. -/
def FileFault.text : FileFault → String
  | .notFound => "No such file or directory"
  | .notDirectory => "Not a directory"
  | .isDirectory => "Is a directory"
  | .nameTooLong => "File name too long"
  | .invalidName => "Invalid argument"
  | .exists => "File exists"
  | .notExecutable => "Permission denied"

/-- What stands at a place of the tree. -/
inductive Node where
  | directory
  | file (content : ByteArray)
  /-- A program, by the name of the tool it is. -/
  | program (tool : String)
  | nullDevice

/-- How long names and paths may be, in bytes. -/
structure NameLimits where
  /-- The longest name of a single file. -/
  maxName : Nat
  /-- The first length that a path may not have. -/
  pathBound : Nat

/-- The limits that file systems usually have. -/
def NameLimits.usual : NameLimits :=
  ⟨255, 4096⟩

/-- A tree of files below the root directory, with the limits on its names and paths, if there are
any. -/
structure FileTree where
  nodes : Std.TreeMap (List String) Node
  limits : Option NameLimits

namespace FileTree

/-- The tree with the usual limits that holds nothing but its root. -/
def empty : FileTree :=
  ⟨.empty, some .usual⟩

/-- What stands at a place. -/
def node? (t : FileTree) (place : List String) : Option Node :=
  match place with
  | [] => some .directory
  | _ => t.nodes[place]?

/-- Whether a place is a directory. -/
def isDirectoryAt (t : FileTree) (place : List String) : Bool :=
  match t.node? place with
  | some .directory => true
  | _ => false

/-- Put something at a place. -/
def put (t : FileTree) (place : List String) (node : Node) : FileTree :=
  { t with nodes := t.nodes.insert place node }

/-- Take away what stands at a place. -/
def erase (t : FileTree) (place : List String) : FileTree :=
  { t with nodes := t.nodes.erase place }

/-- Whether a name is longer than the limits allow. -/
def nameTooLong (t : FileTree) (name : String) : Bool :=
  t.limits.any (name.utf8ByteSize > ·.maxName)

/-- Whether a path is longer than the limits allow. -/
def pathTooLong (t : FileTree) (path : String) : Bool :=
  t.limits.any (path.utf8ByteSize ≥ ·.pathBound)

/-- The names on a path, empty ones left out; a trailing slash counts as a final dot. -/
def steps (path : String) : List String :=
  let names := ((path.toList.splitOn '/').map String.ofList).filter (· != "")
  if path.toList.getLast? = some '/' then names ++ ["."] else names

/-- Walk along names from a place. Whatever is walked through must be a directory; what the last
name leads to need not exist. -/
def walk (t : FileTree) (place : List String) : List String → Except FileFault (List String)
  | [] => .ok place
  | name :: rest =>
    match t.node? place with
    | none => .error .notFound
    | some .directory =>
      if name = "." then t.walk place rest
      else if name = ".." then t.walk place.dropLast rest
      else if t.nameTooLong name then .error .nameTooLong
      else t.walk (place ++ [name]) rest
    | some _ => .error .notDirectory

/-- The place a path leads to, seen from a working directory. -/
def resolve (t : FileTree) (cwd : List String) (path : String) : Except FileFault (List String) :=
  if path.contains '\x00' then .error .invalidName
  else if path = "" then .error .notFound
  else if t.pathTooLong path then .error .nameTooLong
  else t.walk (if path.startsWith "/" then [] else cwd) (steps path)

/-- What a path leads to, with its place. -/
def lookup (t : FileTree) (cwd : List String) (path : String) :
    Except FileFault (List String × Node) := do
  let place ← t.resolve cwd path
  match t.node? place with
  | some node => return (place, node)
  | none => throw .notFound

/-- Whether a path leads to a file. -/
def isFile (t : FileTree) (cwd : List String) (path : String) : Bool :=
  match t.lookup cwd path with
  | .ok (_, .file _) | .ok (_, .program _) => true
  | _ => false

/-- Whether a path leads to a directory. -/
def isDirectory (t : FileTree) (cwd : List String) (path : String) : Bool :=
  match t.lookup cwd path with
  | .ok (_, .directory) => true
  | _ => false

/-- The content of the file a path leads to. -/
def read (t : FileTree) (cwd : List String) (path : String) : Except FileFault ByteArray := do
  match ← t.lookup cwd path with
  | (_, .file content) => return content
  | (_, .directory) => throw .isDirectory
  | (_, .program _) | (_, .nullDevice) => return .empty

/-- Change the content of the file a path leads to, creating the file when it is missing. -/
def modify (t : FileTree) (cwd : List String) (path : String) (f : ByteArray → ByteArray) :
    Except FileFault FileTree := do
  let place ← t.resolve cwd path
  match t.node? place with
  | none =>
    if t.isDirectoryAt place.dropLast then return t.put place (.file (f .empty))
    else throw .notFound
  | some (.file content) => return t.put place (.file (f content))
  | some .directory => throw .isDirectory
  | some (.program _) => return t.put place (.file (f .empty))
  | some .nullDevice => return t

/-- Set the content of the file a path leads to. -/
def write (t : FileTree) (cwd : List String) (path : String) (content : ByteArray) :
    Except FileFault FileTree :=
  t.modify cwd path fun _ => content

/-- Remove the file a path leads to. -/
def remove (t : FileTree) (cwd : List String) (path : String) : Except FileFault FileTree := do
  match ← t.lookup cwd path with
  | (_, .directory) => throw .isDirectory
  | (place, _) => return t.erase place

/-- Make a directory below a place for every name on the way that is missing. After a fault the
directories made before it stay. -/
def makeDirectories (t : FileTree) (place : List String) :
    List String → FileTree × Option FileFault
  | [] => (t, none)
  | name :: rest =>
    match t.walk place [name] with
    | .error fault => (t, some fault)
    | .ok next =>
      match t.node? next with
      | none => (t.put next .directory).makeDirectories next rest
      | some .directory => t.makeDirectories next rest
      | some _ => (t, some (if rest.isEmpty then .exists else .notDirectory))

/-- Make the directory a path leads to and those above it, as far as they are missing. -/
def makeDirectoryPath (t : FileTree) (cwd : List String) (path : String) :
    FileTree × Option FileFault :=
  if path.contains '\x00' then (t, some .invalidName)
  else if t.pathTooLong path then (t, some .nameTooLong)
  else t.makeDirectories (if path.startsWith "/" then [] else cwd) (steps path)

/-- Whether a place lies at or below another. -/
def isWithin (place top : List String) : Bool :=
  top.isPrefixOf place

/-- Remove a directory with all that is below it. -/
def removeAll (t : FileTree) (place : List String) : FileTree :=
  { t with nodes := t.nodes.filter fun other _ => !isWithin other place }

/-- The places of the files below a place, relative to it and in order. -/
def filesBelow (t : FileTree) (place : List String) : List (List String) :=
  t.nodes.toList.filterMap fun (other, node) =>
    match node with
    | .file _ | .program _ =>
      if isWithin other place then some (other.drop place.length) else none
    | _ => none

/-- The paths of the files below a place, relative to it, in the order of their text. -/
def pathsBelow (t : FileTree) (place : List String) : List String :=
  ((t.filesBelow place).map ("/".intercalate ·)).mergeSort fun a b => decide (a ≤ b)

/-- The names directly below a place, in order. -/
def children (t : FileTree) (place : List String) : List String :=
  t.nodes.keys.filterMap fun other =>
    if other.length = place.length + 1 && isWithin other place then other.getLast? else none

/-- The absolute path of a place. -/
def pathOf (place : List String) : String :=
  if place.isEmpty then "/" else .join (place.map ("/" ++ ·))

end FileTree

/-- What a program sees of the files: the tree and the directory that relative paths start from. -/
structure FileView where
  tree : FileTree
  cwd : List String

namespace FileView

/-- The view with another tree. -/
def withTree (v : FileView) (tree : FileTree) : FileView :=
  { v with tree }

/-- Whether a path leads to a file. -/
def isFile (v : FileView) (path : String) : Bool :=
  v.tree.isFile v.cwd path

end FileView

/-- The file a path names below a directory path. -/
def joinPath (directory file : String) : String :=
  if file.startsWith "/" then file
  else if directory = "" || directory.endsWith "/" then directory ++ file
  else directory ++ "/" ++ file

/-- The path of the directory that holds a path's last name; none when there is no name. -/
def parentPath? (path : String) : Option String :=
  let trimmed := path.toList.reverse.dropWhile (· == '/')
  if trimmed.isEmpty then none
  else
    let above := trimmed.dropWhile (· != '/')
    let parent := above.dropWhile (· == '/')
    some (.ofList (if parent.isEmpty && !above.isEmpty then ['/'] else parent.reverse))

end ScriptHost
