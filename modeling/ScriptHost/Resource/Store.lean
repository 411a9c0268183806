import ScriptHost.Error
import ScriptHost.FileTree
import ScriptHost.Resource.Basic
import ScriptHost.Resource.Path

/-!
# Resource stores

A store holds resources under their paths, either in memory or in the files below a root directory.
Every spelling of a path means its normal spelling.
-/

namespace ScriptHost

/-- Where resources are kept. -/
inductive ResourceStore where
  | memory (entries : Std.TreeMap String ByteArray)
  | directory (root : String)

namespace ResourceStore

/-- A store in memory that holds nothing. -/
def empty : ResourceStore :=
  .memory .empty

/-- The normal spelling of a path. -/
def key (path : String) : Except StoreFault String :=
  match ResourcePath.normalize? path with
  | some key => .ok key
  | none => .error (.invalidPath path)

/-- The file below a root that holds the resource with a normal path. -/
def fileOf (root key : String) : String :=
  joinPath root (.ofList (key.toList.dropWhile (· == '/')))

/-- The resource at a path. -/
def read (s : ResourceStore) (v : FileView) (path : String) : Except StoreFault Resource := do
  let key ← key path
  match s with
  | .memory entries =>
    match entries[key]? with
    | some content => return .new key content
    | none => throw (.notFound key)
  | .directory root =>
    match v.tree.read v.cwd (fileOf root key) with
    | .ok content => return .new key content
    | .error .notFound => throw (.notFound key)
    | .error fault => throw (.io key fault)

/-- What is read from a store in memory is the entry under the normal spelling of the path. -/
theorem read_memory {entries : Std.TreeMap String ByteArray} {v : FileView} {path : String}
    {resource : Resource} (h : (memory entries).read v path = .ok resource) :
    ∃ normal content, key path = .ok normal ∧ entries[normal]? = some content ∧
      resource = .new normal content := by
  rw [read] at h
  cases hkey : key path with
  | error fault =>
      rw [hkey] at h
      cases h
  | ok normal =>
      cases hcontent : entries[normal]? with
      | none =>
          simp only [hkey, hcontent, bind, Except.bind] at h
          cases h
      | some content =>
          simp only [hkey, hcontent, bind, Except.bind] at h
          exact ⟨normal, content, rfl, hcontent, (Except.ok.inj h).symm⟩

/-- Whether there is a resource at a path. -/
def contains (s : ResourceStore) (v : FileView) (path : String) : Bool :=
  match key path, s with
  | .ok key, .memory entries => entries.contains key
  | .ok key, .directory root => v.tree.isFile v.cwd (fileOf root key)
  | .error _, _ => false

/-- Write a resource, making the directories above it when they are missing. -/
def write (s : ResourceStore) (v : FileView) (path : String) (content : ByteArray) :
    Except StoreFault Unit × ResourceStore × FileView :=
  match key path, s with
  | .error fault, _ => (.error fault, s, v)
  | .ok key, .memory entries => (.ok (), .memory (entries.insert key content), v)
  | .ok key, .directory root =>
    let file := fileOf root key
    let (tree, fault) := v.tree.makeDirectoryPath v.cwd ((parentPath? file).getD "")
    match fault with
    | some fault => (.error (.io key fault), s, v.withTree tree)
    | none =>
      match tree.write v.cwd file content with
      | .error fault => (.error (.io key fault), s, v.withTree tree)
      | .ok tree => (.ok (), s, v.withTree tree)

/-- Delete a resource, and tell whether it was there. -/
def delete (s : ResourceStore) (v : FileView) (path : String) :
    Except StoreFault Bool × ResourceStore × FileView :=
  match key path, s with
  | .error fault, _ => (.error fault, s, v)
  | .ok key, .memory entries => (.ok (entries.contains key), .memory (entries.erase key), v)
  | .ok key, .directory root =>
    match v.tree.remove v.cwd (fileOf root key) with
    | .ok tree => (.ok true, s, v.withTree tree)
    | .error .notFound => (.ok false, s, v)
    | .error fault => (.error (.io key fault), s, v)

/-- How many resources a store in memory holds. -/
def size : ResourceStore → Nat
  | .memory entries => entries.size
  | .directory _ => 0

end ResourceStore

end ScriptHost
