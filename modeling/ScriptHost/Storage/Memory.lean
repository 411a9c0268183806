import Std.Data.TreeMap

/-!
# Entries kept in memory

Entries keyed by the normal spelling of their path and kept in its order.
-/

namespace ScriptHost

/-- Whether an entry's path is a given path or lies below it; everything lies below the root. -/
def isAtOrBelow (path top : String) : Bool :=
  if top = "/" then true
  else
    match top.toList.isPrefixOf? path.toList with
    | some [] => true
    | some (c :: _) => c == '/'
    | none => false

/-- Entries in memory. -/
structure MemoryEntries where
  entries : Std.TreeMap String ByteArray

namespace MemoryEntries

/-- No entries. -/
def empty : MemoryEntries :=
  ⟨.empty⟩

/-- The data of an entry. -/
def get? (m : MemoryEntries) (path : String) : Option ByteArray :=
  m.entries[path]?

/-- Entries with new data for a path. -/
def put (m : MemoryEntries) (path : String) (data : ByteArray) : MemoryEntries :=
  ⟨m.entries.insert path data⟩

/-- Entries without one path, and whether it was there. -/
def delete (m : MemoryEntries) (path : String) : Bool × MemoryEntries :=
  (m.entries.contains path, ⟨m.entries.erase path⟩)

/-- No entries, and how many there were. -/
def clear (m : MemoryEntries) : Nat × MemoryEntries :=
  (m.entries.size, empty)

/-- The paths at or below a path in order, each with the length of its data. -/
def list (m : MemoryEntries) (top : String) : List (String × Nat) :=
  (m.entries.toList.filter fun (path, _) => isAtOrBelow path top).map fun (path, data) =>
    (path, data.size)

end MemoryEntries

end ScriptHost
