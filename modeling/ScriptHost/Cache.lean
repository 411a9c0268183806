import ScriptHost.Compiler.Basic
import ScriptHost.Metrics
import ScriptHost.Resource.Store

/-!
# The artifact cache

At most one artifact is kept for each compiler and path, in a slot. A request for an artifact opens
the slot, reads the resource and takes the artifact in the slot if it was made from the same content;
otherwise the content is compiled, and the slot holds the new artifact or nothing. A slot that is
left empty by a failure is taken away again.
-/

namespace ScriptHost

/-- An artifact in the cache with its number among all artifacts the cache has published. -/
structure HeldArtifact where
  serial : Nat
  artifact : Artifact

/-- A place for the artifact of a compiler and a path. -/
structure Slot where
  compiler : String
  path : String
  held : Option HeldArtifact

namespace Slot

/-- Whether a slot belongs to a compiler and a path. -/
def isFor (s : Slot) (compiler path : String) : Bool :=
  s.compiler == compiler && s.path == path

end Slot

/-- The slots of the cache and what was counted. The counters are numbers of events; fewer than
`2 ^ 64` events are meant, which is what the 64 bits of a counter hold. -/
structure ArtifactCache where
  slots : List Slot
  hits : Nat
  misses : Nat
  compilations : Nat
  failures : Nat

namespace ArtifactCache

/-- A cache without slots. -/
def empty : ArtifactCache :=
  ⟨[], 0, 0, 0, 0⟩

/-- The slot of a compiler and a path. -/
def slot? (c : ArtifactCache) (compiler path : String) : Option Slot :=
  c.slots.find? (·.isFor compiler path)

/-- The artifact held for a compiler and a path. -/
def held? (c : ArtifactCache) (compiler path : String) : Option HeldArtifact :=
  (c.slot? compiler path).bind (·.held)

/-- The held artifact if it was made from content with a fingerprint. -/
def fresh? (c : ArtifactCache) (compiler path : String) (fingerprint : Fingerprint) :
    Option HeldArtifact :=
  (c.held? compiler path).filter (·.artifact.fingerprint = fingerprint)

/-- Make a slot for a compiler and a path unless there is one. -/
def openSlot (c : ArtifactCache) (compiler path : String) : ArtifactCache :=
  if (c.slot? compiler path).isSome then c
  else { c with slots := c.slots ++ [⟨compiler, path, none⟩] }

/-- Put an artifact, or nothing, into the slot of a compiler and a path. -/
def hold (c : ArtifactCache) (compiler path : String) (held : Option HeldArtifact) :
    ArtifactCache :=
  { c with slots := c.slots.map fun s => if s.isFor compiler path then { s with held } else s }

/-- Take away the slot of a compiler and a path if it is empty. -/
def release (c : ArtifactCache) (compiler path : String) : ArtifactCache :=
  { c with slots := c.slots.filter fun s => !(s.isFor compiler path && s.held.isNone) }

/-- Publish a new artifact in the slot of a compiler and a path. -/
def publish (c : ArtifactCache) (compiler path : String) (artifact : Artifact) :
    HeldArtifact × ArtifactCache :=
  let held : HeldArtifact := ⟨c.compilations, artifact⟩
  (held, { c.hold compiler path (some held) with
    misses := c.misses + 1, compilations := c.compilations + 1 })

/-- Drop the artifact of a compiler and a path after a failed compilation. -/
def discard (c : ArtifactCache) (compiler path : String) : ArtifactCache :=
  { c.hold compiler path none with misses := c.misses + 1, failures := c.failures + 1 }

/-- The artifact of a path: the held one if it is up to date, else the result of compiling what the
store holds now. -/
def getOrCompile (c : ArtifactCache) (store : ResourceStore) (compiler : Compiler) (path : String)
    (host : Host) : Except Error HeldArtifact × ArtifactCache × Host :=
  let c := c.openSlot compiler.name path
  match store.read host.view path with
  | .error fault => (.error (.store fault), c.release compiler.name path, host)
  | .ok resource =>
    match c.fresh? compiler.name path resource.fingerprint with
    | some held => (.ok held, { c with hits := c.hits + 1 }, host)
    | none =>
      match (compiler.compile (.ofResource resource)).run.run host with
      | (.ok artifact, host) =>
        let (held, c) := c.publish compiler.name path artifact
        (.ok held, c, host)
      | (.error report, host) =>
        (.error (.compilation path report), (c.discard compiler.name path).release compiler.name path,
          host)

/-- Drop the slots of a path, and tell whether there were any. -/
def invalidate (c : ArtifactCache) (path : String) : Bool × ArtifactCache :=
  (c.slots.any (·.path == path), { c with slots := c.slots.filter (·.path != path) })

/-- Drop all slots. -/
def clear (c : ArtifactCache) : ArtifactCache :=
  { c with slots := [] }

/-- The number of artifacts held. -/
def size (c : ArtifactCache) : Nat :=
  c.slots.countP (·.held.isSome)

/-- What was counted, and how many artifacts are held. -/
def counters (c : ArtifactCache) : CacheCounters :=
  ⟨c.hits, c.misses, c.compilations, c.failures, c.size⟩

end ArtifactCache

end ScriptHost
