import Mathlib.Data.Multiset.Count
import ScriptHost.Cache

/-!
# Concurrent lookups in the artifact cache

`ArtifactCache.getOrCompile` answers one request after the other. Here requests run at the same
time: each is a lookup that is cut into steps, and between two of its steps other lookups may take
some of theirs, and resources may be written and deleted. The cache is a map from compilers and
paths to slots in memory. A lookup clones a handle on its slot, locks the slot, reads the resource,
takes the artifact in the slot or compiles, and unlocks the slot again; after a failure it takes the
slot out of the map if nothing is in it and nobody else has a handle on it; at last it drops its own
handle.
-/

namespace ScriptHost

/-- The cache as lookups share it, with the resources and the host. The slots in memory are
numbered: `entries` says what they hold, `locked` which of them are locked, and `handles` how many
handles on them there are, the one in the map among them; those from `fresh` on are unused. For each
path, `changes` counts how often the content there has changed; no step depends on it. -/
structure SharedCache where
  entries : Nat → Option HeldArtifact
  locked : Nat → Bool
  handles : Nat → Nat
  fresh : Nat
  slots : String × String → Option Nat
  hits : Nat
  misses : Nat
  compilations : Nat
  failures : Nat
  store : ResourceStore
  host : Host
  changes : String → Nat

namespace SharedCache

/-- A cache without slots. -/
def empty (store : ResourceStore) (host : Host) : SharedCache where
  entries _ := none
  locked _ := false
  handles _ := 0
  fresh := 0
  slots _ := none
  hits := 0
  misses := 0
  compilations := 0
  failures := 0
  store := store
  host := host
  changes _ := 0

/-- The bytes of the content at a path, if there is any that can be read. -/
def contentAt? (s : SharedCache) (path : String) : Option (Array UInt8) :=
  (s.store.read s.host.view path).toOption.map (·.content.data)

/-- The cache with other resources on another host. -/
def withContents (s : SharedCache) (store : ResourceStore) (host : Host) : SharedCache :=
  let after : SharedCache := { s with store, host }
  { after with
    changes := fun path =>
      if after.contentAt? path = s.contentAt? path then s.changes path else s.changes path + 1 }

/-- Write a resource. -/
def write (s : SharedCache) (path : String) (content : ByteArray) : SharedCache :=
  let (_, store, view) := s.store.write s.host.view path content
  s.withContents store { s.host with view }

/-- Delete a resource. -/
def delete (s : SharedCache) (path : String) : SharedCache :=
  let (_, store, view) := s.store.delete s.host.view path
  s.withContents store { s.host with view }

/-- Lock a slot. -/
def lock (s : SharedCache) (slot : Nat) : SharedCache :=
  { s with locked := Function.update s.locked slot true }

/-- Unlock a slot. -/
def unlock (s : SharedCache) (slot : Nat) : SharedCache :=
  { s with locked := Function.update s.locked slot false }

/-- Put an artifact, or nothing, into a slot. -/
def put (s : SharedCache) (slot : Nat) (entry : Option HeldArtifact) : SharedCache :=
  { s with entries := Function.update s.entries slot entry }

/-- Clone a handle on a slot. -/
def clone (s : SharedCache) (slot : Nat) : SharedCache :=
  { s with handles := Function.update s.handles slot (s.handles slot + 1) }

/-- Drop a handle on a slot. -/
def drop (s : SharedCache) (slot : Nat) : SharedCache :=
  { s with handles := Function.update s.handles slot (s.handles slot - 1) }

/-- Put a new slot into the map, and clone a handle on it. -/
def create (s : SharedCache) (key : String × String) : SharedCache :=
  { s with
    entries := Function.update s.entries s.fresh none
    locked := Function.update s.locked s.fresh false
    handles := Function.update s.handles s.fresh 2
    fresh := s.fresh + 1
    slots := Function.update s.slots key (some s.fresh) }

/-- Take the slot of a key out of the map. -/
def unlink (s : SharedCache) (key : String × String) : SharedCache :=
  { s with slots := Function.update s.slots key none }

/-- Whether a slot is the one in the map for a key, nobody but the map and one lookup has a handle
on it, it is not locked, and nothing is in it. -/
def Unused (s : SharedCache) (key : String × String) (slot : Nat) : Prop :=
  s.slots key = some slot ∧ s.handles slot = 2 ∧ s.locked slot = false ∧ s.entries slot = none

end SharedCache

/-- How a lookup ends: with an artifact that was there, with one that it has compiled, or with an
error. -/
inductive Ending where
  | hit (held : HeldArtifact)
  | compiled (held : HeldArtifact)
  | failed (error : Error)

/-- What is returned at the end of a lookup. -/
def Ending.result : Ending → Except Error HeldArtifact
  | hit held | compiled held => .ok held
  | failed error => .error error

/-- How far a lookup has come. -/
inductive Stage where
  /-- It has not looked at the map yet. -/
  | arrived
  /-- It has a handle on its slot and waits for the lock. -/
  | waiting (slot : Nat)
  /-- It has the lock. -/
  | inside (slot : Nat)
  /-- It has read the resource. -/
  | loaded (slot : Nat) (resource : Resource)
  /-- It compiles the resource. -/
  | compiling (slot : Nat) (resource : Resource)
  /-- It has failed and unlocked the slot. -/
  | rejected (slot : Nat) (error : Error)
  /-- It has nothing left to do but to drop its handle. -/
  | leaving (slot : Nat) (ending : Ending)
  /-- It has returned. -/
  | returned (ending : Ending)

/-- A request for the artifact of a path. The period is how often the content at the path had
changed when the lookup read it. -/
structure Lookup where
  compiler : Compiler
  path : String
  period : Option Nat
  stage : Stage

namespace Lookup

/-- A lookup that has just arrived. -/
def new (compiler : Compiler) (path : String) : Lookup :=
  ⟨compiler, path, none, .arrived⟩

/-- The key of the slot that a lookup uses. -/
def key (l : Lookup) : String × String :=
  (l.compiler.name, l.path)

/-- A lookup that has come to another stage. -/
def withStage (l : Lookup) (stage : Stage) : Lookup :=
  { l with stage }

/-- A lookup that has come to another stage by reading in a period. -/
def reading (l : Lookup) (period : Nat) (stage : Stage) : Lookup :=
  { l with period := some period, stage }

end Lookup

/-- A step of a lookup, from a cache to another. -/
inductive Advances : SharedCache → Lookup → SharedCache → Lookup → Prop where
  /-- There is a slot in the map: clone a handle on it. -/
  | clone {s l slot} (arrived : l.stage = .arrived) (found : s.slots l.key = some slot) :
      Advances s l (s.clone slot) (l.withStage (.waiting slot))
  /-- There is no slot in the map: make one. -/
  | create {s l} (arrived : l.stage = .arrived) (missing : s.slots l.key = none) :
      Advances s l (s.create l.key) (l.withStage (.waiting s.fresh))
  /-- The slot is not locked: lock it. -/
  | acquire {s l slot} (waiting : l.stage = .waiting slot) (free : s.locked slot = false) :
      Advances s l (s.lock slot) (l.withStage (.inside slot))
  /-- The resource can be read. -/
  | read {s l slot resource} (inside : l.stage = .inside slot)
      (reads : s.store.read s.host.view l.path = .ok resource) :
      Advances s l s (l.reading (s.changes l.path) (.loaded slot resource))
  /-- The resource cannot be read: unlock the slot. -/
  | misread {s l slot fault} (inside : l.stage = .inside slot)
      (fails : s.store.read s.host.view l.path = .error fault) :
      Advances s l (s.unlock slot) (l.reading (s.changes l.path) (.rejected slot (.store fault)))
  /-- The artifact in the slot was made from the content: unlock the slot. -/
  | hit {s l slot resource held} (loaded : l.stage = .loaded slot resource)
      (entry : s.entries slot = some held)
      (fresh : held.artifact.fingerprint = resource.fingerprint) :
      Advances s l { s.unlock slot with hits := s.hits + 1 }
        (l.withStage (.leaving slot (.hit held)))
  /-- There is no such artifact in the slot: start to compile. -/
  | miss {s l slot resource} (loaded : l.stage = .loaded slot resource)
      (stale : ∀ held, s.entries slot = some held →
        held.artifact.fingerprint ≠ resource.fingerprint) :
      Advances s l { s with misses := s.misses + 1 } (l.withStage (.compiling slot resource))
  /-- The compiler is done: put the artifact into the slot and unlock it. -/
  | publish {s l slot resource artifact host} (compiling : l.stage = .compiling slot resource)
      (succeeds : (l.compiler.compile (.ofResource resource)).run.run s.host =
        (.ok artifact, host)) :
      Advances s l
        { ((s.put slot (some ⟨s.compilations, artifact⟩)).unlock slot).withContents s.store
            host with
          compilations := s.compilations + 1 }
        (l.withStage (.leaving slot (.compiled ⟨s.compilations, artifact⟩)))
  /-- The compiler has failed: empty the slot and unlock it. -/
  | discard {s l slot resource report host} (compiling : l.stage = .compiling slot resource)
      (fails : (l.compiler.compile (.ofResource resource)).run.run s.host =
        (.error report, host)) :
      Advances s l
        { ((s.put slot none).unlock slot).withContents s.store host with
          failures := s.failures + 1 }
        (l.withStage (.rejected slot (.compilation l.path report)))
  /-- Nobody uses the slot: take it out of the map. -/
  | release {s l slot error} (rejected : l.stage = .rejected slot error)
      (unused : s.Unused l.key slot) :
      Advances s l ((s.unlink l.key).drop slot) (l.withStage (.leaving slot (.failed error)))
  /-- Somebody uses the slot, or it is not in the map: leave the map as it is. -/
  | keep {s l slot error} (rejected : l.stage = .rejected slot error)
      (used : ¬ s.Unused l.key slot) :
      Advances s l s (l.withStage (.leaving slot (.failed error)))
  /-- Drop the handle and return. -/
  | drop {s l slot ending} (leaving : l.stage = .leaving slot ending) :
      Advances s l (s.drop slot) (l.withStage (.returned ending))

/-- Lookups on one cache, in progress or returned. -/
structure CacheSystem where
  cache : SharedCache
  lookups : Multiset Lookup

namespace CacheSystem

/-- An empty cache on which there are no lookups. -/
def start (store : ResourceStore) (host : Host) : CacheSystem :=
  ⟨.empty store host, 0⟩

/-- A step of a system in which requests use some compilers. -/
inductive Step (compilers : Set Compiler) : CacheSystem → CacheSystem → Prop where
  /-- A request arrives. -/
  | arrive {cache lookups compiler} (known : compiler ∈ compilers) (path : String) :
      Step compilers ⟨cache, lookups⟩ ⟨cache, .new compiler path ::ₘ lookups⟩
  /-- One of the lookups takes a step. -/
  | advance {cache cache' l l'} (others : Multiset Lookup) (step : Advances cache l cache' l') :
      Step compilers ⟨cache, l ::ₘ others⟩ ⟨cache', l' ::ₘ others⟩
  /-- A resource is written. -/
  | write {cache lookups} (path : String) (content : ByteArray) :
      Step compilers ⟨cache, lookups⟩ ⟨cache.write path content, lookups⟩
  /-- A resource is deleted. -/
  | delete {cache lookups} (path : String) :
      Step compilers ⟨cache, lookups⟩ ⟨cache.delete path, lookups⟩

/-- The states that a system comes to by steps from an empty cache. -/
inductive Reachable (compilers : Set Compiler) : CacheSystem → Prop where
  | start (store : ResourceStore) (host : Host) : Reachable compilers (.start store host)
  | step {s s'} (reached : Reachable compilers s) (step : Step compilers s s') :
      Reachable compilers s'

end CacheSystem

end ScriptHost
