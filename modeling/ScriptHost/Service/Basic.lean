import ScriptHost.Calendar
import ScriptHost.Engine.Dispatch

/-!
# Services

A service is a registry of engines and a world. It executes requests, keeps resources and tells what
it did.
-/

namespace ScriptHost

/-- Engines with the world they work on. -/
structure Service where
  registry : Registry Engine
  world : World

namespace Service

/-- A service with engines registered in order, unless two share a token. -/
def ofEngines (world : World) (engines : List (EngineNames × Engine)) : Except Error Service := do
  let registry ← engines.foldlM (fun (r : Registry Engine) (names, engine) => r.register names engine)
    .empty
  return ⟨registry, world⟩

/-- Run a computation on the world of a service. -/
def onWorld {α : Type} (s : Service) (run : WorldM α) : Except Error α × Service :=
  let (result, world) := run.run.run s.world
  (result, { s with world })

/-- Execute a request. -/
def execute (s : Service) (request : Request) : Except Error Output × Service :=
  s.onWorld (ScriptHost.execute s.registry request)

/-- Write a resource into the store. -/
def write (s : Service) (path : String) (content : ByteArray) : Except StoreFault Unit × Service :=
  let (result, store, view) := s.world.store.write s.world.host.view path content
  (result, { s with world := { s.world.withView view with store } })

/-- Deploy a resource; the result is the normal spelling of its path. -/
def deploy (s : Service) (path : String) (content : ByteArray) : Except StoreFault String × Service :=
  match ResourceStore.key path with
  | .error fault => (.error fault, s)
  | .ok key =>
    let (result, s) := s.write key content
    (result.map fun _ => key, s)

/-- Delete a resource and what was compiled from it, and tell whether it was there. -/
def delete (s : Service) (path : String) : Except StoreFault Bool × Service :=
  match ResourceStore.key path with
  | .error fault => (.error fault, s)
  | .ok key =>
    match s.world.store.delete s.world.host.view key with
    | (.error fault, store, view) =>
      (.error fault, { s with world := { s.world.withView view with store } })
    | (.ok found, store, view) =>
      let cache := (s.world.cache.invalidate key).2
      (.ok found, { s with world := { s.world.withView view with store, cache } })

/-- Drop what was compiled from a path, and tell whether there was anything. -/
def invalidate (s : Service) (path : String) : Bool × Service :=
  let (found, cache) := s.world.cache.invalidate path
  (found, { s with world := { s.world with cache } })

/-- The names of the engines in the order of registration. -/
def engines (s : Service) : List EngineNames :=
  s.registry.names

/-- All counters as JSON, with the present instant unless it is left out. -/
def snapshot (s : Service) (stamped : Bool) : Json.Value :=
  s.world.metrics.snapshot s.world.cache.counters
    (if stamped then some (Calendar.text s.world.host.clock) else none)

end Service

end ScriptHost
