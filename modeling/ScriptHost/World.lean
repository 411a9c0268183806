import ScriptHost.Cache
import ScriptHost.Storage.Basic

/-!
# The world of a script host

Everything that executions change: the host, the resources, the cached artifacts, the storage, the
metrics, the supply of request ids, and the log of the requests that were dispatched.
-/

namespace ScriptHost

/-- What executions change. The log holds the requests dispatched so far, first to last. -/
structure World where
  host : Host
  store : ResourceStore
  cache : ArtifactCache
  storage : Storage
  metrics : Metrics
  nextId : Nat
  log : List Request

/-- A computation on a world that may fail. -/
abbrev WorldM (α : Type) := ExceptT Error (StateM World) α

namespace World

/-- A world on a host in which nothing is stored in memory. -/
def new (host : Host) (store : ResourceStore) (storage : Storage) : World :=
  ⟨host, store, .empty, storage, .empty, 1, []⟩

/-- The world with another view of the files. -/
def withView (w : World) (view : FileView) : World :=
  { w with host := { w.host with view } }

/-- A computation on the host as one on the world. -/
def onHost {α : Type} (run : HostM Error α) : WorldM α :=
  ExceptT.mk fun w =>
    let (result, host) := run.run.run w.host
    (result, { w with host })

/-- The resource at a path. -/
def readResource (path : String) : WorldM Resource :=
  ExceptT.mk fun w => ((w.store.read w.host.view path).mapError .store, w)

/-- The artifact of a path, compiled by a compiler when the cache holds none that is up to date. -/
def artifact (compiler : Compiler) (path : String) : WorldM HeldArtifact :=
  ExceptT.mk fun w =>
    let (result, cache, host) := w.cache.getOrCompile w.store compiler path w.host
    (result, { w with cache, host })

/-- The normal spelling of a path at which there is a resource. -/
def resolveResource (path : String) : WorldM String :=
  ExceptT.mk fun w =>
    (match ResourceStore.key path with
      | .error fault => .error (.construction path (.store fault))
      | .ok key =>
        if w.store.contains w.host.view key then .ok key
        else .error (.construction key .missingResource), w)

/-- A request id that no request has had. -/
def freshId : WorldM String :=
  ExceptT.mk fun w => (.ok (Request.idOf w.nextId), { w with nextId := w.nextId + 1 })

/-- Write a request into the log. -/
def logged (request : Request) : WorldM Unit :=
  ExceptT.mk fun w => (.ok (), { w with log := w.log ++ [request] })

/-- Count how a computation for an engine ends, and how long it takes. -/
def recorded {α : Type} (engine : String) (run : WorldM α) : WorldM α :=
  ExceptT.mk fun w =>
    let (result, after) := run.run.run w
    let elapsed : Duration := ⟨after.host.clock - w.host.clock⟩
    (result, { after with metrics := after.metrics.record engine result.toBool elapsed })

end World

end ScriptHost
