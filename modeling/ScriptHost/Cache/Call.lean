import ScriptHost.Cache

/-!
# Calls on a cached store

A store with a cache in front of it is used by calling it again and again: resources are written and
deleted, artifacts are asked for, and the cache is told to drop some or all of what it holds. Each
call finds the store, the cache and the host as the calls before it have left them.
-/

namespace ScriptHost

/-- A store with the cache of what was compiled from it, on a host. -/
structure CachedStore where
  cache : ArtifactCache
  store : ResourceStore
  host : Host

/-- What can be asked of a cached store. -/
inductive CacheCall where
  | write (path : String) (content : ByteArray)
  | delete (path : String)
  | get (compiler : Compiler) (path : String)
  | invalidate (path : String)
  | clear

/-- What a cached store answers. -/
inductive CacheReply where
  | written (result : Except StoreFault Unit)
  | deleted (result : Except StoreFault Bool)
  | artifact (result : Except Error HeldArtifact)
  | invalidated (found : Bool)
  | cleared

namespace CachedStore

/-- Answer a call. -/
def call (s : CachedStore) : CacheCall → CacheReply × CachedStore
  | .write path content =>
    let (result, store, view) := s.store.write s.host.view path content
    (.written result, { s with store, host := { s.host with view } })
  | .delete path =>
    let (result, store, view) := s.store.delete s.host.view path
    (.deleted result, { s with store, host := { s.host with view } })
  | .get compiler path =>
    let (result, cache, host) := s.cache.getOrCompile s.store compiler path s.host
    (.artifact result, { s with cache, host })
  | .invalidate path =>
    let (found, cache) := s.cache.invalidate path
    (.invalidated found, { s with cache })
  | .clear => (.cleared, { s with cache := s.cache.clear })

/-- Answer calls in order. -/
def calls (s : CachedStore) : List CacheCall → List CacheReply × CachedStore
  | [] => ([], s)
  | c :: rest =>
    let (reply, after) := s.call c
    let (replies, final) := after.calls rest
    (reply :: replies, final)

end CachedStore

end ScriptHost
