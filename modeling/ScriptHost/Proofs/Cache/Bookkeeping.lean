import ScriptHost.Cache.Call
import ScriptHost.Compiler.Directives
import ScriptHost.Proofs.Cache.Slots
import ScriptHost.Proofs.Cache.Soundness

/-!
# The books of the artifact cache

What the cache holds and counts is compared with the history of the calls on it. `CachedStore.event`
says what a call comes to, from what the store, the cache and the compiler say before it;
`answers_calls` says that this is what the calls answer, and `changes_call` what a call then does to
the cache. `CachedStore.books_of_calls` draws the balance after any sequence of calls on an empty
cache: which slots there are, which artifacts are held, what was counted, and what invalidating a
path will do.
-/

namespace ScriptHost

/-- What a call on a cached store comes to. -/
inductive CacheEvent where
  /-- A resource was written or deleted. -/
  | stored
  /-- The resource could not be read. -/
  | unread (compiler path : String) (fault : StoreFault)
  /-- The held artifact was made from the present content. -/
  | hit (compiler path : String) (held : HeldArtifact)
  /-- The content was compiled. -/
  | compiled (compiler path : String) (held : HeldArtifact)
  /-- The content was compiled in vain. -/
  | rejected (compiler path : String) (report : Report)
  | invalidated (path : String)
  | cleared

/-- The artifact, or the error, that a request is answered with. -/
def CacheReply.artifact? : CacheReply → Option (Except Error HeldArtifact)
  | .artifact result => some result
  | _ => none

namespace CacheEvent

/-- Whether an artifact was served as it was held. -/
def isHit : CacheEvent → Bool
  | hit .. => true
  | _ => false

/-- Whether a compilation succeeded. -/
def isCompiled : CacheEvent → Bool
  | compiled .. => true
  | _ => false

/-- Whether a compilation failed. -/
def isRejected : CacheEvent → Bool
  | rejected .. => true
  | _ => false

/-- What a request that comes to an event answers. -/
def answer? : CacheEvent → Option (Except Error HeldArtifact)
  | unread _ _ fault => some (.error (.store fault))
  | hit _ _ held | compiled _ _ held => some (.ok held)
  | rejected _ path report => some (.error (.compilation path report))
  | stored | invalidated _ | cleared => none

/-- What an event makes of the artifact that is held for a compiler and a path, if it touches it. -/
def effect? (compiler path : String) : CacheEvent → Option (Option HeldArtifact)
  | compiled c p held => if (compiler, path) = (c, p) then some (some held) else none
  | rejected c p _ => if (compiler, path) = (c, p) then some none else none
  | invalidated p => if path = p then some none else none
  | cleared => some none
  | _ => none

/-- The last event that touches the artifact of a compiler and a path has made `held`: a successful
compilation, with no failed one, no invalidation of the path and no clearing since. -/
def LastMade (events : List CacheEvent) (compiler path : String) (held : HeldArtifact) : Prop :=
  ∃ before after, events = before ++ compiled compiler path held :: after ∧
    ∀ event ∈ after, event.effect? compiler path = none

variable {events : List CacheEvent} {event : CacheEvent} {compiler path : String}
  {held : HeldArtifact}

/-- Only a successful compilation makes an artifact. -/
theorem effect?_eq_made_iff :
    event.effect? compiler path = some (some held) ↔ event = compiled compiler path held := by
  constructor
  · intro h
    cases event with
    | compiled c p made =>
        rw [effect?] at h
        split at h
        · rename_i hkey
          obtain ⟨rfl, rfl⟩ := Prod.mk.inj hkey
          rw [Option.some.inj (Option.some.inj h)]
        · cases h
    | rejected c p report => rw [effect?] at h; split at h <;> cases h
    | invalidated p => rw [effect?] at h; split at h <;> cases h
    | stored | unread | hit | cleared => cases h
  · rintro rfl
    rw [effect?, if_pos rfl]

/-- What the last event was that made an artifact, after one more event. -/
theorem lastMade_append_singleton :
    LastMade (events ++ [event]) compiler path held ↔
      (event.effect? compiler path).getD (some held) = some held ∧
        (event.effect? compiler path = none → LastMade events compiler path held) := by
  constructor
  · rintro ⟨before, after, hsplit, hafter⟩
    rcases List.eq_nil_or_concat after with rfl | ⟨init, last, rfl⟩
    · obtain ⟨-, hevent⟩ := List.append_inj' hsplit rfl
      rw [List.cons.injEq] at hevent
      have hmade := effect?_eq_made_iff.mpr hevent.1
      rw [hmade]
      exact ⟨rfl, fun h => absurd h (Option.some_ne_none _)⟩
    · rw [List.concat_eq_append] at hsplit hafter
      rw [← List.cons_append, ← List.append_assoc] at hsplit
      obtain ⟨hevents, hlast⟩ := List.append_inj' hsplit rfl
      rw [List.cons.injEq] at hlast
      have huntouched : event.effect? compiler path = none := hlast.1 ▸ hafter last (by simp)
      rw [huntouched]
      exact ⟨rfl, fun _ => ⟨before, init, hevents, fun e he => hafter e (by simp [he])⟩⟩
  · rintro ⟨heffect, hbefore⟩
    cases hevent : event.effect? compiler path with
    | none =>
        obtain ⟨before, after, rfl, hafter⟩ := hbefore hevent
        refine ⟨before, after ++ [event], by simp, ?_⟩
        intro e he
        rcases List.mem_append.mp he with he | he
        · exact hafter e he
        · rw [List.mem_singleton] at he
          rw [he, hevent]
    | some made =>
        rw [hevent] at heffect
        obtain rfl := effect?_eq_made_iff.mp (hevent.trans (congrArg some heffect))
        exact ⟨events, [], rfl, fun e he => absurd he List.not_mem_nil⟩

end CacheEvent

open CacheEvent (LastMade)

/-! ## What a request does to a tidy cache -/

namespace ArtifactCache

variable {cache : ArtifactCache} {store : ResourceStore} {compiler : Compiler} {path : String}
  {host after : Host} {resource : Resource}

/-- A request for a resource that cannot be read changes nothing. -/
theorem Tidy.getOrCompile_unread (h : cache.Tidy) {fault : StoreFault}
    (hread : store.read host.view path = .error fault) :
    cache.getOrCompile store compiler path host = (.error (.store fault), cache, host) := by
  rw [getOrCompile, hread]
  simp only [h.release_openSlot]

/-- What is up to date does not depend on whether a slot is opened. -/
theorem fresh?_openSlot (fingerprint : Fingerprint) :
    (cache.openSlot compiler.name path).fresh? compiler.name path fingerprint =
      cache.fresh? compiler.name path fingerprint := by
  rw [fresh?, fresh?, held?_openSlot]

/-- A request for an artifact that is up to date is a hit. -/
theorem getOrCompile_hit {held : HeldArtifact}
    (hread : store.read host.view path = .ok resource)
    (hfresh : cache.fresh? compiler.name path resource.fingerprint = some held) :
    cache.getOrCompile store compiler path host =
      (.ok held, { cache with hits := cache.hits + 1 }, host) := by
  have hheld : cache.held? compiler.name path = some held := (Option.filter_eq_some_iff.mp hfresh).1
  rw [getOrCompile, hread]
  simp only [openSlot_of_held hheld, hfresh]

/-- A request that compiles with success publishes the artifact. -/
theorem getOrCompile_compiled {artifact : Artifact}
    (hread : store.read host.view path = .ok resource)
    (hfresh : cache.fresh? compiler.name path resource.fingerprint = none)
    (hcompile : (compiler.compile (.ofResource resource)).run.run host = (.ok artifact, after)) :
    cache.getOrCompile store compiler path host =
      (.ok ⟨cache.compilations, artifact⟩,
        ((cache.openSlot compiler.name path).publish compiler.name path artifact).2, after) := by
  obtain ⟨-, -, hcompilations, -⟩ := cache.counts_openSlot compiler.name path
  rw [getOrCompile, hread]
  simp only [fresh?_openSlot, hfresh, hcompile, publish, hcompilations]

/-- A request that compiles in vain discards what was held. -/
theorem getOrCompile_rejected {report : Report}
    (hread : store.read host.view path = .ok resource)
    (hfresh : cache.fresh? compiler.name path resource.fingerprint = none)
    (hcompile : (compiler.compile (.ofResource resource)).run.run host = (.error report, after)) :
    cache.getOrCompile store compiler path host =
      (.error (.compilation path report),
        ((cache.openSlot compiler.name path).discard compiler.name path).release
          compiler.name path, after) := by
  rw [getOrCompile, hread]
  simp only [fresh?_openSlot, hfresh, hcompile]

end ArtifactCache

namespace CachedStore

/-- What a call comes to. A request is a hit when the cache holds an artifact with the fingerprint
of the content just read; otherwise it depends on what the compiler makes of that content. -/
def event (s : CachedStore) : CacheCall → CacheEvent
  | .write .. | .delete _ => .stored
  | .get compiler path =>
    match s.store.read s.host.view path with
    | .error fault => .unread compiler.name path fault
    | .ok resource =>
      match s.cache.fresh? compiler.name path resource.fingerprint with
      | some held => .hit compiler.name path held
      | none =>
        match compiler.outcome (.ofResource resource) s.host with
        | .ok artifact => .compiled compiler.name path ⟨s.cache.compilations, artifact⟩
        | .error report => .rejected compiler.name path report
  | .invalidate path => .invalidated path
  | .clear => .cleared

/-- What calls in order come to. -/
def events (s : CachedStore) : List CacheCall → List CacheEvent
  | [] => []
  | c :: rest => s.event c :: (s.call c).2.events rest

/-- `GetStep s compiler path event reply after` says how a request for an artifact goes: what it
comes to, what it answers, and how it leaves store, cache and host. -/
inductive GetStep (s : CachedStore) (compiler : Compiler) (path : String) :
    CacheEvent → CacheReply → CachedStore → Prop where
  | unread (fault) :
      s.store.read s.host.view path = .error fault →
      GetStep s compiler path (.unread compiler.name path fault)
        (.artifact (.error (.store fault))) s
  | hit (resource held) :
      s.store.read s.host.view path = .ok resource →
      s.cache.fresh? compiler.name path resource.fingerprint = some held →
      GetStep s compiler path (.hit compiler.name path held) (.artifact (.ok held))
        { s with cache.hits := s.cache.hits + 1 }
  | compiled (resource artifact after) :
      s.store.read s.host.view path = .ok resource →
      s.cache.fresh? compiler.name path resource.fingerprint = none →
      (compiler.compile (.ofResource resource)).run.run s.host = (.ok artifact, after) →
      GetStep s compiler path (.compiled compiler.name path ⟨s.cache.compilations, artifact⟩)
        (.artifact (.ok ⟨s.cache.compilations, artifact⟩))
        { s with
          cache := ((s.cache.openSlot compiler.name path).publish compiler.name path artifact).2
          host := after }
  | rejected (resource report after) :
      s.store.read s.host.view path = .ok resource →
      s.cache.fresh? compiler.name path resource.fingerprint = none →
      (compiler.compile (.ofResource resource)).run.run s.host = (.error report, after) →
      GetStep s compiler path (.rejected compiler.name path report)
        (.artifact (.error (.compilation path report)))
        { s with
          cache := ((s.cache.openSlot compiler.name path).discard compiler.name path).release
            compiler.name path
          host := after }

/-- A request for an artifact of a tidy cache goes in one of these ways. -/
theorem getStep_call {s : CachedStore} (h : s.cache.Tidy) (compiler : Compiler) (path : String) :
    GetStep s compiler path (s.event (.get compiler path)) (s.call (.get compiler path)).1
      (s.call (.get compiler path)).2 := by
  cases hread : s.store.read s.host.view path with
  | error fault =>
      simp only [event, call, hread, h.getOrCompile_unread hread]
      exact .unread fault hread
  | ok resource =>
      cases hfresh : s.cache.fresh? compiler.name path resource.fingerprint with
      | some held =>
          simp only [event, call, hread, hfresh, ArtifactCache.getOrCompile_hit hread hfresh]
          exact .hit resource held hread hfresh
      | none =>
          rcases hcompile : (compiler.compile (.ofResource resource)).run.run s.host with
            ⟨report | artifact, after⟩
          · have houtcome : compiler.outcome (.ofResource resource) s.host = .error report :=
              congrArg Prod.fst hcompile
            simp only [event, call, hread, hfresh, houtcome,
              ArtifactCache.getOrCompile_rejected hread hfresh hcompile]
            exact .rejected resource report after hread hfresh hcompile
          · have houtcome : compiler.outcome (.ofResource resource) s.host = .ok artifact :=
              congrArg Prod.fst hcompile
            simp only [event, call, hread, hfresh, houtcome,
              ArtifactCache.getOrCompile_compiled hread hfresh hcompile]
            exact .compiled resource artifact after hread hfresh hcompile

/-- A request answers what its event says. -/
theorem GetStep.answer {s : CachedStore} {compiler : Compiler} {path : String}
    {event : CacheEvent} {reply : CacheReply} {after : CachedStore}
    (hstep : GetStep s compiler path event reply after) : reply.artifact? = event.answer? := by
  cases hstep <;> rfl

/-- A call on a tidy cache answers what its event says. -/
theorem answer_call {s : CachedStore} (h : s.cache.Tidy) (c : CacheCall) :
    (s.call c).1.artifact? = (s.event c).answer? := by
  cases c with
  | write | delete | invalidate | clear => rfl
  | get compiler path => exact (getStep_call h compiler path).answer

end CachedStore

/-! ## The books -/

/-- What an event does to a tidy cache. -/
structure CacheEvent.Changes (event : CacheEvent) (before after : ArtifactCache) : Prop where
  tidy : after.Tidy
  held?_eq : ∀ compiler path, after.held? compiler path =
    (event.effect? compiler path).getD (before.held? compiler path)
  hits_eq : after.hits = before.hits + event.isHit.toNat
  misses_eq : after.misses = before.misses + event.isCompiled.toNat + event.isRejected.toNat
  compilations_eq : after.compilations = before.compilations + event.isCompiled.toNat
  failures_eq : after.failures = before.failures + event.isRejected.toNat

namespace CachedStore

variable {s : CachedStore}

/-- A request for an artifact changes a tidy cache as its event says. -/
theorem GetStep.changes (h : s.cache.Tidy) {compiler : Compiler} {path : String}
    {event : CacheEvent} {reply : CacheReply} {after : CachedStore}
    (hstep : GetStep s compiler path event reply after) : event.Changes s.cache after.cache := by
  cases hstep with
  | unread fault => exact ⟨h, fun _ _ => rfl, rfl, rfl, rfl, rfl⟩
  | hit resource held => exact ⟨h.of_slots rfl, fun _ _ => rfl, rfl, rfl, rfl, rfl⟩
  | compiled resource artifact after =>
      obtain ⟨hhits, hmisses, hcompilations, hfailures⟩ :=
        s.cache.counts_openSlot compiler.name path
      refine ⟨h.publish compiler.name path artifact, ?_, hhits, congrArg (· + 1) hmisses,
        congrArg (· + 1) hcompilations, hfailures⟩
      intro other place
      rw [s.cache.held?_publish compiler.name path artifact other place, CacheEvent.effect?]
      split <;> rfl
  | rejected resource report after =>
      obtain ⟨hhits, hmisses, hcompilations, hfailures⟩ :=
        s.cache.counts_openSlot compiler.name path
      have hslots := s.cache.slots_discard_release compiler.name path
      refine ⟨h.of_sublist (hslots ▸ List.filter_sublist), ?_, hhits, congrArg (· + 1) hmisses,
        hcompilations, congrArg (· + 1) hfailures⟩
      intro other place
      rw [s.cache.held?_discard_release compiler.name path other place, CacheEvent.effect?]
      split <;> rfl

/-- A call changes a tidy cache as its event says. -/
theorem changes_call (h : s.cache.Tidy) (c : CacheCall) :
    (s.event c).Changes s.cache (s.call c).2.cache := by
  cases c with
  | write path content => exact ⟨h, fun _ _ => rfl, rfl, rfl, rfl, rfl⟩
  | delete path => exact ⟨h, fun _ _ => rfl, rfl, rfl, rfl, rfl⟩
  | get compiler path => exact (getStep_call h compiler path).changes h
  | invalidate path =>
      refine ⟨h.of_sublist List.filter_sublist, ?_, rfl, rfl, rfl, rfl⟩
      intro other place
      show (s.cache.invalidate path).2.held? other place = _
      rw [s.cache.held?_invalidate path other place, event, CacheEvent.effect?]
      split <;> rfl
  | clear => exact ⟨h.of_sublist (List.nil_sublist _), fun _ _ => rfl, rfl, rfl, rfl, rfl⟩

end CachedStore

/-- A cache agrees with a history of events. -/
structure ArtifactCache.Agrees (cache : ArtifactCache) (events : List CacheEvent) : Prop where
  tidy : cache.Tidy
  held?_eq_some_iff : ∀ compiler path held,
    cache.held? compiler path = some held ↔ LastMade events compiler path held
  hits_eq : cache.hits = events.countP CacheEvent.isHit
  misses_eq : cache.misses = cache.compilations + cache.failures
  compilations_eq : cache.compilations = events.countP CacheEvent.isCompiled
  failures_eq : cache.failures = events.countP CacheEvent.isRejected

namespace ArtifactCache

variable {cache after : ArtifactCache} {events : List CacheEvent} {event : CacheEvent}

/-- A new cache agrees with the empty history. -/
theorem agrees_empty : ArtifactCache.empty.Agrees [] := by
  refine ⟨tidy_empty, ?_, rfl, rfl, rfl, rfl⟩
  intro compiler path held
  constructor
  · intro h
    cases h
  · rintro ⟨before, after, hsplit, -⟩
    simp at hsplit

/-- A cache that changes as an event says agrees with the history that has the event too. -/
theorem Agrees.change (h : cache.Agrees events) (hchange : event.Changes cache after) :
    after.Agrees (events ++ [event]) := by
  obtain ⟨htidy, hheld, hhits, hmisses, hcompilations, hfailures⟩ := h
  have hcount : ∀ counts : CacheEvent → Bool,
      (events ++ [event]).countP counts = events.countP counts + (counts event).toNat := by
    intro counts
    rw [List.countP_append, List.countP_singleton]
    cases counts event <;> rfl
  refine ⟨hchange.tidy, ?_, ?_, ?_, ?_, ?_⟩
  · -- what is held is what the event made, or what was made before where it makes nothing
    intro compiler path held
    rw [hchange.held?_eq, CacheEvent.lastMade_append_singleton]
    cases event.effect? compiler path with
    | none => simp [hheld]
    | some made => simp
  · rw [hchange.hits_eq, hhits, hcount]
  · rw [hchange.misses_eq, hmisses, hchange.compilations_eq, hchange.failures_eq]
    omega
  · rw [hchange.compilations_eq, hcompilations, hcount]
  · rw [hchange.failures_eq, hfailures, hcount]

end ArtifactCache

namespace CachedStore

variable {s : CachedStore} {events : List CacheEvent}

/-- After calls in order the cache agrees with the history that has their events too. -/
theorem agrees_calls (h : s.cache.Agrees events) (calls : List CacheCall) :
    (s.calls calls).2.cache.Agrees (events ++ s.events calls) := by
  induction calls generalizing s events with
  | nil =>
      rw [CachedStore.events, List.append_nil]
      exact h
  | cons c rest ih =>
      have hnext := ih (h.change (changes_call h.tidy c))
      rw [List.append_assoc] at hnext
      exact hnext

/-- Calls in order answer what their events say. -/
theorem answers_calls (h : s.cache.Tidy) (calls : List CacheCall) :
    (s.calls calls).1.map CacheReply.artifact? = (s.events calls).map CacheEvent.answer? := by
  induction calls generalizing s with
  | nil => rfl
  | cons c rest ih =>
      have hrest := ih (changes_call h c).tidy
      rw [CachedStore.events, List.map_cons, ← hrest, ← answer_call h c]
      rfl

/-- Whether a call asks for the artifact of a resource that can be read. -/
def reads (s : CachedStore) : CacheCall → Bool
  | .get _ path => (s.store.read s.host.view path).toBool
  | _ => false

/-- How many of some calls in order ask for the artifact of a resource that can be read. -/
def readCount (s : CachedStore) : List CacheCall → Nat
  | [] => 0
  | c :: rest => (s.reads c).toNat + (s.call c).2.readCount rest

/-- A count that hosts carry, which every compilation of the requests among some calls raises by one
and in which the files play no part. -/
structure Meter (count : Host → Nat) (calls : List CacheCall) : Prop where
  compile : ∀ compiler path, CacheCall.get compiler path ∈ calls → ∀ unit host,
    count ((compiler.compile unit).run.run host).2 = count host + 1
  files : ∀ host view, count { host with view } = count host

section Requests

variable {compiler : Compiler} {path : String} {event : CacheEvent} {reply : CacheReply}
  {after : CachedStore}

/-- A request is counted as a hit or a miss exactly when the resource can be read. -/
theorem GetStep.hits_add_misses (h : s.cache.Tidy)
    (hstep : GetStep s compiler path event reply after) :
    after.cache.hits + after.cache.misses =
      s.cache.hits + s.cache.misses + (s.reads (.get compiler path)).toNat := by
  have hchanges := hstep.changes h
  rw [hchanges.hits_eq, hchanges.misses_eq, reads]
  cases hstep with
  | unread fault hread =>
      rw [hread]
      rfl
  | hit resource held hread =>
      rw [hread]
      show s.cache.hits + 1 + s.cache.misses = s.cache.hits + s.cache.misses + 1
      omega
  | compiled resource artifact after hread =>
      rw [hread]
      rfl
  | rejected resource report after hread =>
      rw [hread]
      rfl

/-- A request is a hit exactly when the slot holds an artifact with the fingerprint of the content
that is read. -/
theorem GetStep.hits_eq_succ_iff (h : s.cache.Tidy)
    (hstep : GetStep s compiler path event reply after) :
    after.cache.hits = s.cache.hits + 1 ↔
      ∃ resource held, s.store.read s.host.view path = .ok resource ∧
        s.cache.held? compiler.name path = some held ∧
        held.artifact.fingerprint = resource.fingerprint := by
  have hmiss : ∀ resource : Resource, s.store.read s.host.view path = .ok resource →
      s.cache.fresh? compiler.name path resource.fingerprint = none →
      ¬ ∃ resource held, s.store.read s.host.view path = .ok resource ∧
        s.cache.held? compiler.name path = some held ∧
        held.artifact.fingerprint = resource.fingerprint := by
    rintro resource hread hnone ⟨other, held, hother, hheld, hfingerprint⟩
    obtain rfl : resource = other := Except.ok.inj (hread.symm.trans hother)
    rw [ArtifactCache.fresh?, hheld, Option.filter_eq_none_iff] at hnone
    exact hnone held rfl (decide_eq_true hfingerprint)
  rw [(hstep.changes h).hits_eq]
  cases hstep with
  | unread fault hread => simp [CacheEvent.isHit, hread]
  | hit resource held hread hheld =>
      rw [ArtifactCache.fresh?, Option.filter_eq_some_iff, decide_eq_true_eq] at hheld
      simp [CacheEvent.isHit, hread, hheld.1, hheld.2]
  | compiled resource artifact after hread hnone =>
      exact iff_of_false (Nat.ne_of_lt (Nat.lt_succ_self _)) (hmiss resource hread hnone)
  | rejected resource report after hread hnone =>
      exact iff_of_false (Nat.ne_of_lt (Nat.lt_succ_self _)) (hmiss resource hread hnone)

/-- A request raises the count of compilations exactly when it is counted as a miss. -/
theorem GetStep.meter {count : Host → Nat} (h : s.cache.Tidy)
    (hcount : ∀ unit host, count ((compiler.compile unit).run.run host).2 = count host + 1)
    (hstep : GetStep s compiler path event reply after) :
    count after.host + s.cache.misses = count s.host + after.cache.misses := by
  have hchanges := hstep.changes h
  rw [hchanges.misses_eq]
  cases hstep with
  | unread | hit => rfl
  | compiled resource artifact after hread hnone hcompile =>
      have hone : count after = count s.host + 1 := by
        simpa [hcompile] using hcount (.ofResource resource) s.host
      show count after + s.cache.misses = count s.host + (s.cache.misses + 1)
      omega
  | rejected resource report after hread hnone hcompile =>
      have hone : count after = count s.host + 1 := by
        simpa [hcompile] using hcount (.ofResource resource) s.host
      show count after + s.cache.misses = count s.host + (s.cache.misses + 1)
      omega

end Requests

/-- Every request for a resource that can be read is counted as a hit or a miss. -/
theorem hits_add_misses_calls {s : CachedStore} (h : s.cache.Tidy) (calls : List CacheCall) :
    (s.calls calls).2.cache.hits + (s.calls calls).2.cache.misses =
      s.cache.hits + s.cache.misses + s.readCount calls := by
  induction calls generalizing s with
  | nil => rfl
  | cons c rest ih =>
      have hone : (s.call c).2.cache.hits + (s.call c).2.cache.misses =
          s.cache.hits + s.cache.misses + (s.reads c).toNat := by
        cases c with
        | write | delete | invalidate | clear => rfl
        | get compiler path => exact (getStep_call h compiler path).hits_add_misses h
      have hrest := ih (changes_call h c).tidy
      rw [readCount, ← Nat.add_assoc, ← hone]
      exact hrest

/-- Calls raise the count of compilations by the number of misses. -/
theorem meter_calls {count : Host → Nat} {s : CachedStore} (h : s.cache.Tidy)
    {calls : List CacheCall} (hmeter : Meter count calls) :
    count (s.calls calls).2.host + s.cache.misses =
      count s.host + (s.calls calls).2.cache.misses := by
  induction calls generalizing s with
  | nil => rfl
  | cons c rest ih =>
      have hone : count (s.call c).2.host + s.cache.misses =
          count s.host + (s.call c).2.cache.misses := by
        cases c with
        | invalidate | clear => rfl
        | write | delete =>
            exact congrArg (· + s.cache.misses) (hmeter.files s.host _)
        | get compiler path =>
            exact (getStep_call h compiler path).meter h
              (hmeter.compile compiler path List.mem_cons_self)
      have hrest := ih (changes_call h c).tidy
        ⟨fun compiler path hget => hmeter.compile compiler path (List.mem_cons_of_mem _ hget),
          hmeter.files⟩
      show count ((s.call c).2.calls rest).2.host + s.cache.misses =
        count s.host + ((s.call c).2.calls rest).2.cache.misses
      omega

/-! ## The balance -/

/-- After any sequence of calls on a new cache:

* there is a slot for a compiler and a path exactly where an artifact is held, so that there are as
  many artifacts as slots;
* an artifact is held exactly where the last event that touches it was its compilation, requests
  have been answered what their events say, and a further request that cannot read its resource
  changes no held artifact;
* hits and misses together are the requests whose resource could be read, and misses are the
  successful and the failed compilations, each of which ran the compiler once; a further request is
  a hit exactly where the artifact held for it has the fingerprint of the content just read;
* invalidating a path finds something exactly where some compiler has an artifact of the path, and
  drops the artifacts of the path and no others. -/
theorem books_of_calls (store : ResourceStore) (host : Host) (calls : List CacheCall) :
    let start : CachedStore := ⟨.empty, store, host⟩
    let s := (start.calls calls).2
    ((∀ compiler path,
        (s.cache.slot? compiler path).isSome = (s.cache.held? compiler path).isSome) ∧
      (s.cache.slots.map Slot.key).Nodup ∧ s.cache.size = s.cache.slots.length) ∧
    ((∀ compiler path held,
        s.cache.held? compiler path = some held ↔
          LastMade (start.events calls) compiler path held) ∧
      (start.calls calls).1.map CacheReply.artifact? =
        (start.events calls).map CacheEvent.answer? ∧
      ∀ compiler path fault, s.store.read s.host.view path = .error fault →
        ∀ other place, (s.call (.get compiler path)).2.cache.held? other place =
          s.cache.held? other place) ∧
    (s.cache.hits + s.cache.misses = start.readCount calls ∧
      s.cache.misses = s.cache.compilations + s.cache.failures ∧
      s.cache.compilations = (start.events calls).countP CacheEvent.isCompiled ∧
      s.cache.failures = (start.events calls).countP CacheEvent.isRejected ∧
      (∀ count, Meter count calls → count s.host = count host + s.cache.misses) ∧
      ∀ compiler path,
        (s.call (.get compiler path)).2.cache.hits = s.cache.hits + 1 ↔
          ∃ resource held, s.store.read s.host.view path = .ok resource ∧
            s.cache.held? compiler.name path = some held ∧
            held.artifact.fingerprint = resource.fingerprint) ∧
    ∀ path,
      ((s.cache.invalidate path).1 = true ↔
        ∃ compiler, (s.cache.held? compiler path).isSome) ∧
      ∀ compiler place, (s.cache.invalidate path).2.held? compiler place =
        if place = path then none else s.cache.held? compiler place := by
  intro start s
  have hstart : start.cache.Agrees [] := ArtifactCache.agrees_empty
  have hagrees : s.cache.Agrees (start.events calls) := agrees_calls hstart calls
  have htidy := hagrees.tidy
  refine ⟨⟨htidy.isSome_slot?, htidy.distinct, htidy.size_eq⟩,
    ⟨hagrees.held?_eq_some_iff, answers_calls hstart.tidy calls, ?_⟩,
    ⟨?_, hagrees.misses_eq, hagrees.compilations_eq, hagrees.failures_eq, ?_, ?_⟩, ?_⟩
  · intro compiler path fault hread other place
    simp only [call, htidy.getOrCompile_unread hread]
  · rw [hits_add_misses_calls hstart.tidy calls]
    exact Nat.zero_add _
  · intro count hmeter
    exact meter_calls hstart.tidy hmeter
  · intro compiler path
    exact (getStep_call htidy compiler path).hits_eq_succ_iff htidy
  · intro path
    refine ⟨?_, s.cache.held?_invalidate path⟩
    rw [htidy.exists_held_iff]
    simp [ArtifactCache.invalidate]

end CachedStore

/-- A compiler of directives that takes a nanosecond. -/
def Compiler.ticking (name : String) : Compiler :=
  ⟨name, fun unit => ExceptT.mk fun host => (Directives.compile unit, host.later 1)⟩

namespace CachedStore

/-- A run with two compilers in which a resource is compiled, served again, broken, mended and
forgotten, and another one is missing. -/
def tickingCalls : List CacheCall :=
  let toy := Compiler.ticking "toy"
  [.write "/a.toy" "OUT a".toUTF8, .get toy "/a.toy", .get toy "/a.toy",
    .write "a.toy" "ERR a".toUTF8, .get toy "/a.toy", .get toy "/b.toy",
    .write "/a.toy" "OUT b".toUTF8, .get toy "/a.toy", .get (.ticking "other") "/a.toy",
    .invalidate "/a.toy", .get toy "/a.toy", .delete "/a.toy"]

/-- A host without files whose clock stands at zero. -/
def tickingHost : Host :=
  ⟨⟨.empty, []⟩, .empty, 0, 0⟩

/-- The clock counts the compilations of the run. -/
theorem meter_tickingCalls : Meter Host.clock tickingCalls := by
  refine ⟨?_, fun _ _ => rfl⟩
  intro compiler path hget unit host
  have hticking : ∃ name, compiler = .ticking name := by
    simp only [tickingCalls, List.mem_cons, reduceCtorEq, CacheCall.get.injEq, List.not_mem_nil,
      false_or, or_false] at hget
    rcases hget with h | h | h | h | h | h | h <;> exact ⟨_, h.1⟩
  obtain ⟨name, rfl⟩ := hticking
  rfl

/-- After the run the clock has moved by one nanosecond for each miss, and asking for a resource
above the root, which cannot be read, leaves all held artifacts alone. -/
theorem books_of_tickingCalls :
    let start : CachedStore := ⟨.empty, .empty, tickingHost⟩
    let s := (start.calls tickingCalls).2
    Meter Host.clock tickingCalls ∧
      s.store.read s.host.view "/../a.toy" = .error (.invalidPath "/../a.toy") ∧
      s.host.clock = tickingHost.clock + s.cache.misses ∧
      ∀ other place,
        (s.call (.get (.ticking "toy") "/../a.toy")).2.cache.held? other place =
          s.cache.held? other place := by
  have hbooks := books_of_calls .empty tickingHost tickingCalls
  dsimp only at hbooks ⊢
  generalize (calls ⟨.empty, .empty, tickingHost⟩ tickingCalls).2 = s at hbooks ⊢
  obtain ⟨-, ⟨-, -, hunread⟩, ⟨-, -, -, -, hmeter, -⟩, -⟩ := hbooks
  have hrefused : s.store.read s.host.view "/../a.toy" = .error (.invalidPath "/../a.toy") := rfl
  exact ⟨meter_tickingCalls, hrefused, hmeter Host.clock meter_tickingCalls,
    hunread (.ticking "toy") "/../a.toy" _ hrefused⟩

end CachedStore

end ScriptHost
