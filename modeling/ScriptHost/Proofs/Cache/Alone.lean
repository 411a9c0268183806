import Mathlib.Data.Multiset.AddSub
import ScriptHost.Proofs.Cache.Bookkeeping
import ScriptHost.Proofs.Cache.SingleFlight

/-!
# Lookups that run alone

A lookup that is cut into steps, and takes all of them before anything else happens, does what
`ArtifactCache.getOrCompile` does at once: `SharedCache.Rests.runs`. Between two such lookups the
shared cache holds what the other one holds, and nobody has a handle on any slot:
`SharedCache.Rests`. So every sequence of calls that drop nothing is one of the runs of a system of
concurrent lookups: `CacheSystem.exists_reachable_serial`.
-/

namespace ScriptHost

/-- The steps of one lookup, one after the other. -/
inductive Runs : SharedCache → Lookup → SharedCache → Lookup → Prop where
  | refl {s l} : Runs s l s l
  | step {s l s' l' s'' l''} (first : Advances s l s' l') (rest : Runs s' l' s'' l'') :
      Runs s l s'' l''

namespace CacheSystem

variable {c c' : SharedCache} {l l' : Lookup} {others : Multiset Lookup}

/-- Slots, handles and locks stay in order over the steps of a lookup. -/
theorem Wired.runs (h : Wired ⟨c, l ::ₘ others⟩) (run : Runs c l c' l') :
    Wired ⟨c', l' ::ₘ others⟩ := by
  induction run with
  | refl => exact h
  | step first _ ih => exact ih (h.advance first)

end CacheSystem

open CacheSystem (Wired wired_cons_iff)

namespace SharedCache

/-- A shared cache has counted what another cache has counted. -/
def SameCounts (s : SharedCache) (c : ArtifactCache) : Prop :=
  s.hits = c.hits ∧ s.misses = c.misses ∧ s.compilations = c.compilations ∧ s.failures = c.failures

/-- A shared cache on which there are no lookups holds what a tidy cache holds. -/
structure Rests (s : SharedCache) (c : ArtifactCache) : Prop where
  wired : Wired ⟨s, 0⟩
  tidy : c.Tidy
  held : ∀ other place,
    (s.slots (other, place)).map s.entries = (c.held? other place).map some
  counts : s.SameCounts c

/-- A shared cache on which one lookup has opened its slot holds what a cache holds. -/
structure Opened (s : SharedCache) (c : ArtifactCache) (key : String × String) (slot : Nat) :
    Prop where
  found : s.slots key = some slot
  entry : s.entries slot = c.held? key.1 key.2
  free : s.locked slot = false
  handles : s.handles slot = 2
  distinct : ∀ other, s.slots other = some slot → other = key
  others : ∀ other place, (other, place) ≠ key →
    (s.slots (other, place)).map s.entries = (c.held? other place).map some
  counts : s.SameCounts c

variable {s s' : SharedCache} {c c' : ArtifactCache} {key : String × String} {slot : Nat}

/-- The first step of a lookup opens its slot. -/
theorem Rests.opens (h : s.Rests c) {l : Lookup} (hl : l.stage = .arrived) :
    ∃ s₁ slot, Advances s l s₁ (l.withStage (.waiting slot)) ∧ s₁.Opened c l.key slot ∧
      s₁.store = s.store ∧ s₁.host = s.host := by
  obtain ⟨hwired, -, hheld, hcounts⟩ := h
  cases hslot : s.slots l.key with
  | some slot =>
      have hentry := hheld l.key.1 l.key.2
      rw [hslot] at hentry
      refine ⟨s.clone slot, slot, .clone hl hslot, ?_, rfl, rfl⟩
      exact {
        found := hslot
        entry := by
          cases hheld' : c.held? l.key.1 l.key.2 with
          | none => rw [hheld'] at hentry; cases hentry
          | some held => rw [hheld'] at hentry; exact Option.some.inj hentry
        free := by
          have hlocks : 0 = (s.locked slot).toNat := hwired.locks slot
          exact Bool.toNat_eq_zero.mp hlocks.symm
        handles := by
          have hhandles := hwired.handles _ slot hslot
          simpa [clone] using hhandles
        distinct := fun other hother => hwired.distinct other l.key slot hother hslot
        others := fun other place _ => hheld other place
        counts := hcounts }
  | none =>
      have hentry := hheld l.key.1 l.key.2
      rw [hslot] at hentry
      refine ⟨s.create l.key, s.fresh, .create hl hslot, ?_, rfl, rfl⟩
      exact {
        found := Function.update_self ..
        entry := by
          cases hheld' : c.held? l.key.1 l.key.2 with
          | none => exact Function.update_self ..
          | some held => rw [hheld'] at hentry; cases hentry
        free := Function.update_self ..
        handles := Function.update_self ..
        distinct := by
          intro other hother
          by_contra hne
          rw [create] at hother
          simp only [Function.update_of_ne hne] at hother
          exact Nat.lt_irrefl _ (hwired.slots_lt other _ hother)
        others := by
          intro other place hne
          rw [← hheld other place, create]
          simp only [Function.update_of_ne hne]
          cases hother : s.slots (other, place) with
          | none => rfl
          | some i =>
              have hlt := hwired.slots_lt _ i hother
              simp [Function.update_of_ne (Nat.ne_of_lt hlt)]
        counts := hcounts }

/-- What a cache holds, told apart by whether it is held for one key. -/
theorem held?_eq_ite {entry : Option HeldArtifact} (h : c.held? key.1 key.2 = entry)
    (other place : String) :
    c.held? other place = if (other, place) = key then entry else c.held? other place := by
  split
  · rename_i heq
    subst heq
    exact h
  · rfl

/-- What a shared cache holds when the slot that was opened stays in the map with an artifact. -/
theorem Opened.held_put (h : s.Opened c key slot) {held : HeldArtifact}
    (hslots : s'.slots = s.slots)
    (hentries : s'.entries = Function.update s.entries slot (some held))
    (hheld : ∀ other place, c'.held? other place =
      if (other, place) = key then some held else c.held? other place) (other place : String) :
    (s'.slots (other, place)).map s'.entries = (c'.held? other place).map some := by
  rw [hslots, hentries, hheld]
  split
  · rename_i heq
    rw [heq, h.found]
    simp
  · rename_i hne
    rw [← h.others other place hne]
    cases hother : s.slots (other, place) with
    | none => rfl
    | some i =>
        have hi : i ≠ slot := fun heq => hne (h.distinct _ (heq ▸ hother))
        simp [Function.update_of_ne hi]

/-- What a shared cache holds when the slot that was opened stays in the map with what is in it. -/
theorem Opened.held_keep (h : s.Opened c key slot) {held : HeldArtifact}
    (hheld : c.held? key.1 key.2 = some held) (hslots : s'.slots = s.slots)
    (hentries : s'.entries = s.entries) (other place : String) :
    (s'.slots (other, place)).map s'.entries = (c.held? other place).map some := by
  refine h.held_put hslots ?_ (held?_eq_ite hheld) other place
  rw [hentries, ← hheld, ← h.entry, Function.update_eq_self]

/-- What a shared cache holds when the slot that was opened is taken out of the map. -/
theorem Opened.held_unlink (h : s.Opened c key slot)
    (hslots : s'.slots = Function.update s.slots key none)
    (hentries : ∀ i, i ≠ slot → s'.entries i = s.entries i)
    (hheld : ∀ other place, c'.held? other place =
      if (other, place) = key then none else c.held? other place) (other place : String) :
    (s'.slots (other, place)).map s'.entries = (c'.held? other place).map some := by
  rw [hslots, hheld]
  split
  · rename_i heq
    rw [heq, Function.update_self]
    rfl
  · rename_i hne
    rw [← h.others other place hne, Function.update_of_ne hne]
    cases hother : s.slots (other, place) with
    | none => rfl
    | some i =>
        have hi : i ≠ slot := fun heq => hne (h.distinct _ (heq ▸ hother))
        simp [hentries i hi]

/-- A lookup comes to an end, and leaves behind what a cache holds and counts, and a host. -/
def Ends (s : SharedCache) (l : Lookup) (ending : Ending) (c' : ArtifactCache) (host : Host) :
    Prop :=
  ∃ s' l', Runs s l s' l' ∧ l'.stage = .returned ending ∧
    (∀ other place, (s'.slots (other, place)).map s'.entries = (c'.held? other place).map some) ∧
    s'.SameCounts c' ∧ s'.host = host ∧ s'.store = s.store

variable {l : Lookup} {resource : Resource} {host : Host}

/-- A lookup that cannot read leaves everything as it was. -/
theorem Opened.ends_unread (h : s.Opened c l.key slot) (hl : l.stage = .waiting slot)
    {fault : StoreFault} (hread : s.store.read s.host.view l.path = .error fault) :
    s.Ends l (.failed (.store fault)) c s.host := by
  have hentry := h.entry
  cases hheld : c.held? l.key.1 l.key.2 with
  | none =>
      -- nothing is in the slot, and nobody else has a handle on it: it goes out of the map
      rw [hheld] at hentry
      refine ⟨_, _, .step (.acquire hl h.free) (.step (.misread rfl hread) (.step (.release rfl
        ⟨h.found, h.handles, Function.update_self .., hentry⟩) (.step (.drop rfl) .refl))), rfl,
        ?_, h.counts, rfl, rfl⟩
      exact h.held_unlink rfl (fun _ _ => rfl) (held?_eq_ite hheld)
  | some held =>
      -- an older artifact is in the slot, so that the slot stays with it
      rw [hheld] at hentry
      have hused : ¬ ((s.lock slot).unlock slot).Unused l.key slot := by
        rintro ⟨-, -, -, hnone⟩
        cases hentry.symm.trans hnone
      exact ⟨_, _, .step (.acquire hl h.free) (.step (.misread rfl hread) (.step (.keep rfl hused)
        (.step (.drop rfl) .refl))), rfl, h.held_keep hheld rfl rfl, h.counts, rfl, rfl⟩

/-- A lookup that finds an artifact that is up to date returns it. -/
theorem Opened.ends_hit (h : s.Opened c l.key slot) (hl : l.stage = .waiting slot)
    (hread : s.store.read s.host.view l.path = .ok resource) {held : HeldArtifact}
    (hfresh : c.fresh? l.key.1 l.key.2 resource.fingerprint = some held) :
    s.Ends l (.hit held) { c with hits := c.hits + 1 } s.host := by
  obtain ⟨hheld, hfingerprint⟩ := Option.filter_eq_some_iff.mp hfresh
  have hentry := h.entry.trans hheld
  obtain ⟨hhits, hothers⟩ := h.counts
  exact ⟨_, _, .step (.acquire hl h.free) (.step (.read rfl hread)
    (.step (.hit rfl hentry (of_decide_eq_true hfingerprint)) (.step (.drop rfl) .refl))), rfl,
    h.held_keep hheld rfl rfl, ⟨congrArg (· + 1) hhits, hothers⟩, rfl, rfl⟩

/-- What is not up to date was not made from the content. -/
theorem Opened.stale (h : s.Opened c key slot) {fingerprint : Fingerprint}
    (hfresh : c.fresh? key.1 key.2 fingerprint = none) (held : HeldArtifact)
    (hentry : s.entries slot = some held) : held.artifact.fingerprint ≠ fingerprint := by
  intro heq
  have hheld := h.entry.symm.trans hentry
  rw [ArtifactCache.fresh?, hheld, Option.filter_some, if_pos (decide_eq_true heq)] at hfresh
  cases hfresh

/-- A lookup that compiles with success leaves its artifact behind. -/
theorem Opened.ends_compiled (h : s.Opened c l.key slot) (hl : l.stage = .waiting slot)
    (hread : s.store.read s.host.view l.path = .ok resource)
    (hfresh : c.fresh? l.key.1 l.key.2 resource.fingerprint = none) {artifact : Artifact}
    (hcompile : (l.compiler.compile (.ofResource resource)).run.run s.host =
      (.ok artifact, host)) :
    s.Ends l (.compiled ⟨c.compilations, artifact⟩)
      ((c.openSlot l.key.1 l.key.2).publish l.key.1 l.key.2 artifact).2 host := by
  have hstale := h.stale hfresh
  obtain ⟨hhits, hmisses, hcompilations, hfailures⟩ := h.counts
  obtain ⟨hhits', hmisses', hcompilations', hfailures'⟩ := c.counts_openSlot l.key.1 l.key.2
  rw [← hcompilations]
  refine ⟨_, _, .step (.acquire hl h.free) (.step (.read rfl hread) (.step (.miss rfl hstale)
    (.step (.publish rfl hcompile) (.step (.drop rfl) .refl)))), rfl, ?_, ?_, rfl, rfl⟩
  · refine h.held_put rfl rfl fun other place => ?_
    rw [c.held?_publish, ← hcompilations]
    rfl
  · exact ⟨hhits.trans hhits'.symm, congrArg (· + 1) (hmisses.trans hmisses'.symm),
      congrArg (· + 1) (hcompilations.trans hcompilations'.symm), hfailures.trans hfailures'.symm⟩

/-- A lookup that compiles in vain leaves nothing in its slot. -/
theorem Opened.ends_rejected (h : s.Opened c l.key slot) (hl : l.stage = .waiting slot)
    (hread : s.store.read s.host.view l.path = .ok resource)
    (hfresh : c.fresh? l.key.1 l.key.2 resource.fingerprint = none) {report : Report}
    (hcompile : (l.compiler.compile (.ofResource resource)).run.run s.host =
      (.error report, host)) :
    s.Ends l (.failed (.compilation l.path report))
      (((c.openSlot l.key.1 l.key.2).discard l.key.1 l.key.2).release l.key.1 l.key.2) host := by
  have hstale := h.stale hfresh
  obtain ⟨hhits, hmisses, hcompilations, hfailures⟩ := h.counts
  obtain ⟨hhits', hmisses', hcompilations', hfailures'⟩ := c.counts_openSlot l.key.1 l.key.2
  refine ⟨_, _, .step (.acquire hl h.free) (.step (.read rfl hread) (.step (.miss rfl hstale)
    (.step (.discard rfl hcompile) (.step (.release rfl ⟨h.found, h.handles,
      Function.update_self .., Function.update_self ..⟩) (.step (.drop rfl) .refl))))), rfl, ?_, ?_,
    rfl, rfl⟩
  · exact h.held_unlink rfl (fun i hi => Function.update_of_ne hi _ _)
      (c.held?_discard_release l.key.1 l.key.2)
  · exact ⟨hhits.trans hhits'.symm, congrArg (· + 1) (hmisses.trans hmisses'.symm),
      hcompilations.trans hcompilations'.symm, congrArg (· + 1) (hfailures.trans hfailures'.symm)⟩

/-- When a lookup has come to its end, the cache rests again. -/
theorem Rests.of_ends (h : s.Rests c) {l₁ : Lookup} {s₁ : SharedCache} {ending : Ending}
    (hl : l.stage = .arrived) (hopen : Advances s l s₁ l₁) (hends : s₁.Ends l₁ ending c' host)
    (htidy : c'.Tidy) :
    ∃ s' l', Runs s l s' l' ∧ l'.stage = .returned ending ∧ s'.Rests c' ∧ s'.host = host ∧
      s'.store = s₁.store := by
  obtain ⟨s', l', hruns, hreturned, hheld, hcounts, hhost, hstore⟩ := hends
  have hall := Runs.step hopen hruns
  have hbefore := (wired_cons_iff (congrArg Stage.grip hl)).mpr h.wired
  have hafter := (wired_cons_iff (congrArg Stage.grip hreturned)).mp (hbefore.runs hall)
  exact ⟨s', l', hall, hreturned, ⟨hafter, htidy, hheld, hcounts⟩, hhost, hstore⟩

/-- A lookup that runs alone on a cache at rest returns what a request returns, and leaves behind
what a request leaves behind. -/
theorem Rests.runs (h : s.Rests c) (compiler : Compiler) (path : String) :
    let (result, c', host) := c.getOrCompile s.store compiler path s.host
    ∃ s' l' ending, Runs s (.new compiler path) s' l' ∧ l'.stage = .returned ending ∧
      ending.result = result ∧ s'.Rests c' ∧ s'.host = host ∧ s'.store = s.store := by
  obtain ⟨s₁, slot, hopen, hopened, hstore, hhost⟩ := h.opens (l := .new compiler path) rfl
  rw [← hstore, ← hhost]
  let l₁ := (Lookup.new compiler path).withStage (.waiting slot)
  have hl₁ : l₁.stage = .waiting slot := rfl
  -- whatever the lookup ends with, the cache rests again
  have hrests {ending : Ending} {c' : ArtifactCache} {host : Host}
      (hends : s₁.Ends l₁ ending c' host) (htidy : c'.Tidy) :
      ∃ s' l' found, Runs s (.new compiler path) s' l' ∧ l'.stage = .returned found ∧
        found.result = ending.result ∧ s'.Rests c' ∧ s'.host = host ∧ s'.store = s₁.store := by
    obtain ⟨s', l', hruns, hreturned, hrest⟩ := h.of_ends rfl hopen hends htidy
    exact ⟨s', l', ending, hruns, hreturned, rfl, hrest⟩
  cases hread : s₁.store.read s₁.host.view path with
  | error fault =>
      rw [h.tidy.getOrCompile_unread hread]
      exact hrests (hopened.ends_unread (l := l₁) hl₁ hread) h.tidy
  | ok resource =>
      cases hfresh : c.fresh? compiler.name path resource.fingerprint with
      | some held =>
          rw [c.getOrCompile_hit hread hfresh]
          exact hrests (hopened.ends_hit (l := l₁) hl₁ hread hfresh) (h.tidy.of_slots rfl)
      | none =>
          rcases hcompile : (compiler.compile (.ofResource resource)).run.run s₁.host with
            ⟨report | artifact, host⟩
          · rw [c.getOrCompile_rejected hread hfresh hcompile]
            refine hrests (hopened.ends_rejected (l := l₁) hl₁ hread hfresh hcompile) ?_
            refine h.tidy.of_sublist ?_
            rw [c.slots_discard_release]
            exact List.filter_sublist
          · rw [c.getOrCompile_compiled hread hfresh hcompile]
            exact hrests (hopened.ends_compiled (l := l₁) hl₁ hread hfresh hcompile)
              (h.tidy.publish compiler.name path artifact)

/-- An empty shared cache rests. -/
theorem rests_empty (store : ResourceStore) (host : Host) : (empty store host).Rests .empty where
  wired := .start store host
  tidy := ArtifactCache.tidy_empty
  held _ _ := rfl
  counts := ⟨rfl, rfl, rfl, rfl⟩

/-- A cache goes on resting when resources change. -/
theorem Rests.withContents (h : s.Rests c) (store : ResourceStore) (host : Host) :
    (s.withContents store host).Rests c where
  wired := h.wired.of_slots rfl rfl rfl rfl
  tidy := h.tidy
  held := h.held
  counts := h.counts

end SharedCache

/-- Whether a call is a step of a system of lookups, or a lookup in it: it drops nothing. -/
def CacheCall.DropsNothing (compilers : Set Compiler) : CacheCall → Prop
  | .write .. | .delete _ => True
  | .get compiler _ => compiler ∈ compilers
  | .invalidate _ | .clear => False

namespace CacheSystem

variable {compilers : Set Compiler} {c c' : SharedCache} {l l' : Lookup}
  {lookups others : Multiset Lookup}

/-- The steps of one lookup are steps of the system. -/
theorem Reachable.runs (h : Reachable compilers ⟨c, l ::ₘ others⟩) (run : Runs c l c' l') :
    Reachable compilers ⟨c', l' ::ₘ others⟩ := by
  induction run with
  | refl => exact h
  | step first _ ih => exact ih (h.step (.advance others first))

/-- Calls that are answered one after the other are a run of the system, in which each lookup takes
all of its steps before anything else happens. -/
theorem Reachable.serial (calls : List CacheCall) :
    ∀ {s : SharedCache} {cache : ArtifactCache} {lookups : Multiset Lookup},
      Reachable compilers ⟨s, lookups⟩ → s.Rests cache →
      (∀ call ∈ calls, call.DropsNothing compilers) →
      let (replies, final) := CachedStore.calls ⟨cache, s.store, s.host⟩ calls
      ∃ (s' : SharedCache) (answered : List Lookup),
        Reachable compilers ⟨s', (answered : Multiset Lookup) + lookups⟩ ∧ s'.Rests final.cache ∧
        s'.store = final.store ∧ s'.host = final.host ∧
        answered.map Lookup.result? = (replies.filterMap CacheReply.artifact?).map some := by
  induction calls with
  | nil =>
      intro s cache lookups hreached hrests _
      exact ⟨s, [], by simpa using hreached, hrests, rfl, rfl, rfl⟩
  | cons call rest ih =>
      intro s cache lookups hreached hrests hcalls
      obtain ⟨hcall, hrest⟩ := List.forall_mem_cons.mp hcalls
      cases call with
      | write path content =>
          exact ih (hreached.step (.write path content)) (hrests.withContents _ _) hrest
      | delete path =>
          exact ih (hreached.step (.delete path)) (hrests.withContents _ _) hrest
      | get compiler path =>
          obtain ⟨s₁, l₁, ending, hruns, hreturned, hresult, hrests₁, hhost, hstore⟩ :=
            hrests.runs compiler path
          have hreached₁ := (hreached.step (.arrive hcall path)).runs hruns
          obtain ⟨s', answered, hreached', hrests', hstore', hhost', hanswers⟩ :=
            ih hreached₁ hrests₁ hrest
          rw [hstore, hhost] at hrests' hstore' hhost' hanswers
          refine ⟨s', l₁ :: answered, ?_, hrests', hstore', hhost', ?_⟩
          · rwa [← Multiset.cons_coe, Multiset.cons_add, ← Multiset.add_cons]
          · have hanswer : l₁.result? = some ending.result := by
              rw [Lookup.result?, hreturned]
            rw [List.map_cons, hanswers, hanswer, hresult]
            rfl
      | invalidate | clear => exact hcall.elim

/-- Every sequence of calls on a new cache that drop nothing is a run of a system, and leaves behind
what the system has then. -/
theorem exists_reachable_serial (store : ResourceStore) (host : Host) {calls : List CacheCall}
    (hcalls : ∀ call ∈ calls, call.DropsNothing compilers) :
    let (replies, final) := CachedStore.calls ⟨.empty, store, host⟩ calls
    ∃ (s : SharedCache) (answered : List Lookup),
      Reachable compilers ⟨s, answered⟩ ∧ s.Rests final.cache ∧
      s.store = final.store ∧ s.host = final.host ∧
      answered.map Lookup.result? = (replies.filterMap CacheReply.artifact?).map some := by
  have hrests := SharedCache.rests_empty store host
  obtain ⟨s, answered, hreached, hanswered⟩ :=
    Reachable.serial calls (.start store host) hrests hcalls
  rw [Multiset.add_zero] at hreached
  exact ⟨s, answered, hreached, hanswered⟩

end CacheSystem

end ScriptHost
