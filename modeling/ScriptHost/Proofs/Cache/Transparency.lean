import Mathlib.Data.List.Nodup
import ScriptHost.Compiler.Directives
import ScriptHost.Proofs.Cache.Soundness
import ScriptHost.Proofs.Engine.Registry
import ScriptHost.Proofs.World.Simulation
import ScriptHost.Service.Call

/-!
# The artifact cache does not show

A service of compiled engines is compared with a service without the cache, in which every request
reads the resource at its path and compiles it afresh. `Service.replies_eq_uncached` says that no
sequence of calls tells the two apart. The two services are simulated side by side: `World.Alike`
relates worlds with the same resources in memory, as long as the cache of the first one is sound.
-/

namespace ScriptHost

/-- What a compiler makes of the resource at a path, compiled afresh. -/
def World.recompiled (compiler : Compiler) (path : String) : WorldM Artifact := do
  let resource ← World.readResource path
  World.onHost (ExceptT.adapt (Error.compilation path) (compiler.compile (.ofResource resource)))

/-- The engine of a compiler without a cache: every request compiles the resource at its path. -/
def Engine.uncached (compiler : Compiler) : Engine :=
  .script fun request => do
    let path ← World.resolveResource request.path
    let artifact ← World.recompiled compiler path
    let output ← World.onHost (artifact.invoke request)
    return { output with warnings := artifact.warnings }

/-- A registry of engines that keep what they compile in the cache. -/
def Registry.compiled (compilers : Registry Compiler) : Registry Engine :=
  compilers.map .compiled

/-- A registry of engines that compile every time. -/
def Registry.uncached (compilers : Registry Compiler) : Registry Engine :=
  compilers.map .uncached

/-- A store keeps its resources in memory, and all of them have one of some contents. -/
def ResourceStore.InMemory (store : ResourceStore) (contents : List ByteArray) : Prop :=
  ∃ entries : Std.TreeMap String ByteArray, store = .memory entries ∧
    ∀ (key : String) (content : ByteArray), entries[key]? = some content → content ∈ contents

/-- Two worlds that hold the same resources in memory, all of them with one of some contents, where
the cache of the first world is sound. -/
structure World.Alike (compilers : List Compiler) (contents : List ByteArray) (w v : World) :
    Prop where
  same : v.store = w.store
  memory : w.store.InMemory contents
  sound : w.cache.Sound compilers contents

namespace World

variable {compilers : List Compiler} {contents : List ByteArray} {w v : World}

/-- Whether worlds are alike depends on their stores and the cache of the first one only. -/
theorem Alike.of_eq (h : Alike compilers contents w v) {w' v' : World} (hw : w'.store = w.store)
    (hcache : w'.cache = w.cache) (hv : v'.store = v.store) : Alike compilers contents w' v' := by
  obtain ⟨hsame, hmemory, hsound⟩ := h
  exact ⟨by rw [hv, hw, hsame], by rwa [hw], by rwa [hcache]⟩

/-- Alike worlds read the same resources. -/
theorem Alike.read_eq (h : Alike compilers contents w v) (path : String) :
    v.store.read v.host.view path = w.store.read w.host.view path := by
  obtain ⟨entries, hentries, _⟩ := h.memory
  rw [h.same, hentries]
  rfl

/-- Alike worlds have resources at the same paths. -/
theorem Alike.contains_eq (h : Alike compilers contents w v) (path : String) :
    v.store.contains v.host.view path = w.store.contains w.host.view path := by
  obtain ⟨entries, hentries, _⟩ := h.memory
  rw [h.same, hentries]
  unfold ResourceStore.contains
  cases ResourceStore.key path <;> rfl

/-- What is read from a world with an alike one has one of the contents. -/
theorem Alike.reads (h : Alike compilers contents w v) {view : FileView} {path : String}
    {resource : Resource} (hread : w.store.read view path = .ok resource) :
    ResourceStore.Reads contents path resource := by
  obtain ⟨entries, hentries, hmem⟩ := h.memory
  rw [hentries] at hread
  obtain ⟨key, content, hkey, hcontent, rfl⟩ := ResourceStore.read_memory hread
  exact ⟨key, content, hkey, hmem key content hcontent, rfl⟩

end World

section Simulation

variable {compilers : List Compiler} {contents : List ByteArray} {c : Compiler}

open World (Alike Simulates)

theorem simulates_resolveResource (path : String) :
    Simulates (Alike compilers contents) Eq (World.resolveResource path)
      (World.resolveResource path) := by
  intro w v h
  rw [World.run_resolveResource, World.run_resolveResource]
  have hresolved : v.resolved path = w.resolved path := by
    simp only [World.resolved, h.contains_eq]
  rw [hresolved]
  exact ⟨World.agree_refl _, h⟩

/-- Compiling what is read changes nothing but the host. -/
theorem run_recompiled (c : Compiler) (path : String) (v : World) :
    ∃ host, (World.recompiled c path).run.run v =
      (c.afresh v.store path v.host, { v with host }) := by
  rw [World.recompiled, Compiler.afresh]
  cases hread : v.store.read v.host.view path with
  | error fault =>
      refine ⟨v.host, World.run_bind_error ?_ _⟩
      rw [World.run_readResource, hread]
      rfl
  | ok resource =>
      have hrun : (World.readResource path).run.run v = (.ok resource, v) := by
        rw [World.run_readResource, hread]
        rfl
      rw [World.run_bind_ok hrun, World.run_onHost, World.run_adapt]
      exact ⟨_, rfl⟩

/-- An artifact from the cache is the one that compiling afresh gives. -/
theorem simulates_artifact (hc : c ∈ compilers) (hunique : ∀ d ∈ compilers, d.name = c.name → d = c)
    (hrepro : c.Reproducible) (hcontents : Distinguishable contents) (path : String) :
    Simulates (Alike compilers contents)
      (fun held artifact => held.artifact = artifact ∧
        ∃ unit host, c.outcome unit host = .ok artifact)
      (World.artifact c path) (World.recompiled c path) := by
  intro w v h
  obtain ⟨host, hrun⟩ := run_recompiled c path v
  obtain ⟨hsound, hresult⟩ := ArtifactCache.getOrCompile_spec h.sound hc hunique hrepro hcontents
    w.store path w.host fun _ => h.reads
  -- The hosts of the two worlds may differ, as only one of them compiles on every request.
  have hsame : c.afresh v.store path v.host = c.afresh w.store path w.host := by
    rw [Compiler.afresh, Compiler.afresh, h.read_eq]
    cases w.store.read w.host.view path with
    | error fault => rfl
    | ok resource =>
        exact congrArg (Except.mapError (Error.compilation path)) (hrepro.compile_eq _ _ _)
  rw [World.run_artifact, hrun, hsame, ← hresult]
  refine ⟨World.agree_map fun held hheld => ⟨rfl, ?_⟩, ⟨h.same, h.memory, hsound⟩⟩
  rw [hheld] at hresult
  obtain ⟨unit, hunit⟩ := Compiler.outcome_of_afresh hresult.symm
  exact ⟨unit, w.host, hunit⟩

/-- Running one artifact gives one result. -/
theorem simulates_invoke (hrepro : c.Reproducible) {unit : SourceUnit} {host : Host}
    {artifact : Artifact} (hmade : c.outcome unit host = .ok artifact) (request : Request) :
    Simulates (Alike compilers contents) Eq (World.onHost (artifact.invoke request))
      (World.onHost (artifact.invoke request)) := by
  intro w v h
  have hsame := hrepro.invoke_eq unit host artifact hmade request v.host w.host
  rw [Artifact.outcome, Artifact.outcome] at hsame
  rw [World.run_onHost, World.run_onHost, hsame]
  exact ⟨World.agree_refl _, h.of_eq rfl rfl rfl⟩

/-- A compiled engine answers what the engine without a cache answers. -/
theorem simulates_engine (hc : c ∈ compilers) (hunique : ∀ d ∈ compilers, d.name = c.name → d = c)
    (hrepro : c.Reproducible) (hcontents : Distinguishable contents) (request : Request) :
    Simulates (Alike compilers contents) Eq
      (do
        let path ← World.resolveResource request.path
        let held ← World.artifact c path
        let output ← World.onHost (held.artifact.invoke request)
        return { output with warnings := held.artifact.warnings })
      (do
        let path ← World.resolveResource request.path
        let artifact ← World.recompiled c path
        let output ← World.onHost (artifact.invoke request)
        return { output with warnings := artifact.warnings }) := by
  refine (simulates_resolveResource request.path).bind fun path _ hpath => ?_
  subst hpath
  refine (simulates_artifact hc hunique hrepro hcontents path).bind fun held artifact hheld => ?_
  obtain ⟨rfl, unit, host, hmade⟩ := hheld
  refine (simulates_invoke hrepro hmade request).bind fun output _ houtput => ?_
  exact World.simulates_pure (by rw [houtput])

/-- A token finds corresponding engines. -/
theorem simulates_lookup (registry : Registry Compiler) (token : String) :
    Simulates (Alike compilers contents)
      (fun a b => ∃ names, ∃ c ∈ registry.entries.map (·.2),
        a = (names, Engine.compiled c) ∧ b = (names, Engine.uncached c))
      (MonadExcept.ofExcept (registry.compiled.lookup token))
      (MonadExcept.ofExcept (registry.uncached.lookup token)) := by
  rw [Registry.compiled, Registry.uncached, Registry.lookup_map, Registry.lookup_map]
  cases hlookup : registry.lookup token with
  | error fault => exact World.simulates_ofExcept (.error fault)
  | ok entry =>
      have hc : entry.2 ∈ registry.entries.map (·.2) :=
        List.mem_map_of_mem (Registry.mem_entries_of_lookup hlookup)
      exact World.simulates_ofExcept (.ok ⟨entry.1, entry.2, hc, rfl, rfl⟩)

/-- Compilers with one name are one compiler, and all of them are reproducible. -/
structure Registry.Trusted (compilers : Registry Compiler) : Prop where
  unique : ∀ c ∈ compilers.entries.map (·.2), ∀ d ∈ compilers.entries.map (·.2),
    d.name = c.name → d = c
  reproducible : ∀ c ∈ compilers.entries.map (·.2), c.Reproducible

/-- Engines with different names of their compilers are registered as trusted compilers. -/
theorem Registry.trusted_of_registerAll {engines : List (EngineNames × Compiler)}
    (hnames : (engines.map (·.2.name)).Nodup) (hrepro : ∀ engine ∈ engines, engine.2.Reproducible)
    {registry : Registry Compiler} (h : Registry.empty.registerAll engines = .ok registry) :
    registry.Trusted := by
  have hentries : registry.entries = engines := Registry.entries_registerAll h
  refine ⟨fun c hc d hd hname => ?_, fun c hc => ?_⟩
  · rw [hentries] at hc hd
    obtain ⟨engine, hengine, rfl⟩ := List.mem_map.mp hc
    obtain ⟨other, hother, rfl⟩ := List.mem_map.mp hd
    rw [List.inj_on_of_nodup_map hnames hother hengine hname]
  · rw [hentries] at hc
    obtain ⟨engine, hengine, rfl⟩ := List.mem_map.mp hc
    exact hrepro engine hengine

/-- A request has one result with and without a cache, whichever engine its token finds. -/
theorem simulates_execute {registry : Registry Compiler} (htrusted : registry.Trusted)
    (hcontents : Distinguishable contents) (request : Request) :
    Simulates (Alike (registry.entries.map (·.2)) contents) Eq
      (execute registry.compiled request) (execute registry.uncached request) := by
  -- The jobs that the levels leave room for play no part: no engine here is a job engine.
  suffices hattempt : ∀ job other : String → WorldM Output,
      Simulates (Alike (registry.entries.map (·.2)) contents) Eq
        (attempt registry.compiled request job) (attempt registry.uncached request other) by
    rw [execute, execute]
    cases maxJobDepth - request.depth with
    | zero => exact hattempt _ _
    | succ levels => exact hattempt _ _
  intro job other
  refine (World.simulates_logged (fun _ _ _ _ h => h.of_eq rfl rfl rfl) request request).bind
    fun _ _ _ => ?_
  refine (simulates_lookup registry request.engine).bind fun a b hab => ?_
  obtain ⟨names, c, hc, rfl, rfl⟩ := hab
  exact (simulates_engine hc (htrusted.unique c hc) (htrusted.reproducible c hc) hcontents
    request).recorded (fun _ _ _ _ h => h.of_eq rfl rfl rfl) _ _

end Simulation

namespace ResourceStore

variable {store : ResourceStore} {contents : List ByteArray}

/-- A store in memory is written to without regard to the files. -/
theorem InMemory.write_eq (h : store.InMemory contents) (path : String) {content : ByteArray}
    (hcontent : content ∈ contents) :
    ∃ result, ∃ after : ResourceStore, after.InMemory contents ∧
      ∀ view, store.write view path content = (result, after, view) := by
  have hstore := h
  obtain ⟨entries, rfl, hmem⟩ := h
  cases hkey : key path with
  | error fault => exact ⟨.error fault, _, hstore, fun view => by unfold write; rw [hkey]⟩
  | ok key =>
      refine ⟨.ok (), .memory (entries.insert key content), ⟨_, rfl, ?_⟩,
        fun view => by unfold write; rw [hkey]⟩
      intro other found hfound
      rw [Std.TreeMap.getElem?_insert] at hfound
      split at hfound
      · cases hfound
        exact hcontent
      · exact hmem other found hfound

/-- A store in memory is deleted from without regard to the files. -/
theorem InMemory.delete_eq (h : store.InMemory contents) (path : String) :
    ∃ result, ∃ after : ResourceStore, after.InMemory contents ∧
      ∀ view, store.delete view path = (result, after, view) := by
  have hstore := h
  obtain ⟨entries, rfl, hmem⟩ := h
  cases hkey : key path with
  | error fault => exact ⟨.error fault, _, hstore, fun view => by unfold delete; rw [hkey]⟩
  | ok key =>
      refine ⟨.ok (entries.contains key), .memory (entries.erase key), ⟨_, rfl, ?_⟩,
        fun view => by unfold delete; rw [hkey]⟩
      intro other found hfound
      rw [Std.TreeMap.getElem?_erase] at hfound
      split at hfound
      · cases hfound
      · exact hmem other found hfound

end ResourceStore

/-- The content that a call deploys, if it deploys any. -/
def ServiceCall.content? : ServiceCall → Option ByteArray
  | .deploy _ content => some content
  | .delete _ => none
  | .execute _ => none

namespace Service

/-- A service of compiled engines beside a service without a cache, in alike worlds. -/
structure Alike (registry : Registry Compiler) (contents : List ByteArray) (s u : Service) :
    Prop where
  cached : s.registry = registry.compiled
  uncached : u.registry = registry.uncached
  worlds : World.Alike (registry.entries.map (·.2)) contents s.world u.world

variable {registry : Registry Compiler} {contents : List ByteArray} {s u : Service}

/-- Alike services deploy alike. -/
theorem Alike.deploy (h : Alike registry contents s u) (path : String) {content : ByteArray}
    (hcontent : content ∈ contents) :
    (s.deploy path content).1 = (u.deploy path content).1 ∧
      Alike registry contents (s.deploy path content).2 (u.deploy path content).2 := by
  rw [Service.deploy, Service.deploy]
  cases ResourceStore.key path with
  | error fault => exact ⟨rfl, h⟩
  | ok key =>
      obtain ⟨result, after, hmemory, hwrite⟩ := h.worlds.memory.write_eq key hcontent
      simp only [Service.write, h.worlds.same, hwrite]
      exact ⟨trivial, h.cached, h.uncached, rfl, hmemory, h.worlds.sound⟩

/-- Alike services delete alike. -/
theorem Alike.delete (h : Alike registry contents s u) (path : String) :
    (s.delete path).1 = (u.delete path).1 ∧
      Alike registry contents (s.delete path).2 (u.delete path).2 := by
  rw [Service.delete, Service.delete]
  cases ResourceStore.key path with
  | error fault => exact ⟨rfl, h⟩
  | ok key =>
      obtain ⟨result, after, hmemory, hdelete⟩ := h.worlds.memory.delete_eq key
      simp only [h.worlds.same, hdelete]
      cases result with
      | error fault => exact ⟨rfl, h.cached, h.uncached, rfl, hmemory, h.worlds.sound⟩
      | ok found => exact ⟨rfl, h.cached, h.uncached, rfl, hmemory, h.worlds.sound.invalidate key⟩

/-- Alike services execute alike. -/
theorem Alike.execute (h : Alike registry contents s u) (htrusted : registry.Trusted)
    (hcontents : Distinguishable contents) (request : Request) :
    (s.execute request).1 = (u.execute request).1 ∧
      Alike registry contents (s.execute request).2 (u.execute request).2 := by
  obtain ⟨hagree, hafter⟩ :=
    simulates_execute htrusted hcontents request s.world u.world h.worlds
  rw [← h.cached, ← h.uncached] at hagree hafter
  exact ⟨hagree.eq, h.cached, h.uncached, hafter⟩

/-- Alike services answer a call alike. -/
theorem Alike.call (h : Alike registry contents s u) (htrusted : registry.Trusted)
    (hcontents : Distinguishable contents) (c : ServiceCall)
    (hcontent : ∀ content, c.content? = some content → content ∈ contents) :
    (s.call c).1 = (u.call c).1 ∧ Alike registry contents (s.call c).2 (u.call c).2 := by
  cases c with
  | deploy path content =>
      obtain ⟨hreply, hafter⟩ := h.deploy path (hcontent content rfl)
      exact ⟨congrArg ServiceReply.deployed hreply, hafter⟩
  | delete path =>
      obtain ⟨hreply, hafter⟩ := h.delete path
      exact ⟨congrArg ServiceReply.deleted hreply, hafter⟩
  | execute request =>
      obtain ⟨hreply, hafter⟩ := h.execute htrusted hcontents request
      exact ⟨congrArg ServiceReply.executed hreply, hafter⟩

/-- Alike services answer calls alike. -/
theorem Alike.calls (h : Alike registry contents s u) (htrusted : registry.Trusted)
    (hcontents : Distinguishable contents) (calls : List ServiceCall)
    (hcalls : ∀ content ∈ calls.filterMap ServiceCall.content?, content ∈ contents) :
    (s.calls calls).1 = (u.calls calls).1 := by
  induction calls generalizing s u with
  | nil => rfl
  | cons c rest ih =>
      obtain ⟨hreply, hafter⟩ := h.call htrusted hcontents c fun content hcontent =>
        hcalls content (List.mem_filterMap.mpr ⟨c, List.mem_cons_self, hcontent⟩)
      have hrest := ih hafter fun content hcontent => by
        obtain ⟨d, hd, hdeploys⟩ := List.mem_filterMap.mp hcontent
        exact hcalls content (List.mem_filterMap.mpr ⟨d, List.mem_cons_of_mem _ hd, hdeploys⟩)
      show (s.call c).1 :: ((s.call c).2.calls rest).1 = (u.call c).1 :: ((u.call c).2.calls rest).1
      rw [hreply, hrest]

/-- A new service of compiled engines, whose compilers have different names, answers every sequence
of calls as the service does that has the same engines without a cache. -/
theorem replies_eq_uncached {engines : List (EngineNames × Compiler)}
    (hnames : (engines.map (·.2.name)).Nodup) (hrepro : ∀ engine ∈ engines, engine.2.Reproducible)
    {host : Host} {entries : Std.TreeMap String ByteArray} {storage : Storage} {s : Service}
    (hs : ofEngines (.new host (.memory entries) storage)
      (engines.map fun engine => (engine.1, .compiled engine.2)) = .ok s)
    (calls : List ServiceCall)
    (hcontents : Distinguishable
      (entries.toList.map (·.2) ++ calls.filterMap ServiceCall.content?)) :
    ∃ u, ofEngines (.new host (.memory entries) storage)
        (engines.map fun engine => (engine.1, .uncached engine.2)) = .ok u ∧
      (s.calls calls).1 = (u.calls calls).1 := by
  rw [ofEngines_map] at hs
  rw [ofEngines_map]
  cases hregistry : (Registry.empty : Registry Compiler).registerAll engines with
  | error fault =>
      rw [hregistry] at hs
      cases hs
  | ok registry =>
      rw [hregistry] at hs
      cases hs
      refine ⟨_, rfl, ?_⟩
      have hmemory : (ResourceStore.memory entries).InMemory
          (entries.toList.map (·.2) ++ calls.filterMap ServiceCall.content?) := by
        refine ⟨entries, rfl, fun key content hcontent => List.mem_append_left _ ?_⟩
        exact List.mem_map.mpr ⟨(key, content),
          Std.TreeMap.mem_toList_iff_getElem?_eq_some.mpr hcontent, rfl⟩
      have halike : Alike registry
          (entries.toList.map (·.2) ++ calls.filterMap ServiceCall.content?)
          ⟨registry.compiled, .new host (.memory entries) storage⟩
          ⟨registry.uncached, .new host (.memory entries) storage⟩ :=
        ⟨rfl, rfl, rfl, hmemory, ArtifactCache.sound_empty⟩
      exact halike.calls (Registry.trusted_of_registerAll hnames hrepro hregistry) hcontents calls
        fun content hcontent => List.mem_append_right _ hcontent

end Service

/-- An artifact of directives carries the fingerprint of its unit and has one result. -/
theorem Directives.compile_ok {unit : SourceUnit} {artifact : Artifact}
    (h : compile unit = .ok artifact) :
    artifact.fingerprint = unit.fingerprint ∧
      ∃ result, artifact.invoke = fun _ => ExceptT.mk (pure result) := by
  rw [compile] at h
  split at h
  · cases h
  · cases h
    exact ⟨rfl, _, rfl⟩

/-- A compiler of directives is reproducible. -/
theorem Compiler.directives_reproducible (name : String) : (directives name).Reproducible where
  compile_eq _ _ _ := rfl
  fingerprint_eq _ _ _ h := (Directives.compile_ok h).1
  invoke_eq _ _ artifact h request h₁ h₂ := by
    obtain ⟨result, hinvoke⟩ := (Directives.compile_ok h).2
    rw [Artifact.outcome, Artifact.outcome, hinvoke]
    rfl

namespace Service

/-- Two compilers of directives under different names. -/
def directiveEngines : List (EngineNames × Compiler) :=
  [(⟨"toy", "Toy"⟩, .directives "toy"), (⟨"other", "Other"⟩, .directives "other")]

/-- Two contents, the second of which is compiled with a warning. -/
def directiveContents : ByteArray × ByteArray :=
  ("OUT a".toUTF8, "WARN old\nOUT b".toUTF8)

/-- A run that deploys, replaces, deletes and deploys again under several spellings of one path, and
executes it by both engines. -/
def directiveCalls : List ServiceCall :=
  let run (token path : String) : ServiceCall :=
    .execute ⟨token, path, .empty, .empty, none, Request.nilId, 0⟩
  [.deploy "/a.toy" directiveContents.1,
    run "toy" "/a.toy", run "Other" "a.toy", run "Toy" "//a.toy",
    .deploy "a.toy" directiveContents.2, run "toy" "/a.toy", .delete "/./a.toy", run "toy" "/a.toy",
    .deploy "a.toy/" directiveContents.1, run "other" "/a.toy", run "toy" "/a.toy"]

/-- A new world with nothing in it. -/
def directiveWorld : World :=
  .new ⟨⟨.empty, []⟩, .empty, 0, 0⟩ (.memory .empty) .inMemory

/-- SHA-256 tells the contents of the run apart. -/
theorem distinguishable_directives :
    Distinguishable [directiveContents.1, directiveContents.2, directiveContents.1] := by
  have hne : Fingerprint.of directiveContents.1 ≠ Fingerprint.of directiveContents.2 := by
    decide +kernel
  intro a ha b hb hab
  have hcases : ∀ c ∈ [directiveContents.1, directiveContents.2, directiveContents.1],
      c = directiveContents.1 ∨ c = directiveContents.2 := by
    simp
  rcases hcases a ha with rfl | rfl <;> rcases hcases b hb with rfl | rfl
  · rfl
  · exact absurd hab hne
  · exact absurd hab.symm hne
  · rfl

/-- Two engines on one path answer the run as they do without a cache. -/
theorem directives_replies_eq_uncached :
    (directiveEngines.map (·.2.name)).Nodup ∧
    (∀ engine ∈ directiveEngines, engine.2.Reproducible) ∧
    Distinguishable (directiveCalls.filterMap ServiceCall.content?) ∧
    ∃ s u, ofEngines directiveWorld
        (directiveEngines.map fun engine => (engine.1, .compiled engine.2)) = .ok s ∧
      ofEngines directiveWorld
        (directiveEngines.map fun engine => (engine.1, .uncached engine.2)) = .ok u ∧
      (s.calls directiveCalls).1 = (u.calls directiveCalls).1 := by
  have hnames : (directiveEngines.map (·.2.name)).Nodup := by decide
  have hrepro : ∀ engine ∈ directiveEngines, engine.2.Reproducible := by
    intro engine hengine
    simp only [directiveEngines, List.mem_cons, List.not_mem_nil, or_false] at hengine
    rcases hengine with rfl | rfl <;> exact Compiler.directives_reproducible _
  obtain ⟨s, hs⟩ : ∃ s, ofEngines directiveWorld
      (directiveEngines.map fun engine => (engine.1, .compiled engine.2)) = .ok s := ⟨_, rfl⟩
  obtain ⟨u, hu, hreplies⟩ :=
    replies_eq_uncached hnames hrepro hs directiveCalls distinguishable_directives
  exact ⟨hnames, hrepro, distinguishable_directives, s, u, hs, hu, hreplies⟩

end Service

end ScriptHost
