import ScriptHost.Cache

/-!
# What a cached artifact stands for

`ArtifactCache.Sound` is the invariant of the artifact cache: whatever a slot holds for a compiler
and a path is what the compiler makes of some content that the path has had. `getOrCompile_spec`
says what follows for one request: where contents are told apart by their fingerprints, the artifact
handed out is the one that compiling the present content would give, and the cache stays sound.
-/

namespace ScriptHost

/-- What compiling a unit on a host gives. -/
def Compiler.outcome (c : Compiler) (unit : SourceUnit) (host : Host) : Except Report Artifact :=
  ((c.compile unit).run.run host).1

/-- What compiling the resource at a path afresh gives. -/
def Compiler.afresh (c : Compiler) (store : ResourceStore) (path : String) (host : Host) :
    Except Error Artifact :=
  match store.read host.view path with
  | .error fault => .error (.store fault)
  | .ok resource => (c.outcome (.ofResource resource) host).mapError (Error.compilation path)

/-- What running an artifact on a host gives. -/
def Artifact.outcome (a : Artifact) (request : Request) (host : Host) : Except Error Output :=
  ((a.invoke request).run.run host).1

/-- A compiler is reproducible when compiling depends on the unit only and stamps its fingerprint on
the artifact, and running an artifact depends on the artifact and the request only. -/
structure Compiler.Reproducible (c : Compiler) : Prop where
  compile_eq : ∀ unit h₁ h₂, c.outcome unit h₁ = c.outcome unit h₂
  fingerprint_eq : ∀ unit host artifact,
    c.outcome unit host = .ok artifact → artifact.fingerprint = unit.fingerprint
  invoke_eq : ∀ unit host artifact, c.outcome unit host = .ok artifact →
    ∀ request h₁ h₂, artifact.outcome request h₁ = artifact.outcome request h₂

/-- What a compiler gives afresh is what it makes of some unit. -/
theorem Compiler.outcome_of_afresh {c : Compiler} {store : ResourceStore} {path : String}
    {host : Host} {artifact : Artifact} (h : c.afresh store path host = .ok artifact) :
    ∃ unit, c.outcome unit host = .ok artifact := by
  rw [afresh] at h
  split at h
  · cases h
  · rename_i resource _
    refine ⟨.ofResource resource, ?_⟩
    cases houtcome : c.outcome (.ofResource resource) host with
    | error report =>
        rw [houtcome] at h
        cases h
    | ok made =>
        rw [houtcome] at h
        cases h
        rfl

/-- No two of some contents have the same fingerprint. -/
def Distinguishable (contents : List ByteArray) : Prop :=
  ∀ a ∈ contents, ∀ b ∈ contents, Fingerprint.of a = Fingerprint.of b → a = b

/-- A path text may be read as a resource with one of some contents only. -/
def ResourceStore.Reads (contents : List ByteArray) (path : String) (resource : Resource) : Prop :=
  ∃ key content, ResourceStore.key path = .ok key ∧ content ∈ contents ∧
    resource = .new key content

namespace ArtifactCache

/-- Whatever a slot holds is what the compilers of its name make of one of some contents at its
path. -/
def Sound (cache : ArtifactCache) (compilers : List Compiler) (contents : List ByteArray) : Prop :=
  ∀ slot ∈ cache.slots, ∀ held, slot.held = some held →
    ∀ c ∈ compilers, c.name = slot.compiler →
      ∃ resource host, ResourceStore.Reads contents slot.path resource ∧
        c.outcome (.ofResource resource) host = .ok held.artifact

variable {cache other : ArtifactCache} {compilers : List Compiler} {contents : List ByteArray}

theorem sound_empty : ArtifactCache.empty.Sound compilers contents := by
  intro slot hslot
  cases hslot

/-- A cache is sound if every slot of it that holds something is a slot of a sound cache. -/
theorem Sound.of_slots (h : cache.Sound compilers contents)
    (hslots : ∀ slot ∈ other.slots, slot.held ≠ none → slot ∈ cache.slots) :
    other.Sound compilers contents := by
  intro slot hslot held hheld
  exact h slot (hslots slot hslot (by simp [hheld])) held hheld

/-- Opening a slot keeps a cache sound. -/
theorem Sound.openSlot (h : cache.Sound compilers contents) (compiler path : String) :
    (cache.openSlot compiler path).Sound compilers contents := by
  refine h.of_slots fun slot hslot hheld => ?_
  rw [ArtifactCache.openSlot] at hslot
  split at hslot
  · exact hslot
  · rcases List.mem_append.mp hslot with hslot | hslot
    · exact hslot
    · rw [List.mem_singleton] at hslot
      subst hslot
      exact absurd rfl hheld

/-- Releasing a slot keeps a cache sound. -/
theorem Sound.release (h : cache.Sound compilers contents) (compiler path : String) :
    (cache.release compiler path).Sound compilers contents :=
  h.of_slots fun _ hslot _ => (List.mem_filter.mp hslot).1

/-- Dropping what was made from a path keeps a cache sound. -/
theorem Sound.invalidate (h : cache.Sound compilers contents) (path : String) :
    (cache.invalidate path).2.Sound compilers contents :=
  h.of_slots fun _ hslot _ => (List.mem_filter.mp hslot).1

/-- A slot after something was put into the slot of a compiler and a path is an old slot, or the
slot of that compiler and path with what was put into it. -/
theorem mem_hold {compiler path : String} {put : Option HeldArtifact} {slot : Slot}
    (h : slot ∈ (cache.hold compiler path put).slots) :
    slot ∈ cache.slots ∨ (slot.compiler = compiler ∧ slot.path = path ∧ slot.held = put) := by
  obtain ⟨old, hold, rfl⟩ := List.mem_map.mp h
  by_cases hfor : old.isFor compiler path = true
  · rw [if_pos hfor]
    rw [Slot.isFor, Bool.and_eq_true, beq_iff_eq, beq_iff_eq] at hfor
    exact .inr ⟨hfor.1, hfor.2, rfl⟩
  · rw [if_neg hfor]
    exact .inl hold

/-- Dropping an artifact after a failure keeps a cache sound. -/
theorem Sound.discard (h : cache.Sound compilers contents) (compiler path : String) :
    (cache.discard compiler path).Sound compilers contents := by
  refine h.of_slots fun slot hslot hheld => ?_
  rcases mem_hold hslot with hslot | ⟨_, _, hnone⟩
  · exact hslot
  · exact absurd hnone hheld

/-- Publishing what a compiler makes of a resource keeps a cache sound, if no other compiler has its
name. -/
theorem Sound.publish (h : cache.Sound compilers contents) {c : Compiler}
    (hunique : ∀ d ∈ compilers, d.name = c.name → d = c) {path : String} {resource : Resource}
    (hreads : ResourceStore.Reads contents path resource) {host : Host} {artifact : Artifact}
    (hartifact : c.outcome (.ofResource resource) host = .ok artifact) :
    (cache.publish c.name path artifact).2.Sound compilers contents := by
  intro slot hslot held hheld d hd hname
  rcases mem_hold hslot with hslot | ⟨hcompiler, hpath, hput⟩
  · exact h slot hslot held hheld d hd hname
  · obtain rfl : d = c := hunique d hd (hname.trans hcompiler)
    rw [hput, Option.some.injEq] at hheld
    subst hheld
    exact ⟨resource, host, hpath ▸ hreads, hartifact⟩

/-- An artifact that is up to date is what the compiler makes of the present content. -/
theorem Sound.fresh (h : cache.Sound compilers contents) {c : Compiler} (hc : c ∈ compilers)
    (hrepro : c.Reproducible) (hcontents : Distinguishable contents) {path : String}
    {resource : Resource} (hreads : ResourceStore.Reads contents path resource)
    {held : HeldArtifact} (hfresh : cache.fresh? c.name path resource.fingerprint = some held)
    (host : Host) : c.outcome (.ofResource resource) host = .ok held.artifact := by
  rw [fresh?, Option.filter_eq_some_iff, decide_eq_true_eq] at hfresh
  obtain ⟨hheld, hfingerprint⟩ := hfresh
  obtain ⟨slot, hslot, hheld⟩ := Option.bind_eq_some_iff.mp hheld
  have hfor := List.find?_some hslot
  rw [Slot.isFor, Bool.and_eq_true, beq_iff_eq, beq_iff_eq] at hfor
  obtain ⟨past, pastHost, ⟨key, content, hkey, hcontent, rfl⟩, hartifact⟩ :=
    h slot (List.mem_of_find?_eq_some hslot) held hheld c hc hfor.1.symm
  obtain ⟨presentKey, present, hpresentKey, hpresent, rfl⟩ := hreads
  -- One path text has one key, and one fingerprint has one content.
  obtain rfl : key = presentKey := by
    rw [hfor.2, hpresentKey] at hkey
    exact (Except.ok.inj hkey).symm
  have hstamp := hrepro.fingerprint_eq _ _ _ hartifact
  obtain rfl : content = present :=
    hcontents content hcontent present hpresent (hstamp.symm.trans hfingerprint)
  rw [hrepro.compile_eq _ host pastHost, hartifact]

/-- A request for an artifact gives what compiling the present content gives, or the fault of
reading it, and keeps a cache sound. -/
theorem getOrCompile_spec (h : cache.Sound compilers contents) {c : Compiler}
    (hc : c ∈ compilers) (hunique : ∀ d ∈ compilers, d.name = c.name → d = c)
    (hrepro : c.Reproducible) (hcontents : Distinguishable contents) (store : ResourceStore)
    (path : String) (host : Host)
    (hreads : ∀ resource, store.read host.view path = .ok resource →
      ResourceStore.Reads contents path resource) :
    (cache.getOrCompile store c path host).2.1.Sound compilers contents ∧
      (cache.getOrCompile store c path host).1.map (·.artifact) = c.afresh store path host := by
  have hopen := h.openSlot c.name path
  rw [getOrCompile, Compiler.afresh]
  cases hread : store.read host.view path with
  | error fault => exact ⟨hopen.release _ _, rfl⟩
  | ok resource =>
      have hpresent := hreads resource hread
      simp only []
      cases hfresh : (cache.openSlot c.name path).fresh? c.name path resource.fingerprint with
      | some held =>
          refine ⟨hopen.of_slots fun _ hslot _ => hslot, ?_⟩
          rw [hopen.fresh hc hrepro hcontents hpresent hfresh host]
          rfl
      | none =>
          -- Nothing is published unless compiling succeeds, and then what it gave.
          rcases hcompile : (c.compile (.ofResource resource)).run.run host with
            ⟨_ | artifact, after⟩
          · have houtcome : c.outcome (.ofResource resource) host = .error _ :=
              congrArg Prod.fst hcompile
            rw [houtcome]
            exact ⟨(hopen.discard _ _).release _ _, rfl⟩
          · have houtcome : c.outcome (.ofResource resource) host = .ok artifact :=
              congrArg Prod.fst hcompile
            rw [houtcome]
            exact ⟨hopen.publish hunique hpresent houtcome, rfl⟩

end ArtifactCache

end ScriptHost
