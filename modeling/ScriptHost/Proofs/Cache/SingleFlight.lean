import ScriptHost.Compiler.Command
import ScriptHost.Proofs.Cache.Transparency
import ScriptHost.Proofs.Cache.Wiring

/-!
# One compilation for all lookups

A period of a path is the time between two changes of the content there. `CacheSystem.Accounts` says
how the slot of a compiler and a path goes with the artifacts that were handed out in each period:
at most one in each, and the one of the present period, if there is one, is in the slot. A lookup
that has read the content therefore finds the artifact of its period, or nobody has been given one
yet. `Reachable.single_flight` puts this together with what `CacheSystem.Wired` says about slots and
locks.
-/

namespace ScriptHost

/-- A compiler stamps on every artifact the fingerprint of the unit that it was made from. -/
def Compiler.Stamps (compiler : Compiler) : Prop :=
  ∀ unit host artifact, compiler.outcome unit host = .ok artifact →
    artifact.fingerprint = unit.fingerprint

/-- A compiler of directives stamps its artifacts. -/
theorem Compiler.stamps_directives (name : String) : (directives name).Stamps :=
  (directives_reproducible name).fingerprint_eq

/-- Every value that a computation ends with has a property. -/
def Yields {ε α : Type} (P : α → Prop) (x : HostM ε α) : Prop :=
  ∀ host a, (x.run.run host).1 = .ok a → P a

theorem yields_bind {ε α β : Type} {P : β → Prop} {x : HostM ε α} {f : α → HostM ε β}
    (h : ∀ a, Yields P (f a)) : Yields P (x >>= f) := by
  intro host b hb
  rw [ExceptT.run_bind, StateT.run_bind] at hb
  rcases hx : x.run.run host with ⟨_ | a, after⟩
  · rw [hx] at hb
    cases hb
  · rw [hx] at hb
    exact h a after b hb

/-- A compiler that is a program stamps its artifacts. -/
theorem CommandCompiler.stamps (c : CommandCompiler) : c.toCompiler.Stamps := by
  intro unit
  show Yields (fun artifact => artifact.fingerprint = unit.fingerprint) (c.compile unit)
  have hend (report : Report) {artifact : Artifact} (h : artifact.fingerprint = unit.fingerprint) :
      Yields (fun artifact : Artifact => artifact.fingerprint = unit.fingerprint)
        (if report.hasErrors then throw report else return artifact : HostM Report Artifact) := by
    intro host made hmade
    split at hmade
    · cases hmade
    · cases hmade
      exact h
  refine yields_bind fun host => yields_bind fun _ => ?_
  split
  · exact yields_bind fun _ => yields_bind fun output => hend _ rfl
  · exact yields_bind fun output => hend _ rfl

/-- A resource that is read carries the fingerprint of its content. -/
theorem ResourceStore.fingerprint_of_read {store : ResourceStore} {view : FileView} {path : String}
    {resource : Resource} (h : store.read view path = .ok resource) :
    resource.fingerprint = .of resource.content := by
  rw [read] at h
  cases hkey : key path with
  | error fault =>
      rw [hkey] at h
      cases h
  | ok key =>
      simp only [hkey, bind, Except.bind] at h
      split at h <;> split at h <;> cases h <;> rfl

namespace Lookup

/-- Whether a lookup is compiling. -/
def isCompiling (l : Lookup) : Bool :=
  match l.stage with
  | .compiling .. => true
  | _ => false

/-- Whether a lookup has compiled its artifact. -/
def hasCompiled (l : Lookup) : Bool :=
  match l.stage with
  | .leaving _ (.compiled _) | .returned (.compiled _) => true
  | _ => false

/-- A lookup that compiles has locked its slot. -/
theorem locked_of_isCompiling {l : Lookup} (h : l.isCompiling) : ∃ slot, l.grip = .locked slot := by
  rw [isCompiling] at h
  split at h
  · rename_i slot resource hstage
    exact ⟨slot, congrArg Stage.grip hstage⟩
  · cases h

/-- What a lookup returns. -/
def result? (l : Lookup) : Option (Except Error HeldArtifact) :=
  match l.stage with
  | .leaving _ ending | .returned ending => some ending.result
  | _ => none

end Lookup

namespace SharedCache

/-- Whether a resource may have been read at a path in a period. -/
def Had (c : SharedCache) (path : String) (period : Nat) (resource : Resource) : Prop :=
  resource.fingerprint = .of resource.content ∧ period ≤ c.changes path ∧
    (period = c.changes path → c.contentAt? path = some resource.content.data)

/-- Whether contents may have changed, and every change has been counted. -/
def Later (c c' : SharedCache) : Prop :=
  ∀ path, c.changes path ≤ c'.changes path ∧
    (c'.changes path = c.changes path → c'.contentAt? path = c.contentAt? path)

variable {c c' : SharedCache} {path : String} {period : Nat} {resource : Resource}

theorem Later.refl (c : SharedCache) : c.Later c :=
  fun _ => ⟨Nat.le_refl _, fun _ => rfl⟩

theorem later_withContents (c : SharedCache) (store : ResourceStore) (host : Host) :
    c.Later (c.withContents store host) := by
  intro path
  simp only [withContents]
  split
  · rename_i hsame
    exact ⟨Nat.le_refl _, fun _ => hsame⟩
  · exact ⟨Nat.le_succ _, fun hcount => absurd hcount (Nat.succ_ne_self _)⟩

/-- What was read in a period stays what was read then. -/
theorem Had.later (h : c.Had path period resource) (hlater : c.Later c') :
    c'.Had path period resource := by
  obtain ⟨hfingerprint, hle, hcontent⟩ := h
  obtain ⟨hcount, hsame⟩ := hlater path
  refine ⟨hfingerprint, hle.trans hcount, fun hperiod => ?_⟩
  have hpresent : period = c.changes path := Nat.le_antisymm hle (hperiod ▸ hcount)
  rw [hsame (hperiod.symm.trans hpresent), hcontent hpresent]

/-- The resource that is read at a path is what is there. -/
theorem had_of_read (h : c.store.read c.host.view path = .ok resource) :
    c.Had path (c.changes path) resource :=
  ⟨ResourceStore.fingerprint_of_read h, Nat.le_refl _, fun _ => by rw [contentAt?, h]; rfl⟩

end SharedCache

namespace CacheSystem

/-- Whether the stage of a lookup goes with the artifacts that were given in each period: a lookup
that has read finds the artifact of its period in the slot, one that compiles is the first to get
one, and one that has ended well has been given the artifact of its period. -/
def Fits (c : SharedCache) (given : Nat → Option HeldArtifact) (l : Lookup) : Prop :=
  match l.stage with
  | .loaded slot resource =>
    ∃ period, l.period = some period ∧ c.Had l.path period resource ∧
      (∀ p held, given p = some held → p ≤ period) ∧
      ∀ held, given period = some held →
        c.entries slot = some held ∧ held.artifact.fingerprint = resource.fingerprint
  | .compiling _ resource =>
    ∃ period, l.period = some period ∧ c.Had l.path period resource ∧
      ∀ p held, given p = some held → p < period
  | .leaving _ ending | .returned ending =>
    ∀ held, ending.result = .ok held → ∃ period, l.period = some period ∧ given period = some held
  | .arrived | .waiting _ | .inside _ | .rejected .. => True

/-- Whether the lookups for a key and its slot go with the artifacts that were given in each
period. -/
structure Accounts (given : Nat → Option HeldArtifact) (key : String × String) (s : CacheSystem) :
    Prop where
  fits : ∀ l ∈ s.lookups, l.key = key → Fits s.cache given l
  once : ∀ period,
    s.lookups.countP (fun l => l.key = key ∧ l.period = some period ∧ l.hasCompiled) ≤
      (given period).isSome.toNat
  past : ∀ period held, given period = some held → period ≤ s.cache.changes key.2
  current : ∀ held, given (s.cache.changes key.2) = some held →
    ∃ slot content, s.cache.slots key = some slot ∧ s.cache.entries slot = some held ∧
      s.cache.contentAt? key.2 = some content.data ∧ held.artifact.fingerprint = .of content

variable {c c' : SharedCache} {l l' m : Lookup} {lookups others : Multiset Lookup} {slot : Nat}
  {given given' : Nat → Option HeldArtifact} {key : String × String}

/-- A lookup keeps fitting while nobody touches the slot that it has locked. -/
theorem Fits.later (h : Fits c given m) (hlater : c.Later c')
    (hentries : ∀ slot, m.grip = .locked slot → c'.entries slot = c.entries slot) :
    Fits c' given m := by
  rw [Lookup.grip] at hentries
  rw [Fits] at h ⊢
  split at h
  · obtain ⟨period, hperiod, hhad, hlast, hheld⟩ := h
    rename_i hstage
    refine ⟨period, hperiod, hhad.later hlater, hlast, ?_⟩
    rwa [hentries _ (by rw [hstage]; rfl)]
  · obtain ⟨period, hperiod, hhad, hfirst⟩ := h
    exact ⟨period, hperiod, hhad.later hlater, hfirst⟩
  · exact h
  · exact h
  all_goals trivial

/-- A lookup without a lock keeps fitting when another artifact is given. -/
theorem Fits.of_unlocked (h : Fits c given m) (hfree : ∀ slot, m.grip ≠ .locked slot)
    (hgiven : ∀ p held, given p = some held → given' p = some held) : Fits c' given' m := by
  rw [Lookup.grip] at hfree
  rw [Fits] at h ⊢
  split at h
  · rename_i hstage
    exact absurd (congrArg Stage.grip hstage) (hfree _)
  · rename_i hstage
    exact absurd (congrArg Stage.grip hstage) (hfree _)
  · intro held hheld
    obtain ⟨period, hperiod, hold⟩ := h held hheld
    exact ⟨period, hperiod, hgiven _ _ hold⟩
  · intro held hheld
    obtain ⟨period, hperiod, hold⟩ := h held hheld
    exact ⟨period, hperiod, hgiven _ _ hold⟩
  all_goals trivial

/-- What a lookup returns is what was given in its period. -/
theorem Fits.given_eq (h : Fits c given l) {held : HeldArtifact}
    (hresult : l.result? = some (.ok held)) {period : Nat} (hperiod : l.period = some period) :
    given period = some held := by
  have hanswer : ∃ p, l.period = some p ∧ given p = some held := by
    rw [Lookup.result?] at hresult
    rw [Fits] at h
    cases hstage : l.stage with
    | leaving slot ending | returned ending =>
        rw [hstage] at h hresult
        exact h held (Option.some.inj hresult)
    | _ =>
        rw [hstage] at hresult
        cases hresult
  obtain ⟨p, hp, hgiven⟩ := hanswer
  rwa [Option.some.inj (hperiod.symm.trans hp)]

/-- Accounts stay right while the slot of their key stays in the map with what is in it, whatever
happens to the contents. -/
theorem Accounts.later (h : Accounts given key ⟨c, lookups⟩) (hw : Wired ⟨c, lookups⟩)
    (hlater : c.Later c') (hslots : ∀ slot, c.slots key = some slot →
      c'.slots key = some slot ∧ c'.entries slot = c.entries slot) :
    Accounts given key ⟨c', lookups⟩ := by
  obtain ⟨hcount, hsame⟩ := hlater key.2
  refine ⟨fun l hl hkey => ?_, h.once, fun period held hheld => ?_, fun held hheld => ?_⟩
  · refine (h.fits l hl hkey).later hlater fun slot hslot => ?_
    exact (hslots slot (hkey ▸ hw.bound l hl slot (.inr hslot))).2
  · exact (h.past period held hheld).trans hcount
  · have hpresent := Nat.le_antisymm (h.past _ _ hheld) hcount
    rw [hpresent] at hheld
    obtain ⟨slot, content, hslot, hentry, hcontent, hfingerprint⟩ := h.current held hheld
    obtain ⟨hslot', hentry'⟩ := hslots slot hslot
    exact ⟨slot, content, hslot', hentry'.trans hentry, (hsame hpresent).trans hcontent,
      hfingerprint⟩

/-- Accounts stay right over a step that leaves the slot of their key as it is, and in which nothing
is compiled for their key. -/
theorem Accounts.move (h : Accounts given key ⟨c, l ::ₘ others⟩) (hw : Wired ⟨c, l ::ₘ others⟩)
    (hlater : c.Later c') (hslots : ∀ slot, c.slots key = some slot →
      c'.slots key = some slot ∧ c'.entries slot = c.entries slot)
    (hkey : l'.key = l.key) (hfits : l.key = key → Fits c' given l → Fits c' given l')
    (hcompiled : l.key = key → l'.hasCompiled → l.hasCompiled ∧ l.period = l'.period) :
    Accounts given key ⟨c', l' ::ₘ others⟩ := by
  obtain ⟨hlookups, honce, hpast, hcurrent⟩ := h.later hw hlater hslots
  rw [Multiset.forall_mem_cons] at hlookups
  refine ⟨Multiset.forall_mem_cons.mpr ⟨fun hl' => ?_, hlookups.2⟩, fun period => ?_, hpast,
    hcurrent⟩
  · have hl := hkey ▸ hl'
    exact hfits hl (hlookups.1 hl)
  · refine Nat.le_trans ?_ (honce period)
    simp only [Multiset.countP_cons]
    refine Nat.add_le_add_left ?_ _
    split
    · rename_i hcounted
      obtain ⟨hl', hperiod, hdone⟩ := hcounted
      have hl := hkey ▸ hl'
      obtain ⟨hold, hsame⟩ := hcompiled hl hdone
      rw [if_pos ⟨hl, hsame.trans hperiod, hold⟩]
    · exact Nat.zero_le _

/-- While a lookup has the lock of the slot of a key, no other lookup for the key has a lock. -/
theorem Wired.free_of_locked (hw : Wired ⟨c, l ::ₘ others⟩) (hl : l.grip = .locked slot)
    (hm : m ∈ others) (hkey : m.key = l.key) : ∀ i, m.grip ≠ .locked i := by
  intro i hi
  have hslot := hw.bound l (Multiset.mem_cons_self l others) slot (.inr hl)
  have hother := hw.bound m (Multiset.mem_cons_of_mem hm) i (.inr hi)
  rw [hkey, hslot] at hother
  obtain rfl := Option.some.inj hother
  exact hw.lock_alone hl m hm hi

/-- At most one lookup for a key is compiling. -/
theorem Wired.countP_compiling_le (hw : Wired ⟨c, lookups⟩) (key : String × String) :
    lookups.countP (fun l => l.key = key ∧ l.isCompiling) ≤ 1 := by
  by_cases hex : ∃ l ∈ lookups, l.key = key ∧ l.isCompiling
  · obtain ⟨l, hl, hcompiling⟩ := hex
    obtain ⟨others, rfl⟩ := Multiset.exists_cons_of_mem hl
    obtain ⟨slot, hslot⟩ := Lookup.locked_of_isCompiling hcompiling.2
    have hothers : others.countP (fun m => m.key = key ∧ m.isCompiling) = 0 := by
      refine Multiset.countP_eq_zero.mpr fun m hm hother => ?_
      obtain ⟨i, hi⟩ := Lookup.locked_of_isCompiling hother.2
      exact hw.free_of_locked hslot hm (hother.1.trans hcompiling.1.symm) i hi
    rw [Multiset.countP_cons, hothers, if_pos hcompiling]
  · rw [Multiset.countP_eq_zero.mpr fun l hl hcompiling => hex ⟨l, hl, hcompiling⟩]
    exact Nat.zero_le _

/-- What was given before is still given when an artifact is given in a period in which no other one
was given. -/
theorem given_update {period : Nat} {held : HeldArtifact}
    (hsame : ∀ other, given period = some other → other = held) (p : Nat) (other : HeldArtifact)
    (hother : given p = some other) : Function.update given period (some held) p = some other := by
  rw [Function.update_apply]
  split
  · rename_i heq
    rw [hsame other (heq ▸ hother)]
  · exact hother

/-- In every period at most one lookup has compiled what was given, also when another artifact is
given, if the lookup that gets it has compiled it only where none was given before. -/
theorem once_update {period : Nat} {held : HeldArtifact}
    (honce : ∀ p, (l ::ₘ others).countP
      (fun m => m.key = key ∧ m.period = some p ∧ m.hasCompiled) ≤ (given p).isSome.toNat)
    (hperiod : l'.period = some period) (hcompiled : l'.hasCompiled → given period = none)
    (p : Nat) :
    (l' ::ₘ others).countP (fun m => m.key = key ∧ m.period = some p ∧ m.hasCompiled) ≤
      (Function.update given period (some held) p).isSome.toNat := by
  -- the other lookups are counted as before
  have hothers : others.countP (fun m => m.key = key ∧ m.period = some p ∧ m.hasCompiled) ≤
      (given p).isSome.toNat :=
    (Multiset.countP_le_of_le _ (Multiset.le_cons_self others l)).trans (honce p)
  rw [Multiset.countP_cons]
  by_cases hp : p = period
  · subst hp
    rw [Function.update_self, Option.isSome_some, Bool.toNat_true]
    split
    · rename_i hcounted
      rw [hcompiled hcounted.2.2] at hothers
      exact Nat.add_le_add_right hothers 1
    · exact hothers.trans (Bool.toNat_le _)
  · have hnot : ¬ (l'.key = key ∧ l'.period = some p ∧ l'.hasCompiled) :=
      fun hcounted => hp (Option.some.inj (hcounted.2.1.symm.trans hperiod))
    rwa [if_neg hnot, Function.update_of_ne hp]

/-- A lookup that has read in a period is given an artifact of that content, and the artifact is in
the slot. No other artifact has been given in the period, and none at all if the lookup has compiled
this one. -/
theorem Accounts.answer (h : Accounts given key ⟨c, l ::ₘ others⟩) (hw : Wired ⟨c, l ::ₘ others⟩)
    (hkey : l.key = key) (hl : l.grip = .locked slot) {period : Nat} {resource : Resource}
    (hhad : c.Had l.path period resource) (hlast : ∀ p held, given p = some held → p ≤ period)
    {held : HeldArtifact} (hsame : ∀ other, given period = some other → other = held)
    (hfingerprint : held.artifact.fingerprint = resource.fingerprint)
    (hlater : c.Later c') (hslots : c'.slots = c.slots) (hentry : c'.entries slot = some held)
    (hperiod : l'.period = some period)
    (hfits : Fits c' (Function.update given period (some held)) l')
    (hcompiled : l'.hasCompiled → given period = none) :
    ∃ given', Accounts given' key ⟨c', l' ::ₘ others⟩ := by
  obtain ⟨hresource, hle, hcontent⟩ := hhad
  obtain ⟨hcount, hcontents⟩ := hlater key.2
  have hpath : l.path = key.2 := congrArg Prod.snd hkey
  rw [hpath] at hle hcontent
  refine ⟨Function.update given period (some held), ?_, once_update h.once hperiod hcompiled,
    fun p other hother => ?_, fun other hother => ?_⟩
  · refine Multiset.forall_mem_cons.mpr ⟨fun _ => hfits, fun m hm hmkey => ?_⟩
    have hfree := hw.free_of_locked hl hm (hmkey.trans hkey.symm)
    exact (h.fits m (Multiset.mem_cons_of_mem hm) hmkey).of_unlocked hfree (given_update hsame)
  · rw [Function.update_apply] at hother
    split at hother
    · rename_i heq
      exact heq ▸ hle.trans hcount
    · exact (h.past p other hother).trans hcount
  · -- what is given in the present period is the artifact in the slot
    rw [Function.update_apply] at hother
    split at hother
    · rename_i heq
      obtain rfl := Option.some.inj hother
      have hpresent : c.changes key.2 = c'.changes key.2 :=
        Nat.le_antisymm hcount (heq ▸ hle)
      refine ⟨slot, resource.content, ?_, hentry, ?_, ?_⟩
      · rw [hslots, ← hkey]
        exact hw.bound l (Multiset.mem_cons_self l others) slot (.inr hl)
      · rw [hcontents hpresent.symm]
        exact hcontent (heq.symm.trans hpresent.symm)
      · rw [hfingerprint, hresource]
    · rename_i hne
      have hlast' := hlast _ _ hother
      exact absurd (Nat.le_antisymm hlast' (hle.trans hcount)) hne

/-- A lookup that has read finds the artifact of its period in the slot. -/
theorem Accounts.fits_reading (h : Accounts given key ⟨c, l ::ₘ others⟩)
    (hw : Wired ⟨c, l ::ₘ others⟩) (hkey : l.key = key) (hl : l.grip = .locked slot)
    {resource : Resource} (hreads : c.store.read c.host.view l.path = .ok resource) :
    Fits c given (l.reading (c.changes l.path) (.loaded slot resource)) := by
  have hhad := SharedCache.had_of_read hreads
  have hpath : l.path = key.2 := congrArg Prod.snd hkey
  have hslot := hw.bound l (Multiset.mem_cons_self l others) slot (.inr hl)
  refine ⟨c.changes l.path, rfl, hhad, fun p held hheld => hpath ▸ h.past p held hheld,
    fun held hheld => ?_⟩
  rw [hpath] at hheld
  obtain ⟨other, content, hother, hentry, hcontent, hfingerprint⟩ := h.current held hheld
  rw [← hkey, hslot] at hother
  obtain rfl := Option.some.inj hother
  have hpresent := hhad.2.2 rfl
  rw [hpath, hcontent] at hpresent
  refine ⟨hentry, ?_⟩
  rw [hfingerprint, hhad.1, ByteArray.ext (Option.some.inj hpresent)]

/-- A lookup that does not find what it needs is the first of its period. -/
theorem Fits.miss (h : Fits c given l) {resource : Resource}
    (hloaded : l.stage = .loaded slot resource) (hstale : ∀ held, c.entries slot = some held →
      held.artifact.fingerprint ≠ resource.fingerprint) :
    Fits c given (l.withStage (.compiling slot resource)) := by
  rw [Fits, hloaded] at h
  obtain ⟨period, hperiod, hhad, hlast, hheld⟩ := h
  refine ⟨period, hperiod, hhad, fun p held hp => Nat.lt_of_le_of_ne (hlast p held hp) ?_⟩
  rintro rfl
  obtain ⟨hentry, hfingerprint⟩ := hheld held hp
  exact hstale held hentry hfingerprint

/-- A lookup that finds what it needs is given the artifact in the slot. -/
theorem Accounts.hit (h : Accounts given key ⟨c, l ::ₘ others⟩) (hw : Wired ⟨c, l ::ₘ others⟩)
    (hkey : l.key = key) {resource : Resource} {held : HeldArtifact}
    (hloaded : l.stage = .loaded slot resource) (hentry : c.entries slot = some held)
    (hfresh : held.artifact.fingerprint = resource.fingerprint) :
    ∃ given', Accounts given' key
      ⟨{ c.unlock slot with hits := c.hits + 1 },
        l.withStage (.leaving slot (.hit held)) ::ₘ others⟩ := by
  have hfits := h.fits l (Multiset.mem_cons_self l others) hkey
  rw [Fits, hloaded] at hfits
  obtain ⟨period, hperiod, hhad, hlast, hheld⟩ := hfits
  have hsame : ∀ other, given period = some other → other = held :=
    fun other hother => Option.some.inj ((hheld other hother).1.symm.trans hentry)
  refine h.answer hw hkey (congrArg Stage.grip hloaded) hhad hlast hsame hfresh (.refl c) rfl hentry
    hperiod ?_ nofun
  intro other hother
  obtain rfl := Except.ok.inj hother
  exact ⟨period, hperiod, Function.update_self ..⟩

/-- A lookup that has compiled is given its artifact. -/
theorem Accounts.publish (h : Accounts given key ⟨c, l ::ₘ others⟩)
    (hw : Wired ⟨c, l ::ₘ others⟩) (hkey : l.key = key) {resource : Resource}
    (hcompiling : l.stage = .compiling slot resource) {held : HeldArtifact}
    (hstamp : held.artifact.fingerprint = resource.fingerprint) (hlater : c.Later c')
    (hslots : c'.slots = c.slots) (hentry : c'.entries slot = some held) :
    ∃ given', Accounts given' key
      ⟨c', l.withStage (.leaving slot (.compiled held)) ::ₘ others⟩ := by
  have hfits := h.fits l (Multiset.mem_cons_self l others) hkey
  rw [Fits, hcompiling] at hfits
  obtain ⟨period, hperiod, hhad, hfirst⟩ := hfits
  have hnone : given period = none :=
    Option.eq_none_iff_forall_ne_some.mpr fun held hheld =>
      Nat.lt_irrefl _ (hfirst period held hheld)
  have hsame : ∀ other, given period = some other → other = held :=
    fun other hother => nomatch hnone.symm.trans hother
  refine h.answer hw hkey (congrArg Stage.grip hcompiling) hhad
    (fun p held hp => Nat.le_of_lt (hfirst p held hp)) hsame hstamp hlater hslots hentry hperiod ?_
    fun _ => hnone
  intro other hother
  obtain rfl := Except.ok.inj hother
  exact ⟨period, hperiod, Function.update_self ..⟩

/-- A lookup that has failed to compile empties the slot. Nobody has been given an artifact in its
period or after it. -/
theorem Accounts.discard (h : Accounts given key ⟨c, l ::ₘ others⟩) (hw : Wired ⟨c, l ::ₘ others⟩)
    (hkey : l.key = key) {resource : Resource} (hcompiling : l.stage = .compiling slot resource)
    (hlater : c.Later c') {error : Error}
    (hrejected : l'.stage = .rejected slot error) :
    Accounts given key ⟨c', l' ::ₘ others⟩ := by
  have hlookups := Multiset.forall_mem_cons.mp h.fits
  have hfits := hlookups.1 hkey
  rw [Fits, hcompiling] at hfits
  obtain ⟨period, -, ⟨-, hle, -⟩, hfirst⟩ := hfits
  have hcount := (hlater key.2).1
  have hpath : l.path = key.2 := congrArg Prod.snd hkey
  rw [hpath] at hle
  refine ⟨?_, ?_, fun p held hheld => (h.past p held hheld).trans hcount, fun held hheld => ?_⟩
  · refine Multiset.forall_mem_cons.mpr ⟨fun _ => by rw [Fits, hrejected]; trivial, ?_⟩
    intro m hm hmkey
    have hfree := hw.free_of_locked (congrArg Stage.grip hcompiling) hm (hmkey.trans hkey.symm)
    exact (hlookups.2 m hm hmkey).of_unlocked hfree fun _ _ hheld => hheld
  · intro p
    have honce := h.once p
    have hnot : l'.hasCompiled = false := by rw [Lookup.hasCompiled, hrejected]
    simp only [Multiset.countP_cons, hnot] at honce ⊢
    simp only [Bool.false_eq_true, and_false, if_false]
    omega
  · -- all that was given was given before the period of the lookup, which is not after the present
    exact absurd (hfirst _ _ hheld) (Nat.not_lt.mpr (hle.trans hcount))

/-- A slot that is taken out of the map had nothing in it. -/
theorem Accounts.unlink (h : Accounts given key ⟨c, lookups⟩) (hunused : c.Unused key slot) :
    Accounts given key ⟨(c.unlink key).drop slot, lookups⟩ := by
  refine ⟨h.fits, h.once, h.past, fun held hheld => ?_⟩
  obtain ⟨other, -, hslot, hentry, -⟩ := h.current held hheld
  obtain ⟨hslot', -, -, hnone⟩ := hunused
  rw [hslot'] at hslot
  obtain rfl := Option.some.inj hslot
  rw [hnone] at hentry
  cases hentry

/-- A step of a lookup for another key. -/
theorem Accounts.foreign (h : Accounts given key ⟨c, l ::ₘ others⟩)
    (hw : Wired ⟨c, l ::ₘ others⟩) (hkey : l.key ≠ key) (step : Advances c l c' l') :
    Accounts given key ⟨c', l' ::ₘ others⟩ := by
  -- a slot that the lookup has locked is not the slot of this key
  have hlocked : ∀ slot, l.grip = .locked slot → ∀ i, c.slots key = some i → i ≠ slot := by
    intro slot hl i hi heq
    have hslot := hw.bound l (Multiset.mem_cons_self l others) slot (.inr hl)
    exact hkey (hw.distinct _ _ _ hslot (heq ▸ hi))
  have hmove : ∀ {c' l'}, c.Later c' → (∀ slot, c.slots key = some slot →
      c'.slots key = some slot ∧ c'.entries slot = c.entries slot) → l'.key = l.key →
        Accounts given key ⟨c', l' ::ₘ others⟩ := fun hlater hslots hl' =>
    h.move hw hlater hslots hl' (fun hl => absurd hl hkey) fun hl => absurd hl hkey
  cases step with
  | create =>
      refine hmove (.refl c) (fun slot hslot => ?_) rfl
      have hne : slot ≠ c.fresh := Nat.ne_of_lt (hw.slots_lt key slot hslot)
      simp [SharedCache.create, Ne.symm hkey, hne, hslot]
  | publish compiling | discard compiling =>
      refine hmove (c.later_withContents c.store _) (fun slot hslot => ⟨hslot, ?_⟩) rfl
      exact Function.update_of_ne (hlocked _ (congrArg Stage.grip compiling) slot hslot) _ _
  | release =>
      refine hmove (.refl c) (fun slot hslot => ⟨?_, rfl⟩) rfl
      exact (Function.update_of_ne (Ne.symm hkey) _ _).trans hslot
  | _ => exact hmove (.refl c) (fun _ hslot => ⟨hslot, rfl⟩) rfl

/-- A step of a lookup for the key. -/
theorem Accounts.own (h : Accounts given key ⟨c, l ::ₘ others⟩) (hw : Wired ⟨c, l ::ₘ others⟩)
    (hkey : l.key = key) (hstamps : l.compiler.Stamps) (step : Advances c l c' l') :
    ∃ given', Accounts given' key ⟨c', l' ::ₘ others⟩ := by
  have hkeep : ∀ slot, c.slots key = some slot →
      c.slots key = some slot ∧ c.entries slot = c.entries slot := fun _ hslot => ⟨hslot, rfl⟩
  cases step with
  | clone | acquire | misread =>
      exact ⟨given, h.move hw (.refl c) hkeep rfl (fun _ _ => trivial) nofun⟩
  | create arrived missing =>
      refine ⟨given, h.move hw (.refl c) (fun slot hslot => ?_) rfl (fun _ _ => trivial) nofun⟩
      rw [← hkey, missing] at hslot
      cases hslot
  | read inside reads =>
      refine ⟨given, h.move hw (.refl c) hkeep rfl (fun _ _ => ?_) nofun⟩
      exact h.fits_reading hw hkey (congrArg Stage.grip inside) reads
  | hit loaded entry fresh => exact h.hit hw hkey loaded entry fresh
  | miss loaded stale =>
      exact ⟨given, h.move hw (.refl c) hkeep rfl (fun _ hfits => hfits.miss loaded stale) nofun⟩
  | publish compiling succeeds =>
      have hstamp := hstamps _ c.host _ (congrArg Prod.fst succeeds)
      exact h.publish hw hkey compiling hstamp (c.later_withContents c.store _) rfl
        (Function.update_self ..)
  | discard compiling =>
      exact ⟨given, h.discard hw hkey compiling (c.later_withContents c.store _) rfl⟩
  | release rejected unused =>
      subst hkey
      have hgrip := congrArg Stage.grip rejected
      exact ⟨given, (h.unlink unused).move (hw.release hgrip hgrip unused) (.refl _)
        (fun _ hslot => ⟨hslot, rfl⟩) rfl (fun _ _ => nofun) nofun⟩
  | keep =>
      exact ⟨given, h.move hw (.refl c) hkeep rfl (fun _ _ => nofun) nofun⟩
  | @drop slot ending leaving =>
      refine ⟨given, h.move hw (.refl c) hkeep rfl (fun _ hfits => ?_) fun _ hdone => ⟨?_, rfl⟩⟩
      · rw [Fits, leaving] at hfits
        exact hfits
      · rw [Lookup.hasCompiled, leaving]
        cases ending with
        | compiled => rfl
        | hit | failed => exact hdone

/-- Before anything has been asked for, nothing has been given. -/
theorem Accounts.start (store : ResourceStore) (host : Host) (key : String × String) :
    Accounts (fun _ => none) key (.start store host) where
  fits _ h := absurd h (Multiset.notMem_zero _)
  once _ := Nat.le_refl _
  past _ _ := nofun
  current _ := nofun

/-- A step of the system. -/
theorem Accounts.step {compilers : Set Compiler} {s s' : CacheSystem} (h : Accounts given key s)
    (hw : Wired s) (hstamps : ∀ l ∈ s.lookups, l.key = key → l.compiler.Stamps)
    (step : Step compilers s s') : ∃ given', Accounts given' key s' := by
  cases step with
  | arrive =>
      refine ⟨given, ?_, fun period => ?_, h.past, h.current⟩
      · exact Multiset.forall_mem_cons.mpr ⟨fun _ => trivial, h.fits⟩
      · have honce := h.once period
        simpa [Multiset.countP_cons, Lookup.new] using honce
  | @advance c c' l l' others step =>
      by_cases hkey : l.key = key
      · have hstamp := hstamps l (Multiset.mem_cons_self l others) hkey
        exact h.own hw hkey hstamp step
      · exact ⟨given, h.foreign hw hkey step⟩
  | write | delete =>
      exact ⟨given, h.later hw (SharedCache.later_withContents _ _ _) fun _ hslot => ⟨hslot, rfl⟩⟩

section Reachable

variable {compilers : Set Compiler} {s : CacheSystem}

/-- Lookups use the compilers that requests use. -/
theorem Reachable.known (h : Reachable compilers s) : ∀ l ∈ s.lookups, l.compiler ∈ compilers := by
  induction h with
  | start => exact fun _ h => absurd h (Multiset.notMem_zero _)
  | step _ step ih =>
      cases step with
      | arrive known => exact Multiset.forall_mem_cons.mpr ⟨known, ih⟩
      | advance others step =>
          rw [Multiset.forall_mem_cons] at ih ⊢
          refine ⟨?_, ih.2⟩
          cases step <;> exact ih.1
      | write | delete => exact ih

/-- Whatever lookups do, the accounts of a key can be kept. -/
theorem Reachable.accounts (h : Reachable compilers s) (key : String × String)
    (hstamps : ∀ compiler ∈ compilers, compiler.name = key.1 → compiler.Stamps) :
    ∃ given, Accounts given key s := by
  induction h with
  | start store host => exact ⟨_, Accounts.start store host key⟩
  | step reached step ih =>
      obtain ⟨given, hgiven⟩ := ih
      refine hgiven.step reached.wired (fun l hl hkey => ?_) step
      exact hstamps l.compiler (reached.known l hl) (congrArg Prod.fst hkey)

/-- Any number of lookups run at the same time, while resources are written and deleted. For every
compiler name and path:

* the lookups for them that have cloned a slot and not unlocked it have the slot that is in the map;
* at most one of them is compiling;
* of those that have read the content in the same period, at most one compiles an artifact, and all
  that return an artifact return the same one. -/
theorem Reachable.single_flight (h : Reachable compilers s) (name path : String) :
    (∀ l ∈ s.lookups, l.key = (name, path) →
      ∀ slot, l.grip = .waiting slot ∨ l.grip = .locked slot →
        s.cache.slots (name, path) = some slot) ∧
    s.lookups.countP (fun l => l.key = (name, path) ∧ l.isCompiling) ≤ 1 ∧
    ((∀ compiler ∈ compilers, compiler.name = name → compiler.Stamps) → ∀ period,
      s.lookups.countP
        (fun l => l.key = (name, path) ∧ l.period = some period ∧ l.hasCompiled) ≤ 1 ∧
      ∀ l ∈ s.lookups, ∀ m ∈ s.lookups, l.key = (name, path) → m.key = (name, path) →
        l.period = some period → m.period = some period →
          ∀ a b, l.result? = some (.ok a) → m.result? = some (.ok b) → a = b) := by
  have hw := h.wired
  refine ⟨fun l hl hkey => hkey ▸ hw.bound l hl, hw.countP_compiling_le _, fun hstamps period => ?_⟩
  obtain ⟨given, haccounts⟩ := h.accounts (name, path) hstamps
  refine ⟨(haccounts.once period).trans (Bool.toNat_le _), ?_⟩
  intro l hl m hm hlkey hmkey hlperiod hmperiod a b ha hb
  have hla := (haccounts.fits l hl hlkey).given_eq ha hlperiod
  have hmb := (haccounts.fits m hm hmkey).given_eq hb hmperiod
  exact Option.some.inj (hla.symm.trans hmb)

end Reachable

/-- A store with one resource. -/
def toyStore : ResourceStore :=
  .memory (Std.TreeMap.empty.insert "/a.toy" "OUT a".toUTF8)

/-- The resource in the store. -/
def toyResource : Resource :=
  .new "/a.toy" "OUT a".toUTF8

/-- A host without files. -/
def toyHost : Host :=
  ⟨⟨.empty, []⟩, .empty, 0, 0⟩

/-- A lookup that waits for another one to compile returns the artifact of the other. -/
theorem directives_single_flight :
    let toy := Compiler.directives "toy"
    ∃ s, Reachable {toy} s ∧ ∃ l ∈ s.lookups, ∃ m ∈ s.lookups, l.hasCompiled ∧ ¬ m.hasCompiled ∧
      ∃ held, l.result? = some (.ok held) ∧ m.result? = some (.ok held) := by
  intro toy
  have htoy : toy ∈ ({toy} : Set Compiler) := rfl
  have hstamps : ∀ compiler ∈ ({toy} : Set Compiler), compiler.name = "toy" → compiler.Stamps :=
    fun compiler hcompiler _ => hcompiler ▸ Compiler.stamps_directives "toy"
  have hread : toyStore.read toyHost.view "/a.toy" = .ok toyResource := rfl
  obtain ⟨artifact, hcompile⟩ : ∃ artifact,
      (toy.compile (.ofResource toyResource)).run.run toyHost = (.ok artifact, toyHost) := ⟨_, rfl⟩
  have hstamp : artifact.fingerprint = toyResource.fingerprint :=
    hstamps toy htoy rfl _ toyHost artifact (congrArg Prod.fst hcompile)
  have hstart : Reachable {toy} (.start toyStore toyHost) := .start toyStore toyHost
  have harrived := (hstart.step (.arrive htoy "/a.toy")).step (.arrive htoy "/a.toy")
  have hwaiting := harrived.step (.advance _ (.create rfl rfl))
  rw [Multiset.cons_swap] at hwaiting
  have hboth := hwaiting.step (.advance _ (.clone rfl rfl))
  have hcompiling := ((hboth.step (.advance _ (.acquire rfl rfl))).step
    (.advance _ (.read rfl hread))).step (.advance _ (.miss rfl nofun))
  have hcompiled := hcompiling.step (.advance _ (.publish rfl hcompile))
  rw [Multiset.cons_swap] at hcompiled
  have hhit := ((hcompiled.step (.advance _ (.acquire rfl rfl))).step
    (.advance _ (.read rfl hread))).step (.advance _ (.hit rfl rfl hstamp))
  obtain ⟨s, hs, l, m, hlookups, hlkey, hmkey, hlperiod, hmperiod, hldone, hmdone, a, b, ha, hb⟩ :
      ∃ s, Reachable {toy} s ∧ ∃ l m, s.lookups = m ::ₘ l ::ₘ 0 ∧ l.key = ("toy", "/a.toy") ∧
        m.key = ("toy", "/a.toy") ∧ l.period = some 0 ∧ m.period = some 0 ∧ l.hasCompiled = true ∧
          m.hasCompiled = false ∧ ∃ a b, l.result? = some (.ok a) ∧ m.result? = some (.ok b) := by
    refine ⟨_, hhit, _, _, rfl, rfl, rfl, rfl, ?_, rfl, rfl, _, _, rfl, rfl⟩
    -- compiling has not changed the host, so the content is the same as before
    simp [Lookup.withStage, Lookup.reading, SharedCache.withContents, SharedCache.contentAt?,
      SharedCache.put, SharedCache.unlock, SharedCache.lock, SharedCache.clone, SharedCache.create,
      SharedCache.empty]
  have hl : l ∈ s.lookups := hlookups ▸ Multiset.mem_cons_of_mem (Multiset.mem_cons_self l 0)
  have hm : m ∈ s.lookups := hlookups ▸ Multiset.mem_cons_self m _
  obtain ⟨-, -, hflight⟩ := hs.single_flight "toy" "/a.toy"
  obtain rfl := (hflight hstamps 0).2 l hl m hm hlkey hmkey hlperiod hmperiod a b ha hb
  exact ⟨s, hs, l, hl, m, hm, hldone, by simp [hmdone], a, ha, hb⟩

end CacheSystem

end ScriptHost
