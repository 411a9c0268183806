import Mathlib.Data.Multiset.AddSub
import Mathlib.Logic.Relation
import ScriptHost.Compiler.Directives
import ScriptHost.Proofs.Cache.Wiring

/-!
# Slots that are left behind

A lookup that fails takes its slot out of the map if nothing is in it and nobody else has a handle
on it. It keeps its own handle until it returns, and so does every other lookup. When two of them
have failed and the second one looks before the first one has dropped its handle, each counts the
handle of the other, and an empty slot stays in the map for good: `CacheSystem.Strands` is the step
of the second one. `Reachable.leftover` says that this is the only way in which a slot is left behind.
-/

namespace ScriptHost

/-- The slot that a lookup at a stage has still to see to: it may put something into it, and if
it fails it will look whether the slot can go. -/
def Stage.attended? : Stage → Option Nat
  | waiting slot | inside slot | loaded slot _ | compiling slot _ | rejected slot _ => some slot
  | arrived | leaving .. | returned _ => none

namespace Lookup

/-- Whether a lookup has still to see to a slot. -/
def Attends (l : Lookup) (slot : Nat) : Prop :=
  l.stage.attended? = some slot

/-- Whether a lookup has returned. -/
def IsOver (l : Lookup) : Prop :=
  ∃ ending, l.stage = .returned ending

variable {l : Lookup} {slot : Nat}

/-- A lookup that has locked a slot has still to see to it. -/
theorem attends_of_locked (h : l.grip = .locked slot) : l.Attends slot := by
  rw [grip] at h
  rw [Attends]
  cases hstage : l.stage <;> rw [hstage] at h <;> cases h <;> rfl

/-- A lookup with a handle on a slot that it has not to see to any more is about to drop it. -/
theorem leaving_of_not_attends (hl : l.grip.slot? = some slot) (h : ¬ l.Attends slot) :
    ∃ ending, l.stage = .leaving slot ending := by
  rw [grip] at hl
  rw [Attends] at h
  cases hstage : l.stage <;> rw [hstage] at hl h <;> cases hl
  case leaving ending => exact ⟨ending, rfl⟩
  all_goals exact absurd rfl h

end Lookup

namespace CacheSystem

/-- The step that strands a slot: a failed lookup leaves the slot in the map although nothing is in
it, because of others that have a handle on it and are only about to drop it. -/
inductive Strands (slot : Nat) : CacheSystem → CacheSystem → Prop where
  | keep {cache l error others} (rejected : l.stage = .rejected slot error)
      (linked : cache.slots l.key = some slot) (empty : cache.entries slot = none)
      (unattended : ∀ m ∈ others, ¬ m.Attends slot)
      (held : ∃ m ∈ others, ∃ ending, m.stage = .leaving slot ending) :
      Strands slot ⟨cache, l ::ₘ others⟩
        ⟨cache, l.withStage (.leaving slot (.failed error)) ::ₘ others⟩

variable {c c' : SharedCache} {l l' : Lookup} {others : Multiset Lookup} {slot : Nat}
  {key : String × String} {compilers : Set Compiler} {s s' : CacheSystem}

/-! ## Handles and keys -/

/-- A slot in the map belongs to the key of every lookup that has a handle on it. -/
def Keyed (s : CacheSystem) : Prop :=
  ∀ l ∈ s.lookups, ∀ slot, l.grip.slot? = some slot →
    ∀ key, s.cache.slots key = some slot → key = l.key

/-- A step in which a lookup gets no handle and no slot comes into the map. -/
theorem Keyed.move (h : Keyed ⟨c, l ::ₘ others⟩) (hkey : l'.key = l.key)
    (hgrip : ∀ slot, l'.grip.slot? = some slot → l.grip.slot? = some slot)
    (hslots : ∀ key slot, c'.slots key = some slot → c.slots key = some slot) :
    Keyed ⟨c', l' ::ₘ others⟩ := by
  obtain ⟨hl, hothers⟩ := Multiset.forall_mem_cons.mp h
  refine Multiset.forall_mem_cons.mpr ⟨fun slot hslot key hlinked => ?_, ?_⟩
  · rw [hkey]
    exact hl slot (hgrip slot hslot) key (hslots key slot hlinked)
  · exact fun m hm slot hslot key hlinked => hothers m hm slot hslot key (hslots key slot hlinked)

theorem Keyed.advance (h : Keyed ⟨c, l ::ₘ others⟩) (hw : Wired ⟨c, l ::ₘ others⟩)
    (step : Advances c l c' l') : Keyed ⟨c', l' ::ₘ others⟩ := by
  have hothers := (Multiset.forall_mem_cons.mp h).2
  have hstage : ∀ {stage stage' : Stage}, l.stage = stage →
      stage.grip.slot? = stage'.grip.slot? →
      ∀ slot, (l.withStage stage').grip.slot? = some slot → l.grip.slot? = some slot :=
    fun hl hsame slot hslot => (congrArg (fun stage => stage.grip.slot?) hl).trans (hsame.trans hslot)
  cases step with
  | clone arrived found =>
      refine Multiset.forall_mem_cons.mpr ⟨fun slot hslot key hlinked => ?_, hothers⟩
      cases hslot
      exact hw.distinct _ _ _ hlinked found
  | create arrived missing =>
      have hold : ∀ key slot, slot < c.fresh → (c.create l.key).slots key = some slot →
          c.slots key = some slot := by
        intro key slot hlt hlinked
        simp only [SharedCache.create, Function.update_apply] at hlinked
        split at hlinked
        · cases hlinked
          exact absurd hlt (Nat.lt_irrefl _)
        · exact hlinked
      refine Multiset.forall_mem_cons.mpr ⟨fun slot hslot key hlinked => ?_, ?_⟩
      · cases hslot
        refine Decidable.byContradiction fun hne => ?_
        have hlinked' : c.slots key = some c.fresh :=
          (Function.update_of_ne hne _ _).symm.trans hlinked
        exact Nat.lt_irrefl _ (hw.slots_lt _ _ hlinked')
      · intro m hm slot hslot key hlinked
        have hlt := hw.handle_lt m (Multiset.mem_cons_of_mem hm) slot hslot
        exact hothers m hm slot hslot key (hold key slot hlt hlinked)
  | release rejected =>
      refine h.move rfl (hstage rejected rfl) fun key slot hlinked => ?_
      simp only [SharedCache.drop, SharedCache.unlink, Function.update_apply] at hlinked
      split at hlinked
      · cases hlinked
      · exact hlinked
  | drop => exact h.move rfl (fun _ hslot => by cases hslot) fun _ _ hlinked => hlinked
  | acquire hl | read hl | misread hl | hit hl | miss hl | publish hl | discard hl | keep hl =>
      exact h.move rfl (hstage hl rfl) fun _ _ hlinked => hlinked

/-- A slot in the map belongs to the key of every lookup that has a handle on it, whatever lookups
do. -/
theorem Reachable.keyed (h : Reachable compilers s) : Keyed s := by
  induction h with
  | start => exact fun _ hl => absurd hl (Multiset.notMem_zero _)
  | step reached step ih =>
      cases step with
      | arrive => exact Multiset.forall_mem_cons.mpr ⟨fun _ hslot => (by cases hslot), ih⟩
      | advance others step => exact ih.advance reached.wired step
      | write | delete => exact ih

/-! ## Empty slots -/

/-- Whether a slot is in the map with nothing in it. -/
def Empty (c : SharedCache) (slot : Nat) : Prop :=
  (∃ key, c.slots key = some slot) ∧ c.entries slot = none

/-- A failed lookup that leaves an empty slot in the map leaves it to another lookup, or strands
it. -/
theorem Wired.attended_or_strands (hw : Wired ⟨c, l ::ₘ others⟩) {error : Error}
    (rejected : l.stage = .rejected slot error) (used : ¬ c.Unused l.key slot)
    (hlinked : c.slots l.key = some slot) (hempty : c.entries slot = none) :
    (∃ m ∈ others, m.Attends slot) ∨ Strands slot ⟨c, l ::ₘ others⟩
      ⟨c, l.withStage (.leaving slot (.failed error)) ::ₘ others⟩ := by
  by_cases hattended : ∃ m ∈ others, m.Attends slot
  · exact .inl hattended
  · have hunattended : ∀ m ∈ others, ¬ m.Attends slot :=
      fun m hm hattends => hattended ⟨m, hm, hattends⟩
    refine .inr (.keep rejected hlinked hempty hunattended ?_)
    have hgrip : l.grip = .spent slot := congrArg Stage.grip rejected
    -- nobody has the lock, so it is the count of handles that keeps the slot
    have hfree : c.locked slot = false := by
      have hlocks := hw.locks slot
      rw [Multiset.countP_cons, hgrip, if_neg (by simp), Multiset.countP_eq_zero.mpr
        fun m hm hlocked => hunattended m hm (Lookup.attends_of_locked hlocked)] at hlocks
      simpa using hlocks.symm
    have hcount : c.handles slot = _ := hw.handles l.key slot hlinked
    have hhandles : c.handles slot ≠ 2 := fun htwo => used ⟨hlinked, htwo, hfree, hempty⟩
    rw [Multiset.countP_cons, hgrip, if_pos (Grip.slot?_spent slot)] at hcount
    have hpos : 0 < others.countP (·.grip.slot? = some slot) := by omega
    obtain ⟨m, hm, hslot⟩ := Multiset.countP_pos.mp hpos
    exact ⟨m, hm, Lookup.leaving_of_not_attends hslot (hunattended m hm)⟩

/-- After a step of a lookup, a slot that is empty was empty before it and the lookup had nothing to
do with it, or there is a lookup that has still to see to it, or the step strands it. -/
theorem Wired.empty_cases (hw : Wired ⟨c, l ::ₘ others⟩) (hkeyed : Keyed ⟨c, l ::ₘ others⟩)
    (step : Advances c l c' l') (hempty : Empty c' slot) :
    (Empty c slot ∧ ¬ l.Attends slot) ∨ (∃ m ∈ l' ::ₘ others, m.Attends slot) ∨
      Strands slot ⟨c, l ::ₘ others⟩ ⟨c', l' ::ₘ others⟩ := by
  have hnew : l'.Attends slot → ∃ m ∈ l' ::ₘ others, m.Attends slot :=
    fun hattends => ⟨l', Multiset.mem_cons_self l' others, hattends⟩
  have hfar : ∀ {attended : Option Nat}, l.stage.attended? = attended → attended ≠ some slot →
      ¬ l.Attends slot := by
    rintro _ rfl hne hattends
    exact hne hattends
  have haway : l.stage.attended? = none → ¬ l.Attends slot :=
    fun hl => hfar hl (Option.some_ne_none slot).symm
  have hother : ∀ {slot' : Nat}, l.stage.attended? = some slot' → slot' ≠ slot →
      ¬ l.Attends slot := fun hl hne => hfar hl (fun heq => hne (Option.some.inj heq))
  obtain ⟨⟨key, hlinked⟩, hentry⟩ := hempty
  cases step with
  | clone hl | drop hl =>
      exact .inl ⟨⟨⟨key, hlinked⟩, hentry⟩, haway (congrArg Stage.attended? hl)⟩
  | create hl =>
      by_cases hslot : c.fresh = slot
      · exact .inr (.inl (hnew (congrArg some hslot)))
      · refine .inl ⟨⟨⟨key, ?_⟩, ?_⟩, haway (congrArg Stage.attended? hl)⟩
        · simp only [SharedCache.create, Function.update_apply] at hlinked
          split at hlinked
          · exact absurd (Option.some.inj hlinked) hslot
          · exact hlinked
        · exact (Function.update_of_ne (Ne.symm hslot) _ _).symm.trans hentry
  | @acquire slot' hl | @read slot' _ hl | @misread slot' _ hl | @miss slot' _ hl =>
      by_cases hslot : slot' = slot
      · exact .inr (.inl (hnew (congrArg some hslot)))
      · exact .inl ⟨⟨⟨key, hlinked⟩, hentry⟩, hother (congrArg Stage.attended? hl) hslot⟩
  | @hit slot' resource held hl entry =>
      refine .inl ⟨⟨⟨key, hlinked⟩, hentry⟩, hother (congrArg Stage.attended? hl) ?_⟩
      rintro rfl
      cases entry.symm.trans hentry
  | @publish slot' _ _ _ hl =>
      have hslot : slot' ≠ slot := by
        rintro rfl
        cases (Function.update_self ..).symm.trans hentry
      refine .inl ⟨⟨⟨key, hlinked⟩, ?_⟩, hother (congrArg Stage.attended? hl) hslot⟩
      exact (Function.update_of_ne (Ne.symm hslot) _ _).symm.trans hentry
  | @discard slot' _ _ _ hl =>
      by_cases hslot : slot' = slot
      · exact .inr (.inl (hnew (congrArg some hslot)))
      · refine .inl ⟨⟨⟨key, hlinked⟩, ?_⟩, hother (congrArg Stage.attended? hl) hslot⟩
        exact (Function.update_of_ne (Ne.symm hslot) _ _).symm.trans hentry
  | @release slot' _ hl unused =>
      simp only [SharedCache.drop, SharedCache.unlink, Function.update_apply] at hlinked
      split at hlinked
      · cases hlinked
      · rename_i hkey
        refine .inl ⟨⟨⟨key, hlinked⟩, hentry⟩, hother (congrArg Stage.attended? hl) ?_⟩
        rintro rfl
        exact hkey (hw.distinct _ _ _ hlinked unused.1)
  | @keep slot' _ hl used =>
      by_cases hslot : slot' = slot
      · subst hslot
        have hslot : l.grip.slot? = some slot' := congrArg (fun stage => stage.grip.slot?) hl
        obtain rfl := hkeyed l (Multiset.mem_cons_self l others) slot' hslot key hlinked
        rcases hw.attended_or_strands hl used hlinked hentry with ⟨m, hm, hattends⟩ | hstrands
        · exact .inr (.inl ⟨m, Multiset.mem_cons_of_mem hm, hattends⟩)
        · exact .inr (.inr hstrands)
      · exact .inl ⟨⟨⟨key, hlinked⟩, hentry⟩, hother (congrArg Stage.attended? hl) hslot⟩

/-- Whether a slot has been stranded on the way to a state. -/
def Stranded (compilers : Set Compiler) (slot : Nat) (s : CacheSystem) : Prop :=
  ∃ before after, Reachable compilers before ∧ Strands slot before after ∧
    Relation.ReflTransGen (Step compilers) after s

theorem Stranded.step (h : Stranded compilers slot s) (step : Step compilers s s') :
    Stranded compilers slot s' := by
  obtain ⟨before, after, hreached, hstrands, hsteps⟩ := h
  exact ⟨before, after, hreached, hstrands, hsteps.tail step⟩

/-- An empty slot in the map is one that a lookup has still to see to, unless it has been
stranded. -/
theorem Reachable.attended_or_stranded (h : Reachable compilers s) (hempty : Empty s.cache slot) :
    (∃ l ∈ s.lookups, l.Attends slot) ∨ Stranded compilers slot s := by
  induction h with
  | start =>
      obtain ⟨⟨key, hlinked⟩, -⟩ := hempty
      cases hlinked
  | step reached step ih =>
      cases step with
      | arrive known =>
          rcases ih hempty with ⟨l, hl, hattends⟩ | hstranded
          · exact .inl ⟨l, Multiset.mem_cons_of_mem hl, hattends⟩
          · exact .inr (hstranded.step (.arrive known _))
      | write path content => exact (ih hempty).imp_right (·.step (.write path content))
      | delete path => exact (ih hempty).imp_right (·.step (.delete path))
      | @advance c c' l l' others step =>
          rcases reached.wired.empty_cases reached.keyed step hempty with
            ⟨hbefore, hnot⟩ | hattended | hstrands
          · rcases ih hbefore with ⟨m, hm, hattends⟩ | hstranded
            · rcases Multiset.mem_cons.mp hm with rfl | hm
              · exact absurd hattends hnot
              · exact .inl ⟨m, Multiset.mem_cons_of_mem hm, hattends⟩
            · exact .inr (hstranded.step (.advance others step))
          · exact .inl hattended
          · exact .inr ⟨_, _, reached, hstrands, .refl⟩

/-- A step that strands a slot is a step of the system. -/
theorem Strands.step (h : Strands slot s s') (hw : Wired s) : Step compilers s s' := by
  cases h with
  | keep rejected linked _ _ held =>
      refine .advance _ (.keep rejected fun hunused => ?_)
      obtain ⟨-, htwo, -⟩ := hunused
      obtain ⟨m, hm, ending, hleaving⟩ := held
      have hgrip := congrArg (fun stage => stage.grip.slot?) rejected
      exact hw.handle_alone hgrip linked htwo m hm
        (congrArg (fun stage => stage.grip.slot?) hleaving)

/-- Lookups that are about to drop their handles on a slot can do so, and nothing else has to
happen. -/
theorem exists_dropped (compilers : Set Compiler) (slot : Nat) (pending : Multiset Lookup)
    (hpending : ∀ m ∈ pending, m.grip.slot? = some slot → ∃ ending, m.stage = .leaving slot ending)
    (c : SharedCache) (rest : Multiset Lookup) (hrest : ∀ m ∈ rest, m.grip.slot? ≠ some slot) :
    ∃ final : CacheSystem, Relation.ReflTransGen (Step compilers) ⟨c, pending + rest⟩ final ∧
      final.cache.slots = c.slots ∧ final.cache.entries = c.entries ∧
      ∀ m ∈ final.lookups, m.grip.slot? ≠ some slot := by
  induction pending using Multiset.induction generalizing c rest with
  | empty => exact ⟨⟨c, 0 + rest⟩, .refl, rfl, rfl, by rwa [Multiset.zero_add]⟩
  | cons m pending ih =>
      obtain ⟨hm, hpending⟩ := Multiset.forall_mem_cons.mp hpending
      rw [Multiset.cons_add]
      by_cases hslot : m.grip.slot? = some slot
      · obtain ⟨ending, hleaving⟩ := hm hslot
        obtain ⟨final, hsteps, hslots, hentries, hfinal⟩ := ih hpending (c.drop slot)
          (m.withStage (.returned ending) ::ₘ rest) (Multiset.forall_mem_cons.mpr ⟨nofun, hrest⟩)
        rw [Multiset.add_cons] at hsteps
        exact ⟨final, .head (.advance _ (.drop hleaving)) hsteps, hslots, hentries, hfinal⟩
      · rw [← Multiset.add_cons]
        exact ih hpending c (m ::ₘ rest) (Multiset.forall_mem_cons.mpr ⟨hslot, hrest⟩)

/-- A stranded slot can stay in the map with nothing in it when nobody has a handle on it any
more. -/
theorem Strands.remains (h : Strands slot s s') (compilers : Set Compiler) :
    ∃ final, Relation.ReflTransGen (Step compilers) s' final ∧ Empty final.cache slot ∧
      ∀ l ∈ final.lookups, l.grip.slot? ≠ some slot := by
  cases h with
  | @keep c l error others _ linked empty unattended =>
      obtain ⟨final, hsteps, hslots, hentries, hfinal⟩ := exists_dropped compilers slot
        (l.withStage (.leaving slot (.failed error)) ::ₘ others) (Multiset.forall_mem_cons.mpr
          ⟨fun _ => ⟨_, rfl⟩, fun m hm hslot => Lookup.leaving_of_not_attends hslot (unattended m hm)⟩)
        c 0 (fun m hm => absurd hm (Multiset.notMem_zero m))
      rw [Multiset.add_zero] at hsteps
      exact ⟨final, hsteps, ⟨⟨l.key, hslots ▸ linked⟩, hentries ▸ empty⟩, hfinal⟩

/-! ## Two lookups that fail -/

/-- A store without resources. -/
def bareStore : ResourceStore :=
  .memory .empty

/-- A host without files. -/
def bareHost : Host :=
  ⟨⟨.empty, []⟩, .empty, 0, 0⟩

/-- Two lookups of a path at which there is nothing. The second one waits while the first one fails,
and looks whether the slot can go before the first one has returned. -/
theorem exists_reachable_empty :
    let toy := Compiler.directives "toy"
    ∃ s, Reachable {toy} s ∧ (∀ l ∈ s.lookups, l.IsOver) ∧ s.cache.slots ("toy", "/a.toy") = some 0 ∧
      s.cache.entries 0 = none := by
  intro toy
  have htoy : toy ∈ ({toy} : Set Compiler) := rfl
  obtain ⟨fault, hread⟩ : ∃ fault, bareStore.read bareHost.view "/a.toy" = .error fault := ⟨_, rfl⟩
  have hstart : Reachable {toy} (.start bareStore bareHost) := .start bareStore bareHost
  have harrived := (hstart.step (.arrive htoy "/a.toy")).step (.arrive htoy "/a.toy")
  have hwaiting := harrived.step (.advance _ (.create rfl rfl))
  rw [Multiset.cons_swap] at hwaiting
  have hboth := hwaiting.step (.advance _ (.clone rfl rfl))
  have hfailed := (hboth.step (.advance _ (.acquire rfl rfl))).step (.advance _ (.misread rfl hread))
  have hkept := hfailed.step (.advance _ (.keep rfl fun h => absurd h.2.1 (by decide)))
  rw [Multiset.cons_swap] at hkept
  have hfailed' := (hkept.step (.advance _ (.acquire rfl rfl))).step (.advance _ (.misread rfl hread))
  have hkept' := hfailed'.step (.advance _ (.keep rfl fun h => absurd h.2.1 (by decide)))
  have hdropped := hkept'.step (.advance _ (.drop rfl))
  rw [Multiset.cons_swap] at hdropped
  have hend := hdropped.step (.advance _ (.drop rfl))
  refine ⟨_, hend, ?_, ?_, ?_⟩
  · simp [Lookup.IsOver, Lookup.withStage]
  · rfl
  · rfl

/-- When no lookup is in progress, every slot in the map holds an artifact, apart from the slots
that have been stranded. And wherever a slot can be stranded, it can be left behind. -/
theorem Reachable.leftover (h : Reachable compilers s) :
    ((∀ l ∈ s.lookups, l.IsOver) → ∀ key slot, s.cache.slots key = some slot →
      (∃ held, s.cache.entries slot = some held) ∨ Stranded compilers slot s) ∧
    ∀ slot after, Strands slot s after → Step compilers s after ∧
      ∃ final, Relation.ReflTransGen (Step compilers) after final ∧ Empty final.cache slot ∧
        ∀ l ∈ final.lookups, l.grip.slot? ≠ some slot := by
  refine ⟨fun hover key slot hlinked => ?_,
    fun slot after hstrands => ⟨hstrands.step h.wired, hstrands.remains compilers⟩⟩
  cases hentry : s.cache.entries slot with
  | some held => exact .inl ⟨held, rfl⟩
  | none =>
      refine .inr ((h.attended_or_stranded ⟨⟨key, hlinked⟩, hentry⟩).resolve_left ?_)
      rintro ⟨l, hl, hattends⟩
      obtain ⟨ending, hreturned⟩ := hover l hl
      rw [Lookup.Attends, hreturned] at hattends
      cases hattends

/-- Two lookups that have failed at the same time and returned can leave an empty slot behind. -/
theorem empty_slot_left_behind :
    ¬ ∀ s, Reachable {Compiler.directives "toy"} s → (∀ l ∈ s.lookups, l.IsOver) →
      ∀ key slot, s.cache.slots key = some slot → ∃ held, s.cache.entries slot = some held := by
  intro hheld
  obtain ⟨s, hreached, hover, hlinked, hentry⟩ := exists_reachable_empty
  obtain ⟨held, hsome⟩ := hheld s hreached hover _ _ hlinked
  cases hentry.symm.trans hsome

/-- The slot that the two lookups leave behind has been stranded. -/
theorem directives_leftover :
    ∃ s, Reachable {Compiler.directives "toy"} s ∧ (∀ l ∈ s.lookups, l.IsOver) ∧
      Empty s.cache 0 ∧ Stranded {Compiler.directives "toy"} 0 s := by
  obtain ⟨s, hreached, hover, hlinked, hentry⟩ := exists_reachable_empty
  refine ⟨s, hreached, hover, ⟨⟨_, hlinked⟩, hentry⟩, ?_⟩
  refine (hreached.leftover.1 hover _ _ hlinked).resolve_left ?_
  rintro ⟨held, hsome⟩
  cases hentry.symm.trans hsome

end CacheSystem

end ScriptHost
