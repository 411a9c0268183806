import ScriptHost.Proofs.Cache.Concurrent

/-!
# Handles and locks of concurrent lookups

`CacheSystem.Wired` is the invariant that ties the slots to the lookups that use them: the handles
on a slot are counted, a locked slot has one owner, and from the moment a lookup clones its handle
until it unlocks the slot, that slot is the one in the map. A slot is taken out of the map only when
the count of its handles shows that no other lookup is between those moments: `Wired.release`.
-/

namespace ScriptHost

/-- What a lookup has to do with a slot: nothing, it waits for the lock, it has the lock, or it has
only a handle left. -/
inductive Grip where
  | none
  | waiting (slot : Nat)
  | locked (slot : Nat)
  | spent (slot : Nat)
  deriving DecidableEq

/-- The slot that there is a handle on. -/
def Grip.slot? : Grip → Option Nat
  | none => .none
  | waiting slot | locked slot | spent slot => some slot

@[simp] theorem Grip.slot?_none : Grip.none.slot? = .none := rfl

@[simp] theorem Grip.slot?_waiting (slot : Nat) : (Grip.waiting slot).slot? = some slot := rfl

@[simp] theorem Grip.slot?_locked (slot : Nat) : (Grip.locked slot).slot? = some slot := rfl

@[simp] theorem Grip.slot?_spent (slot : Nat) : (Grip.spent slot).slot? = some slot := rfl

/-- The grip of a lookup at a stage. -/
def Stage.grip : Stage → Grip
  | arrived | returned _ => .none
  | waiting slot => .waiting slot
  | inside slot | loaded slot _ | compiling slot _ => .locked slot
  | rejected slot _ | leaving slot _ => .spent slot

/-- The grip of a lookup. -/
def Lookup.grip (l : Lookup) : Grip :=
  l.stage.grip

namespace CacheSystem

/-- The slots, the handles on them and their locks are in order. -/
structure Wired (s : CacheSystem) : Prop where
  slots_lt : ∀ key slot, s.cache.slots key = some slot → slot < s.cache.fresh
  handle_lt : ∀ l ∈ s.lookups, ∀ slot, l.grip.slot? = some slot → slot < s.cache.fresh
  distinct : ∀ key other slot,
    s.cache.slots key = some slot → s.cache.slots other = some slot → key = other
  handles : ∀ key slot, s.cache.slots key = some slot →
    s.cache.handles slot = s.lookups.countP (·.grip.slot? = some slot) + 1
  bound : ∀ l ∈ s.lookups, ∀ slot, l.grip = .waiting slot ∨ l.grip = .locked slot →
    s.cache.slots l.key = some slot
  locks : ∀ slot, s.lookups.countP (·.grip = .locked slot) = (s.cache.locked slot).toNat

variable {c c' : SharedCache} {l l' : Lookup} {lookups others : Multiset Lookup} {slot : Nat}

theorem Wired.start (store : ResourceStore) (host : Host) : Wired (.start store host) where
  slots_lt _ _ h := nomatch h
  handle_lt _ h := absurd h (Multiset.notMem_zero _)
  distinct _ _ _ h := nomatch h
  handles _ _ h := nomatch h
  bound _ h := absurd h (Multiset.notMem_zero _)
  locks _ := rfl

/-! ## What follows for one slot -/

/-- A slot is locked while a lookup has its lock. -/
theorem Wired.locked_of_grip (h : Wired ⟨c, l ::ₘ others⟩) (hl : l.grip = .locked slot) :
    c.locked slot = true := by
  have hlocks := h.locks slot
  simp only [Multiset.countP_cons, hl, if_true] at hlocks
  exact Bool.toNat_eq_one.mp (Nat.le_antisymm (Bool.toNat_le _) (by omega))

/-- Nobody else has the lock that a lookup has. -/
theorem Wired.lock_alone (h : Wired ⟨c, l ::ₘ others⟩) (hl : l.grip = .locked slot) :
    ∀ m ∈ others, m.grip ≠ .locked slot := by
  have hlocks := h.locks slot
  simp only [Multiset.countP_cons, hl, if_true] at hlocks
  have hle := Bool.toNat_le (c.locked slot)
  exact Multiset.countP_eq_zero.mp (by omega)

/-- Nobody else has a handle on a slot when only the map and one lookup have one. -/
theorem Wired.handle_alone (h : Wired ⟨c, l ::ₘ others⟩) (hl : l.grip.slot? = some slot)
    (hslot : c.slots l.key = some slot) (htwo : c.handles slot = 2) :
    ∀ m ∈ others, m.grip.slot? ≠ some slot := by
  have hcount := h.handles l.key slot hslot
  simp only [Multiset.countP_cons, hl, if_true] at hcount
  exact Multiset.countP_eq_zero.mp (by omega)

/-- Nobody has a handle on a slot that is not in use yet. -/
theorem Wired.grip_ne_fresh (h : Wired ⟨c, lookups⟩) : ∀ m ∈ lookups, m.grip.slot? ≠ some c.fresh :=
  fun m hm hfresh => Nat.lt_irrefl _ (h.handle_lt m hm _ hfresh)

/-! ## Steps -/

/-- What is in order about the slots does not depend on what they hold, or on the resources. -/
theorem Wired.of_slots (h : Wired ⟨c, lookups⟩) (hslots : c'.slots = c.slots)
    (hfresh : c'.fresh = c.fresh) (hhandles : c'.handles = c.handles)
    (hlocked : c'.locked = c.locked) : Wired ⟨c', lookups⟩ := by
  obtain ⟨hlt, hhandle, hdistinct, hcount, hbound, hlocks⟩ := h
  exact ⟨by rwa [hslots, hfresh], by rwa [hfresh], by rwa [hslots], by rwa [hslots, hhandles],
    by rwa [hslots], by rwa [hlocked]⟩

/-- A lookup that has nothing to do with any slot makes no difference. -/
theorem wired_cons_iff (hl : l.grip = .none) : Wired ⟨c, l ::ₘ lookups⟩ ↔ Wired ⟨c, lookups⟩ := by
  have hhandles : ∀ slot, (l ::ₘ lookups).countP (·.grip.slot? = some slot) =
      lookups.countP (·.grip.slot? = some slot) := fun slot => by simp [hl]
  have hlocks : ∀ slot, (l ::ₘ lookups).countP (·.grip = .locked slot) =
      lookups.countP (·.grip = .locked slot) := fun slot => by simp [hl]
  constructor
  · rintro ⟨hlt, hhandle, hdistinct, hcount, hbound, hlocked⟩
    simp only [hhandles] at hcount
    simp only [hlocks] at hlocked
    exact ⟨hlt, (Multiset.forall_mem_cons.mp hhandle).2, hdistinct, hcount,
      (Multiset.forall_mem_cons.mp hbound).2, hlocked⟩
  · rintro ⟨hlt, hhandle, hdistinct, hcount, hbound, hlocked⟩
    simp only [← hhandles] at hcount
    simp only [← hlocks] at hlocked
    exact ⟨hlt, Multiset.forall_mem_cons.mpr ⟨by simp [hl], hhandle⟩, hdistinct, hcount,
      Multiset.forall_mem_cons.mpr ⟨by simp [hl], hbound⟩, hlocked⟩

/-- A lookup whose grip changes while the map stays as it is. The handles and the lock of a slot
change by what the lookup has to do with it before and after. -/
theorem Wired.regrip (h : Wired ⟨c, l ::ₘ others⟩) (hkey : l'.key = l.key)
    (hslots : c'.slots = c.slots) (hfresh : c'.fresh = c.fresh)
    (hlt : ∀ i, l'.grip.slot? = some i → i < c.fresh)
    (hbound : ∀ i, l'.grip = .waiting i ∨ l'.grip = .locked i → c.slots l.key = some i)
    (hhandles : ∀ key i, c.slots key = some i →
      c'.handles i + (if l.grip.slot? = some i then 1 else 0) =
        c.handles i + (if l'.grip.slot? = some i then 1 else 0))
    (hlocks : ∀ i, (c'.locked i).toNat + (if l.grip = .locked i then 1 else 0) =
      (c.locked i).toNat + (if l'.grip = .locked i then 1 else 0)) :
    Wired ⟨c', l' ::ₘ others⟩ where
  slots_lt := by rw [hslots, hfresh]; exact h.slots_lt
  handle_lt := by
    rw [hfresh]
    exact Multiset.forall_mem_cons.mpr ⟨hlt, (Multiset.forall_mem_cons.mp h.handle_lt).2⟩
  distinct := by rw [hslots]; exact h.distinct
  handles key i hi := by
    rw [hslots] at hi
    have hcount := h.handles key i hi
    have hchange := hhandles key i hi
    simp only [Multiset.countP_cons] at hcount ⊢
    omega
  bound := by
    rw [hslots]
    refine Multiset.forall_mem_cons.mpr ⟨?_, (Multiset.forall_mem_cons.mp h.bound).2⟩
    rw [hkey]
    exact hbound
  locks i := by
    have hcount := h.locks i
    have hchange := hlocks i
    simp only [Multiset.countP_cons] at hcount ⊢
    omega

/-- A lookup that keeps its grip. -/
theorem Wired.same (h : Wired ⟨c, l ::ₘ others⟩) (hkey : l'.key = l.key) (hl : l'.grip = l.grip) :
    Wired ⟨c, l' ::ₘ others⟩ := by
  have hself := Multiset.mem_cons_self l others
  refine h.regrip hkey rfl rfl ?_ ?_ ?_ ?_
  · rw [hl]
    exact h.handle_lt l hself
  · rw [hl]
    exact h.bound l hself
  · exact fun _ _ _ => by rw [hl]
  · exact fun _ => by rw [hl]

/-- A lookup that clones a handle on the slot in the map. -/
theorem Wired.clone (h : Wired ⟨c, l ::ₘ others⟩) (hkey : l'.key = l.key) (hl : l.grip = .none)
    (hl' : l'.grip = .waiting slot) (hfound : c.slots l.key = some slot) :
    Wired ⟨c.clone slot, l' ::ₘ others⟩ := by
  have hlt := h.slots_lt l.key slot hfound
  refine h.regrip hkey rfl rfl ?_ ?_ (fun key i _ => ?_) (fun i => ?_)
  · simpa [hl'] using hlt
  · simpa [hl'] using hfound
  · by_cases hi : i = slot
    · simp [hl, hl', hi, SharedCache.clone]
    · simp [hl, hl', hi, Ne.symm hi, SharedCache.clone]
  · simp [hl, hl', SharedCache.clone]

/-- A lookup that makes a slot. -/
theorem Wired.create (h : Wired ⟨c, l ::ₘ others⟩) (hkey : l'.key = l.key) (hl : l.grip = .none)
    (hl' : l'.grip = .waiting c.fresh) (hmissing : c.slots l.key = none) :
    Wired ⟨c.create l.key, l' ::ₘ others⟩ := by
  -- nobody has a handle on the new slot, and no other key leads to it
  have hfresh : others.countP (·.grip.slot? = some c.fresh) = 0 :=
    Multiset.countP_eq_zero.mpr fun m hm => h.grip_ne_fresh m (Multiset.mem_cons_of_mem hm)
  have hslots : ∀ key slot, (c.create l.key).slots key = some slot →
      key = l.key ∧ slot = c.fresh ∨ c.slots key = some slot ∧ slot < c.fresh := by
    intro key slot hslot
    simp only [SharedCache.create, Function.update_apply] at hslot
    split at hslot
    · exact .inl ⟨‹_›, (Option.some.inj hslot).symm⟩
    · exact .inr ⟨hslot, h.slots_lt key slot hslot⟩
  have hothers := (Multiset.forall_mem_cons.mp h.handle_lt).2
  refine ⟨?_, ?_, ?_, ?_, ?_, ?_⟩
  · intro key slot hslot
    show slot < c.fresh + 1
    obtain ⟨-, rfl⟩ | ⟨-, hlt⟩ := hslots key slot hslot <;> omega
  · refine Multiset.forall_mem_cons.mpr ⟨?_, fun m hm slot hslot => ?_⟩
    · simp [hl', SharedCache.create]
    · exact Nat.lt_succ_of_lt (hothers m hm slot hslot)
  · intro key other slot hkeySlot hotherSlot
    obtain ⟨rfl, rfl⟩ | ⟨hold, hlt⟩ := hslots key slot hkeySlot <;>
      obtain ⟨rfl, hslot⟩ | ⟨hold', hlt'⟩ := hslots other _ hotherSlot
    · rfl
    · exact absurd hlt' (Nat.lt_irrefl _)
    · exact absurd (hslot ▸ hlt) (Nat.lt_irrefl _)
    · exact h.distinct _ _ _ hold hold'
  · intro key slot hslot
    obtain ⟨-, rfl⟩ | ⟨hold, hlt⟩ := hslots key slot hslot
    · simp [hl', hfresh, SharedCache.create]
    · have hcount := h.handles key slot hold
      have hne : slot ≠ c.fresh := Nat.ne_of_lt hlt
      simpa [Multiset.countP_cons, hl, hl', SharedCache.create, hne, hne.symm] using hcount
  · refine Multiset.forall_mem_cons.mpr ⟨?_, fun m hm slot hslot => ?_⟩
    · simp [hl', hkey, SharedCache.create]
    · have hbound := h.bound m (Multiset.mem_cons_of_mem hm) slot hslot
      have hne : m.key ≠ l.key := by
        intro heq
        rw [heq, hmissing] at hbound
        cases hbound
      simpa [SharedCache.create, hne] using hbound
  · intro slot
    have hcount := h.locks slot
    by_cases hslot : slot = c.fresh
    · subst hslot
      have hnone : others.countP (·.grip = .locked c.fresh) = 0 :=
        Multiset.countP_eq_zero.mpr fun m hm hm' =>
          h.grip_ne_fresh m (Multiset.mem_cons_of_mem hm) (by rw [hm', Grip.slot?_locked])
      simp [hl', hnone, SharedCache.create]
    · simpa [Multiset.countP_cons, hl, hl', SharedCache.create, hslot] using hcount

/-- A lookup that locks its slot. -/
theorem Wired.acquire (h : Wired ⟨c, l ::ₘ others⟩) (hkey : l'.key = l.key)
    (hl : l.grip = .waiting slot) (hl' : l'.grip = .locked slot) (hfree : c.locked slot = false) :
    Wired ⟨c.lock slot, l' ::ₘ others⟩ := by
  have hself := Multiset.mem_cons_self l others
  have hlt := h.handle_lt l hself slot (by rw [hl, Grip.slot?_waiting])
  have hbound := h.bound l hself slot (.inl hl)
  refine h.regrip hkey rfl rfl ?_ ?_ (fun key i _ => ?_) (fun i => ?_)
  · simpa [hl'] using hlt
  · simpa [hl'] using hbound
  · simp [hl, hl', SharedCache.lock]
  · by_cases hi : i = slot
    · simp [hl, hl', hi, hfree, SharedCache.lock]
    · simp [hl, hl', hi, Ne.symm hi, SharedCache.lock]

/-- A lookup that unlocks its slot. -/
theorem Wired.unlock (h : Wired ⟨c, l ::ₘ others⟩) (hkey : l'.key = l.key)
    (hl : l.grip = .locked slot) (hl' : l'.grip = .spent slot) :
    Wired ⟨c.unlock slot, l' ::ₘ others⟩ := by
  have hlt := h.handle_lt l (Multiset.mem_cons_self l others) slot (by rw [hl, Grip.slot?_locked])
  have hlocked := h.locked_of_grip hl
  refine h.regrip hkey rfl rfl ?_ ?_ (fun key i _ => ?_) (fun i => ?_)
  · simpa [hl'] using hlt
  · simp [hl']
  · simp [hl, hl', SharedCache.unlock]
  · by_cases hi : i = slot
    · simp [hl, hl', hi, hlocked, SharedCache.unlock]
    · simp [hl, hl', hi, Ne.symm hi, SharedCache.unlock]

/-- A lookup that takes its slot out of the map. -/
theorem Wired.release (h : Wired ⟨c, l ::ₘ others⟩) (hl : l.grip = .spent slot)
    (hl' : l'.grip = .spent slot) (hunused : c.Unused l.key slot) :
    Wired ⟨(c.unlink l.key).drop slot, l' ::ₘ others⟩ := by
  obtain ⟨hslot, htwo, -, -⟩ := hunused
  have hslots : ∀ key i, ((c.unlink l.key).drop slot).slots key = some i →
      c.slots key = some i ∧ i ≠ slot := by
    intro key i hi
    simp only [SharedCache.drop, SharedCache.unlink, Function.update_apply] at hi
    split at hi
    · cases hi
    · rename_i hne
      refine ⟨hi, fun heq => hne (h.distinct key l.key slot (heq ▸ hi) hslot)⟩
  have halone := h.handle_alone (by rw [hl, Grip.slot?_spent]) hslot htwo
  refine ⟨?_, ?_, ?_, ?_, ?_, ?_⟩
  · exact fun key i hi => h.slots_lt key i (hslots key i hi).1
  · have hlookups := h.handle_lt
    rw [Multiset.forall_mem_cons] at hlookups ⊢
    simpa [hl, hl', SharedCache.drop, SharedCache.unlink] using hlookups
  · exact fun key other i hi hother =>
      h.distinct key other i (hslots key i hi).1 (hslots other i hother).1
  · intro key i hi
    obtain ⟨hold, hne⟩ := hslots key i hi
    have hcount := h.handles key i hold
    simpa [Multiset.countP_cons, hl, hl', SharedCache.drop, SharedCache.unlink, hne] using hcount
  · refine Multiset.forall_mem_cons.mpr ⟨by simp [hl'], fun m hm i hi => ?_⟩
    have hbound := h.bound m (Multiset.mem_cons_of_mem hm) i hi
    -- a lookup that is bound to the slot would have a handle on it
    have hne : m.key ≠ l.key := by
      intro heq
      rw [heq, hslot] at hbound
      obtain rfl := Option.some.inj hbound
      refine halone m hm ?_
      obtain hwaiting | hlocked := hi
      · rw [hwaiting, Grip.slot?_waiting]
      · rw [hlocked, Grip.slot?_locked]
    simpa [SharedCache.drop, SharedCache.unlink, hne] using hbound
  · intro i
    have hcount := h.locks i
    simpa [Multiset.countP_cons, hl, hl', SharedCache.drop, SharedCache.unlink] using hcount

/-- A lookup that drops its handle. -/
theorem Wired.drop (h : Wired ⟨c, l ::ₘ others⟩) (hkey : l'.key = l.key)
    (hl : l.grip = .spent slot) (hl' : l'.grip = .none) :
    Wired ⟨c.drop slot, l' ::ₘ others⟩ := by
  refine h.regrip hkey rfl rfl ?_ ?_ (fun key i hi => ?_) (fun i => ?_)
  · simp [hl']
  · simp [hl']
  · have hpos : 0 < c.handles i := (h.handles key i hi).symm ▸ Nat.succ_pos _
    by_cases hslot : i = slot
    · simp [hl, hl', ← hslot, Nat.sub_add_cancel hpos, SharedCache.drop]
    · simp [hl, hl', hslot, Ne.symm hslot, SharedCache.drop]
  · simp [hl, hl', SharedCache.drop]

/-- A step of one lookup. -/
theorem Wired.advance (h : Wired ⟨c, l ::ₘ others⟩) (step : Advances c l c' l') :
    Wired ⟨c', l' ::ₘ others⟩ := by
  cases step with
  | clone arrived found => exact h.clone rfl (congrArg Stage.grip arrived) rfl found
  | create arrived missing => exact h.create rfl (congrArg Stage.grip arrived) rfl missing
  | acquire waiting free => exact h.acquire rfl (congrArg Stage.grip waiting) rfl free
  | read inside => exact h.same rfl (congrArg Stage.grip inside).symm
  | misread inside => exact h.unlock rfl (congrArg Stage.grip inside) rfl
  | hit loaded =>
      exact Wired.of_slots (h.unlock rfl (congrArg Stage.grip loaded) rfl) rfl rfl rfl rfl
  | miss loaded =>
      exact Wired.of_slots (h.same rfl (congrArg Stage.grip loaded).symm) rfl rfl rfl rfl
  | publish compiling | discard compiling =>
      exact Wired.of_slots (h.unlock rfl (congrArg Stage.grip compiling) rfl) rfl rfl rfl rfl
  | release rejected unused =>
      exact h.release (congrArg Stage.grip rejected) rfl unused
  | keep rejected => exact h.same rfl (congrArg Stage.grip rejected).symm
  | drop leaving => exact h.drop rfl (congrArg Stage.grip leaving) rfl

/-- A step of the system. -/
theorem Wired.step {compilers : Set Compiler} {s s' : CacheSystem} (h : Wired s)
    (step : Step compilers s s') : Wired s' := by
  cases step with
  | arrive => exact (wired_cons_iff rfl).mpr h
  | advance others step => exact h.advance step
  | write | delete => exact h.of_slots rfl rfl rfl rfl

/-- Whatever lookups do, slots, handles and locks stay in order. -/
theorem Reachable.wired {compilers : Set Compiler} {s : CacheSystem} (h : Reachable compilers s) :
    Wired s := by
  induction h with
  | start store host => exact Wired.start store host
  | step _ step ih => exact ih.step step

end CacheSystem

end ScriptHost
