import ScriptHost.Cache

/-!
# The slots of the artifact cache

What each operation of the cache does to its slots, seen through `slot?` and `held?`. Between
requests a cache is `Tidy`: every slot holds an artifact, and no two slots are for the same compiler
and path. A request that fails leaves no more than the slots of a tidy cache behind:
`Tidy.release_openSlot` and `slots_discard_release`.
-/

namespace ScriptHost

namespace Slot

/-- The compiler and the path of a slot. -/
def key (s : Slot) : String × String :=
  (s.compiler, s.path)

theorem isFor_iff {s : Slot} {compiler path : String} :
    s.isFor compiler path = true ↔ s.key = (compiler, path) := by
  rw [isFor, Bool.and_eq_true, beq_iff_eq, beq_iff_eq, key, Prod.mk.injEq]

@[simp] theorem isFor_self (compiler path : String) (held : Option HeldArtifact) :
    Slot.isFor ⟨compiler, path, held⟩ compiler path = true :=
  isFor_iff.mpr rfl

end Slot

namespace ArtifactCache

/-- Every slot holds an artifact, and no two slots have the same key. -/
structure Tidy (c : ArtifactCache) : Prop where
  full : ∀ slot ∈ c.slots, slot.held ≠ none
  distinct : (c.slots.map Slot.key).Nodup

variable {c : ArtifactCache} {compiler path other place : String}

theorem tidy_empty : ArtifactCache.empty.Tidy :=
  ⟨fun _ h => absurd h List.not_mem_nil, List.nodup_nil⟩

/-- Whether a cache is tidy depends on its slots only. -/
theorem Tidy.of_slots {d : ArtifactCache} (h : c.Tidy) (hslots : d.slots = c.slots) : d.Tidy := by
  obtain ⟨hfull, hdistinct⟩ := h
  exact ⟨by rwa [hslots], by rwa [hslots]⟩

/-- Taking slots away leaves a cache tidy. -/
theorem Tidy.of_sublist {d : ArtifactCache} (h : c.Tidy) (hslots : d.slots.Sublist c.slots) :
    d.Tidy :=
  ⟨fun slot hslot => h.full slot (hslots.subset hslot), h.distinct.sublist (hslots.map _)⟩

/-! ## Looking up -/

/-- A slot that is found is among the slots and has the key that was asked for. -/
theorem mem_of_slot? {slot : Slot} (h : c.slot? compiler path = some slot) :
    slot ∈ c.slots ∧ slot.key = (compiler, path) := by
  have hfor := List.find?_some h
  exact ⟨List.mem_of_find?_eq_some h, Slot.isFor_iff.mp hfor⟩

/-- Where no slot is found, none has the key that was asked for. -/
theorem key_ne_of_slot?_eq_none (h : c.slot? compiler path = none) {slot : Slot}
    (hslot : slot ∈ c.slots) : slot.key ≠ (compiler, path) :=
  fun hkey => List.find?_eq_none.mp h slot hslot (Slot.isFor_iff.mpr hkey)

/-- In a tidy cache there is a slot exactly where an artifact is held. -/
theorem Tidy.isSome_slot? (h : c.Tidy) (compiler path : String) :
    (c.slot? compiler path).isSome = (c.held? compiler path).isSome := by
  rw [held?]
  cases hslot : c.slot? compiler path with
  | none => rfl
  | some slot =>
      have hheld := h.full slot (mem_of_slot? hslot).1
      cases hslotHeld : slot.held with
      | none => exact absurd hslotHeld hheld
      | some held => simp [hslotHeld]

/-- A tidy cache holds as many artifacts as it has slots. -/
theorem Tidy.size_eq (h : c.Tidy) : c.size = c.slots.length := by
  rw [size, List.countP_eq_length]
  intro slot hslot
  exact Option.isSome_iff_ne_none.mpr (h.full slot hslot)

/-- In a tidy cache an artifact is held for a path exactly where there is a slot of the path. -/
theorem Tidy.exists_held_iff (h : c.Tidy) :
    (∃ compiler, (c.held? compiler path).isSome) ↔ ∃ slot ∈ c.slots, slot.path = path := by
  constructor
  · rintro ⟨compiler, hheld⟩
    rw [← h.isSome_slot?] at hheld
    obtain ⟨slot, hslot⟩ := Option.isSome_iff_exists.mp hheld
    obtain ⟨hmem, hkey⟩ := mem_of_slot? hslot
    exact ⟨slot, hmem, congrArg Prod.snd hkey⟩
  · rintro ⟨slot, hslot, rfl⟩
    refine ⟨slot.compiler, ?_⟩
    rw [← h.isSome_slot?, slot?, List.find?_isSome]
    exact ⟨slot, hslot, Slot.isFor_iff.mpr rfl⟩

/-! ## Opening and releasing -/

/-- Opening a slot counts nothing. -/
theorem counts_openSlot (c : ArtifactCache) (compiler path : String) :
    (c.openSlot compiler path).hits = c.hits ∧ (c.openSlot compiler path).misses = c.misses ∧
      (c.openSlot compiler path).compilations = c.compilations ∧
      (c.openSlot compiler path).failures = c.failures := by
  rw [openSlot]
  split <;> exact ⟨rfl, rfl, rfl, rfl⟩

/-- Opening a slot does not change what is held. -/
theorem held?_openSlot (c : ArtifactCache) (compiler path other place : String) :
    (c.openSlot compiler path).held? other place = c.held? other place := by
  rw [openSlot]
  split
  · rfl
  · rw [held?, held?, slot?, slot?, List.find?_append]
    cases c.slots.find? (·.isFor other place) with
    | some slot => rfl
    | none =>
        cases hfor : Slot.isFor ⟨compiler, path, none⟩ other place with
        | true => simp [hfor]
        | false => simp [hfor]

/-- Releasing the slot that was opened for a request leaves a tidy cache as it was. -/
theorem Tidy.release_openSlot (h : c.Tidy) (compiler path : String) :
    (c.openSlot compiler path).release compiler path = c := by
  have hkeep : c.slots.filter (fun s => !(s.isFor compiler path && s.held.isNone)) = c.slots := by
    rw [List.filter_eq_self]
    intro slot hslot
    have hfull := h.full slot hslot
    cases hheld : slot.held with
    | none => exact absurd hheld hfull
    | some held => simp
  rw [openSlot]
  split
  · rw [release, hkeep]
  · rw [release, List.filter_append, hkeep]
    simp

/-- Where an artifact is held, there is no slot to open. -/
theorem openSlot_of_held {held : HeldArtifact} (h : c.held? compiler path = some held) :
    c.openSlot compiler path = c := by
  obtain ⟨slot, hslot, _⟩ := Option.bind_eq_some_iff.mp h
  rw [openSlot, hslot]
  rfl

/-! ## Dropping -/

/-- After a failed compilation nothing is left of the slot that was opened for it. -/
theorem slots_discard_release (c : ArtifactCache) (compiler path : String) :
    (((c.openSlot compiler path).discard compiler path).release compiler path).slots =
      c.slots.filter fun s => !s.isFor compiler path := by
  have hdrop : ∀ slots : List Slot,
      (slots.map fun s => if s.isFor compiler path then { s with held := none } else s).filter
          (fun s => !(s.isFor compiler path && s.held.isNone)) =
        slots.filter fun s => !s.isFor compiler path := by
    intro slots
    induction slots with
    | nil => rfl
    | cons slot slots ih =>
        rw [List.map_cons, List.filter_cons, ih, List.filter_cons]
        cases hfor : slot.isFor compiler path with
        | true =>
            have hempty : Slot.isFor { slot with held := none } compiler path = true := hfor
            simp [hempty]
        | false => simp [hfor]
  rw [release, discard, hold, hdrop, openSlot]
  split
  · rfl
  · simp [List.filter_append]

/-- What is held where only some of the slots are kept, and all those of one key or none. -/
theorem held?_filter {d : ArtifactCache} {keep : Slot → Bool}
    (hslots : d.slots = c.slots.filter keep) {kept : Bool}
    (hkeep : ∀ slot, slot.isFor other place = true → keep slot = kept) :
    d.held? other place = if kept then c.held? other place else none := by
  rw [held?, slot?, hslots, List.find?_filter]
  cases kept with
  | true =>
      have hsame : (fun s : Slot => decide (keep s = true ∧ s.isFor other place = true)) =
          fun s => s.isFor other place := by
        funext slot
        cases hfor : slot.isFor other place with
        | true => simp [hkeep slot hfor]
        | false => simp
      rw [hsame]
      rfl
  | false =>
      have hnone : c.slots.find? (fun s => decide (keep s = true ∧ s.isFor other place = true)) =
          none := by
        rw [List.find?_eq_none]
        intro slot _ hboth
        rw [decide_eq_true_eq] at hboth
        rw [hkeep slot hboth.2] at hboth
        exact Bool.false_ne_true hboth.1
      rw [hnone]
      rfl

/-- A failed compilation drops what was held for its compiler and path, and nothing else. -/
theorem held?_discard_release (c : ArtifactCache) (compiler path other place : String) :
    (((c.openSlot compiler path).discard compiler path).release compiler path).held? other place =
      if (other, place) = (compiler, path) then none else c.held? other place := by
  have hkeep : ∀ slot : Slot, slot.isFor other place = true →
      (!slot.isFor compiler path) = !decide ((other, place) = (compiler, path)) := by
    intro slot hslot
    rw [Slot.isFor_iff] at hslot
    rw [Bool.not_inj_iff, Bool.eq_iff_iff, Slot.isFor_iff, hslot, decide_eq_true_eq]
  rw [held?_filter (slots_discard_release c compiler path) hkeep]
  by_cases hkey : (other, place) = (compiler, path) <;> simp [hkey]

/-- Invalidating a path drops what is held for it under any compiler, and nothing else. -/
theorem held?_invalidate (c : ArtifactCache) (path other place : String) :
    (c.invalidate path).2.held? other place =
      if place = path then none else c.held? other place := by
  have hkeep : ∀ slot : Slot, slot.isFor other place = true →
      (slot.path != path) = !decide (place = path) := by
    intro slot hslot
    have hplace : slot.path = place := congrArg Prod.snd (Slot.isFor_iff.mp hslot)
    rw [bne, Bool.not_inj_iff, Bool.eq_iff_iff, beq_iff_eq, hplace, decide_eq_true_eq]
  rw [held?_filter (show (c.invalidate path).2.slots = c.slots.filter (·.path != path) from rfl)
    hkeep]
  by_cases hplace : place = path <;> simp [hplace]

/-! ## Publishing -/

/-- What is held after something was put into a slot that is there. -/
theorem held?_hold (hslot : (c.slot? compiler path).isSome) (put : Option HeldArtifact)
    (other place : String) :
    (c.hold compiler path put).held? other place =
      if (other, place) = (compiler, path) then put else c.held? other place := by
  have hfind : (c.hold compiler path put).slot? other place =
      (c.slot? other place).map fun s =>
        if s.isFor compiler path then { s with held := put } else s := by
    rw [slot?, hold, List.find?_map]
    congr 2
    funext slot
    show Slot.isFor (if slot.isFor compiler path then _ else slot) other place = _
    split <;> rfl
  rw [held?, hfind]
  split
  · rename_i hkey
    obtain ⟨rfl, rfl⟩ := Prod.mk.inj hkey
    obtain ⟨slot, hslot⟩ := Option.isSome_iff_exists.mp hslot
    have hfor := Slot.isFor_iff.mpr (mem_of_slot? hslot).2
    rw [hslot]
    simp [hfor]
  · rename_i hkey
    rw [held?]
    cases hother : c.slot? other place with
    | none => rfl
    | some slot =>
        have hfor : slot.isFor compiler path = false := by
          rw [← Bool.not_eq_true, Slot.isFor_iff, (mem_of_slot? hother).2]
          exact hkey
        simp [hfor]

/-- Opening a slot makes sure that there is one. -/
theorem isSome_slot?_openSlot (c : ArtifactCache) (compiler path : String) :
    ((c.openSlot compiler path).slot? compiler path).isSome := by
  rw [openSlot]
  split
  · assumption
  · rw [slot?, List.find?_append]
    simp

/-- Publishing replaces what was held for a compiler and a path, and nothing else. -/
theorem held?_publish (c : ArtifactCache) (compiler path : String) (artifact : Artifact)
    (other place : String) :
    ((c.openSlot compiler path).publish compiler path artifact).2.held? other place =
      if (other, place) = (compiler, path) then some ⟨c.compilations, artifact⟩
      else c.held? other place := by
  obtain ⟨-, -, hcompilations, -⟩ := c.counts_openSlot compiler path
  rw [← hcompilations, ← held?_openSlot c compiler path other place]
  exact held?_hold (c.isSome_slot?_openSlot compiler path) _ other place

/-- Putting something into a slot changes no key. -/
theorem keys_hold (c : ArtifactCache) (compiler path : String) (put : Option HeldArtifact) :
    (c.hold compiler path put).slots.map Slot.key = c.slots.map Slot.key := by
  rw [hold, List.map_map]
  congr 1
  funext slot
  show Slot.key (if slot.isFor compiler path then _ else slot) = _
  split <;> rfl

/-- Opening a slot leaves the keys different from each other. -/
theorem nodup_keys_openSlot (h : (c.slots.map Slot.key).Nodup) (compiler path : String) :
    ((c.openSlot compiler path).slots.map Slot.key).Nodup := by
  rw [openSlot]
  split
  · exact h
  · rename_i hnone
    rw [Option.not_isSome_iff_eq_none] at hnone
    rw [List.map_append, List.nodup_append]
    refine ⟨h, by simp, ?_⟩
    intro key hkey last hlast heq
    obtain ⟨slot, hslot, rfl⟩ := List.mem_map.mp hkey
    simp only [List.map_cons, List.map_nil, List.mem_singleton] at hlast
    exact key_ne_of_slot?_eq_none hnone hslot (heq.trans hlast)

/-- Publishing an artifact in a slot that was opened for it leaves a tidy cache tidy. -/
theorem Tidy.publish (h : c.Tidy) (compiler path : String) (artifact : Artifact) :
    ((c.openSlot compiler path).publish compiler path artifact).2.Tidy := by
  refine ⟨?_, ?_⟩
  · intro slot hslot
    obtain ⟨old, hold, rfl⟩ := List.mem_map.mp hslot
    split
    · simp
    · rename_i hfor
      rw [openSlot] at hold
      split at hold
      · exact h.full old hold
      · rcases List.mem_append.mp hold with hold | hnew
        · exact h.full old hold
        · rw [List.mem_singleton] at hnew
          subst hnew
          exact absurd (Slot.isFor_self compiler path none) hfor
  · show (((c.openSlot compiler path).hold compiler path _).slots.map Slot.key).Nodup
    rw [keys_hold]
    exact nodup_keys_openSlot h.distinct compiler path

end ArtifactCache

end ScriptHost
