import ScriptHost.Inspector.Watching
import ScriptHost.Proofs.Inspector.Publication

/-!
# What a controller sees

A controller that waits for pauses again and again need not see every state of its session: the
channel keeps the latest one only. `Watching.pauses_returned` says what it can rely on all the same.
It gets no pause twice and none out of order, whatever it looks at was the latest state there and then,
and it gets each pause that is still there when it looks. A call is not left waiting for a pause that
has been published, and neither when the session is over.

The state of the channel and of the handle is determined by what has happened, which is what `Knows`
is about.
-/

namespace ScriptHost.Inspector

/-- States as a session publishes them: pauses are counted from one, and `terminated` is the last. -/
structure Ordered (states : List SessionState) : Prop where
  increasing : (shownPauses states).Pairwise (·.2 < ·.2)
  positive : ∀ pause ∈ shownPauses states, 0 < pause.2
  last : ∀ before after, states = before ++ .terminated :: after → after = []

theorem Ordered.of_append {states later : List SessionState} (h : Ordered (states ++ later)) :
    Ordered states where
  increasing := (List.pairwise_append.mp (shownPauses_append states later ▸ h.increasing)).1
  positive pause hpause := h.positive pause (by simp [hpause])
  last before after hstates := by
    have hafter := h.last before (after ++ later) (by simp [hstates])
    exact (List.append_eq_nil_iff.mp hafter).1

/-- States with `terminated` at their end, if at all, and with pauses counted from one. -/
theorem Ordered.of_states {states ending : List SessionState} (hlive : .terminated ∉ states)
    (hending : ending = [] ∨ ending = [.terminated])
    (hincreasing : (shownPauses states).Pairwise (·.2 < ·.2))
    (hpositive : ∀ pause ∈ shownPauses states, 0 < pause.2) : Ordered (states ++ ending) := by
  have hpauses : shownPauses (states ++ ending) = shownPauses states := by
    obtain rfl | rfl := hending <;> simp [shownPauses]
  refine ⟨hpauses ▸ hincreasing, hpauses ▸ hpositive, fun before after hstates => ?_⟩
  obtain rfl | ⟨rest, last, rfl⟩ := List.eq_nil_or_concat after
  · rfl
  · exfalso
    refine hlive ?_
    obtain rfl | rfl := hending
    · simp [List.append_nil states ▸ hstates]
    · rw [List.concat_eq_append, ← List.cons_append, ← List.append_assoc] at hstates
      simp [(List.append_inj' hstates rfl).1]

/-- A session publishes its states in order if it is held fewer times than there are numbers. -/
theorem Course.Steps.ordered {c : Course} {events : List Course.Event}
    (h : Course.Steps .attached events c) (hrelease : .release ∈ events)
    (hcount : (heldLines (reportedPauses (Course.heard events))).length < UInt32.size) :
    Ordered c.states := by
  obtain ⟨_, ⟨shown, rfl, hlive, hpauses⟩, hstates⟩ := h.shows hrelease
  obtain ⟨hincreasing, hpositive⟩ := numbered_increasing hcount
  have hshown : shownPauses (.starting :: .running :: shown) = shownPauses shown := rfl
  rw [hstates]
  refine .of_states ?_ ?_ ?_ ?_
  · intro hterminated
    have hmem : .terminated ∈ shown := by simpa using hterminated
    exact (hlive _ hmem).2 rfl
  · split <;> simp
  · rw [hshown, hpauses]
    exact hincreasing
  · rw [hshown, hpauses]
    exact hpositive

/-- What a call returns after a look, if it does. -/
def Sight.result? : Sight → Option (Option UInt32)
  | .pause line => some (some line)
  | .over => some none
  | .nothing => none

namespace Watching

variable {w v u : Watching} {event : Event} {events before after later : List Event}

/-! ### What has happened -/

/-- The states that have been published. -/
def publications (events : List Event) : List SessionState :=
  events.filterMap fun
    | .publish state => some state
    | _ => none

/-- The latest state. -/
def latestState (events : List Event) : SessionState :=
  (publications events).getLast?.getD .starting

/-- The states in which a call has found a pause, so that it has returned. -/
def returnedStates (events : List Event) : List SessionState :=
  events.filterMap fun
    | .look state (.pause _) => some state
    | _ => none

/-- The pauses that calls have returned. -/
def returnedPauses (events : List Event) : List (Nat × Nat) :=
  shownPauses (returnedStates events)

/-- What a call returns with an event, if it does. -/
def Event.result? : Event → Option (Option UInt32)
  | .look _ sight => sight.result?
  | .leave _ => some none
  | _ => none

/-- What calls have returned. -/
def results (events : List Event) : List (Option UInt32) :=
  events.filterMap (·.result?)

/-- Whether the latest state is a pause that has not been returned. -/
def IsPending (events : List Event) : Prop :=
  ∃ pause, (latestState events).pause? = some pause ∧ pause ∉ returnedPauses events

/-- Whether there is nothing to wait for any more. -/
def IsOver (events : List Event) : Prop :=
  latestState events = .terminated ∨ .vanish ∈ events ∧ ¬IsPending events

@[simp] theorem publications_append (events later : List Event) :
    publications (events ++ later) = publications events ++ publications later :=
  List.filterMap_append

@[simp] theorem returnedPauses_append (events later : List Event) :
    returnedPauses (events ++ later) = returnedPauses events ++ returnedPauses later := by
  simp [returnedPauses, returnedStates]

@[simp] theorem results_append (events later : List Event) :
    results (events ++ later) = results events ++ results later :=
  List.filterMap_append

theorem latestState_of_quiet (h : publications later = []) :
    latestState (events ++ later) = latestState events := by
  rw [latestState, publications_append, h, List.append_nil, latestState]

/-- A state that shows itself as the latest has been published last, unless there was none. -/
theorem publications_of_latestState (h : latestState events ≠ .starting) :
    ∃ earlier, publications events = earlier ++ [latestState events] := by
  cases hlast : (publications events).getLast? with
  | none => simp [latestState, hlast] at h
  | some state =>
      obtain ⟨earlier, hearlier⟩ := List.getLast?_eq_some_iff.mp hlast
      exact ⟨earlier, by rw [latestState, hlast, Option.getD_some, hearlier]⟩

theorem publications_of_pause {pause : Nat × Nat} (h : (latestState events).pause? = some pause) :
    ∃ earlier, shownPauses (publications events) = earlier ++ [pause] := by
  have hstate : latestState events ≠ .starting := fun hstarting => by simp [hstarting] at h
  obtain ⟨earlier, hearlier⟩ := publications_of_latestState hstate
  exact ⟨shownPauses earlier, by rw [hearlier, shownPauses_append]; simp [shownPauses, h]⟩

/-! ### A look -/

/-- What a look can find: only where there is nothing in the state it matters whether the session is
gone. -/
theorem look_cases (h : Handle) (state : SessionState) :
    (∃ line pause, state = .suspended line pause ∧ h.lastPause < pause ∧
        ∀ gone, h.look ⟨state, gone⟩ = (.pause line, { h with lastPause := pause })) ∨
      (∀ gone, h.look ⟨state, gone⟩ = (.over, h)) ∨
      (state ≠ .terminated ∧ ∀ gone, h.look ⟨state, gone⟩ = (if gone then .over else .nothing, h)) := by
  cases state with
  | suspended line pause =>
      by_cases hnew : h.lastPause < pause
      · exact .inl ⟨line, pause, rfl, hnew, by simp [Handle.look, hnew]⟩
      · exact .inr (.inr ⟨by simp, by simp [Handle.look, hnew]⟩)
  | terminated => exact .inr (.inl fun _ => rfl)
  | _ => exact .inr (.inr ⟨by simp, fun _ => rfl⟩)

/-- What a call can do next. -/
theorem next_cases (h : w.next = some (event, v)) :
    (w.stage = .looking ∧ event = .look w.latest w.sight ∧ v = w.looked) ∨
      (w.stage = .waiting ∧ w.seen ≠ w.version ∧ event = .wake ∧
        v = { w with seen := w.version, stage := .looking }) ∨
      (w.stage = .waiting ∧ w.seen = w.version ∧ w.gone = true ∧ event = .leave w.latest ∧
        v = { w with stage := .idle }) := by
  cases hstage : w.stage with
  | idle => simp [next, hstage] at h
  | looking =>
      simp only [next, hstage, Option.some.injEq, Prod.mk.injEq] at h
      obtain ⟨rfl, rfl⟩ := h
      exact .inl ⟨rfl, rfl, rfl⟩
  | waiting =>
      simp only [next, hstage] at h
      split at h
      · rename_i hchanged
        cases h
        exact .inr (.inl ⟨rfl, hchanged, rfl, rfl⟩)
      · rename_i hsame
        split at h
        · rename_i hgone
          cases h
          exact .inr (.inr ⟨rfl, Decidable.not_not.mp hsame, hgone, rfl, rfl⟩)
        · cases h

/-! ### What the channel and the handle know -/

/-- A handle that remembers the last of the pauses that its calls have returned. -/
structure Recalls (events : List Event) (h : Handle) : Prop where
  returned : ∀ pause ∈ returnedPauses events,
    pause ∈ shownPauses (publications events) ∧ pause.2 ≤ h.lastPause.toNat
  increasing : (returnedPauses events).Pairwise (·.2 < ·.2)
  last : h.lastPause = 0 ∨ ∃ pause ∈ returnedPauses events, pause.2 = h.lastPause.toNat

theorem Recalls.kept {h : Handle} (hrecalls : Recalls events h)
    (hreturns : returnedPauses [event] = []) : Recalls (events ++ [event]) h where
  returned := by
    rw [returnedPauses_append, hreturns, List.append_nil]
    exact fun pause hpause => ⟨by simp [(hrecalls.returned pause hpause).1],
      (hrecalls.returned pause hpause).2⟩
  increasing := by simpa [hreturns] using hrecalls.increasing
  last := by simpa [hreturns] using hrecalls.last

/-- A pause behind the last one is behind all that have been returned. -/
theorem Recalls.pause {h : Handle} (hrecalls : Recalls events h) {line pause : UInt32}
    (hlatest : latestState events = .suspended line pause) (hnew : h.lastPause < pause) :
    Recalls (events ++ [.look (.suspended line pause) (.pause line)])
      { h with lastPause := pause } := by
  have hbehind : h.lastPause.toNat < pause.toNat := UInt32.lt_iff_toNat_lt.mp hnew
  have hnow : returnedPauses [.look (.suspended line pause) (.pause line)] =
      [(line.toNat, pause.toNat)] := rfl
  have hlatest : (latestState events).pause? = some (line.toNat, pause.toNat) := by simp [hlatest]
  obtain ⟨earlier, hearlier⟩ := publications_of_pause hlatest
  refine ⟨fun shown hshown => ?_, ?_, .inr ?_⟩
  · rw [returnedPauses_append, hnow, List.mem_append, List.mem_singleton] at hshown
    obtain hbefore | rfl := hshown
    · obtain ⟨hpublished, hle⟩ := hrecalls.returned shown hbefore
      exact ⟨by simp [hpublished], Nat.le_of_lt (Nat.lt_of_le_of_lt hle hbehind)⟩
    · exact ⟨by simp [hearlier], Nat.le_refl _⟩
  · rw [returnedPauses_append, hnow, List.pairwise_append]
    refine ⟨hrecalls.increasing, List.pairwise_singleton _ _, fun shown hshown new hnew => ?_⟩
    rw [List.mem_singleton.mp hnew]
    exact Nat.lt_of_le_of_lt (hrecalls.returned shown hshown).2 hbehind
  · exact ⟨(line.toNat, pause.toNat), by simp [hnow], rfl⟩

/-- A channel and a handle after some events. A call waits without a change only where it has found
nothing. -/
structure Knows (events : List Event) (w : Watching) : Prop where
  latest : w.latest = latestState events
  gone : w.gone = true ↔ .vanish ∈ events
  seen : w.seen ≤ w.version
  waits : w.stage = .waiting → w.seen = w.version → w.sight = .nothing
  recalls : Recalls events w.handle

theorem Knows.attached (session : String) : Knows [] (attached session) where
  latest := rfl
  gone := by simp [Watching.attached]
  seen := Nat.le_refl 0
  waits := by simp [Watching.attached]
  recalls := ⟨by simp [returnedPauses, returnedStates, shownPauses], .nil, .inl rfl⟩

/-- An event that publishes nothing leaves what is known of the channel as it is. -/
theorem Knows.kept (h : Knows events w) (hpublishes : publications [event] = [])
    (hvanish : event ≠ .vanish) (hlatest : v.latest = w.latest) (hgone : v.gone = w.gone)
    (hseen : v.seen ≤ v.version)
    (hwaits : v.stage = .waiting → v.seen = v.version → v.sight = .nothing)
    (hrecalls : Recalls (events ++ [event]) v.handle) : Knows (events ++ [event]) v where
  latest := by rw [hlatest, h.latest, latestState_of_quiet hpublishes]
  gone := by simp [hgone, h.gone, hvanish.symm]
  seen := hseen
  waits := hwaits
  recalls := hrecalls

theorem Knows.publish (h : Knows events w) (state : SessionState) :
    Knows (events ++ [.publish state]) { w with latest := state, version := w.version + 1 } where
  latest := by simp [latestState, publications]
  gone := by simp [h.gone]
  seen := Nat.le_succ_of_le h.seen
  waits := fun _ hsame => absurd hsame (Nat.ne_of_lt (Nat.lt_succ_of_le h.seen))
  recalls := h.recalls.kept rfl

theorem Knows.look (h : Knows events w) : Knows (events ++ [.look w.latest w.sight]) w.looked := by
  obtain ⟨line, pause, hlatest, hnew, hlook⟩ | hlook | ⟨-, hlook⟩ := look_cases w.handle w.latest
  · have hsight : w.sight = .pause line := by simp [sight, hlook]
    have hhandle : w.looked.handle = { w.handle with lastPause := pause } := by simp [looked, hlook]
    refine h.kept rfl (by simp) rfl rfl (Nat.le_refl _) (by simp [looked, hsight]) ?_
    rw [hsight, hhandle, hlatest]
    exact h.recalls.pause (h.latest.symm.trans hlatest) hnew
  · have hsight : w.sight = .over := by simp [sight, hlook]
    have hhandle : w.looked.handle = w.handle := by simp [looked, hlook]
    refine h.kept rfl (by simp) rfl rfl (Nat.le_refl _) (by simp [looked, hsight]) ?_
    rw [hsight, hhandle]
    exact h.recalls.kept rfl
  · have hsight : w.sight = .nothing := by simp [sight, hlook]
    have hhandle : w.looked.handle = w.handle := by simp [looked, hlook]
    refine h.kept rfl (by simp) rfl rfl (Nat.le_refl _) (fun _ _ => ?_) ?_
    · rw [sight, hhandle]
      exact hsight
    · rw [hsight, hhandle]
      exact h.recalls.kept rfl

theorem Knows.step (h : Knows events w) (hstep : Step w event v) : Knows (events ++ [event]) v := by
  cases hstep with
  | publish hthere => exact h.publish _
  | vanish =>
      refine ⟨?_, by simp, h.seen, h.waits, h.recalls.kept rfl⟩
      rw [latestState_of_quiet rfl, ← h.latest]
  | call hidle => exact h.kept rfl (by simp) rfl rfl h.seen (by simp) (h.recalls.kept rfl)
  | cancel hcalled => exact h.kept rfl (by simp) rfl rfl h.seen (by simp) (h.recalls.kept rfl)
  | next hnext =>
      obtain ⟨-, rfl, rfl⟩ | ⟨-, -, rfl, rfl⟩ | ⟨-, -, -, rfl, rfl⟩ := next_cases hnext
      · exact h.look
      · exact h.kept rfl (by simp) rfl rfl (Nat.le_refl _) (by simp) (h.recalls.kept rfl)
      · exact h.kept rfl (by simp) rfl rfl h.seen (by simp) (h.recalls.kept rfl)

theorem Knows.steps (h : Knows events w) (hsteps : Steps w later v) : Knows (events ++ later) v := by
  induction hsteps generalizing events with
  | refl => simpa using h
  | step hstep _ ih => simpa using ih (h.step hstep)

/-- Pauses that have not been returned, but are the latest state, are behind the last one returned. -/
theorem Knows.lastPause_lt (h : Knows events w) (hpublished : Ordered (publications events))
    {pause : Nat × Nat} (hlatest : (latestState events).pause? = some pause)
    (hnew : pause ∉ returnedPauses events) : w.handle.lastPause.toNat < pause.2 := by
  obtain ⟨earlier, hearlier⟩ := publications_of_pause hlatest
  obtain hnone | ⟨returned, hreturned, hlast⟩ := h.recalls.last
  · have hpositive := hpublished.positive pause (by simp [hearlier])
    simpa [hnone] using hpositive
  · have hmem := (h.recalls.returned returned hreturned).1
    have hsorted := hpublished.increasing
    rw [hearlier] at hmem hsorted
    rw [← hlast]
    obtain hbefore | hsame := List.mem_append.mp hmem
    · exact (List.pairwise_append.mp hsorted).2.2 returned hbefore pause (List.mem_singleton_self _)
    · exact absurd (List.mem_singleton.mp hsame ▸ hreturned) hnew

/-- A look finds a pause exactly if the latest state is one that has not been returned. -/
theorem Knows.look_iff (h : Knows events w) (hpublished : Ordered (publications events))
    (line : UInt32) :
    w.sight = .pause line ↔
      ∃ number, (latestState events).pause? = some (line.toNat, number) ∧
        (line.toNat, number) ∉ returnedPauses events := by
  constructor
  · intro hfound
    obtain ⟨line', pause, hlatest, hnew, hlook⟩ | hlook | ⟨-, hlook⟩ :=
      look_cases w.handle w.latest
    · obtain rfl : line' = line := by simpa [sight, hlook] using hfound
      refine ⟨pause.toNat, by rw [← h.latest, hlatest]; rfl, fun hreturned => ?_⟩
      have hbefore := (h.recalls.returned _ hreturned).2
      exact absurd hbefore (Nat.not_le_of_lt (UInt32.lt_iff_toNat_lt.mp hnew))
    · simp [sight, hlook] at hfound
    · simp [sight, hlook] at hfound
  · rintro ⟨number, hlatest, hnew⟩
    have hlater := h.lastPause_lt hpublished hlatest hnew
    rw [← h.latest] at hlatest
    cases hstate : w.latest with
    | suspended line' pause =>
        obtain ⟨hline, rfl⟩ : line'.toNat = line.toNat ∧ pause.toNat = number := by
          simpa [hstate] using hlatest
        have hbehind : w.handle.lastPause < pause := UInt32.lt_iff_toNat_lt.mpr hlater
        simp [sight, hstate, Handle.look, hbehind, UInt32.toNat_inj.mp hline]
    | _ => simp [hstate] at hlatest

/-! ### Calls that end -/

/-- What a handle finds that sees whether the session is gone: what a look finds, or else that. -/
theorem result_cases {result : Option UInt32}
    (hresult : (w.handle.look ⟨w.latest, w.gone⟩).1.result? = some result) :
    (w.sight ≠ .nothing ∧ w.sight.result? = some result) ∨
      (w.sight = .nothing ∧ w.gone = true ∧ result = none) := by
  obtain ⟨line, pause, -, -, hlook⟩ | hlook | ⟨-, hlook⟩ := look_cases w.handle w.latest
  · exact .inl (by simpa [sight, hlook] using hresult)
  · exact .inl (by simpa [sight, hlook] using hresult)
  · cases hgone : w.gone with
    | false => simp [hgone, hlook, Sight.result?] at hresult
    | true =>
        refine .inr ⟨by simp [sight, hlook], rfl, ?_⟩
        simpa [hgone, hlook, Sight.result?, eq_comm] using hresult

theorem next_of_gone (hstage : w.stage = .waiting) (hsame : w.seen = w.version)
    (hgone : w.gone = true) : w.next = some (.leave w.latest, { w with stage := .idle }) := by
  simp [next, hstage, hsame, hgone]

/-- A call that is going to look ends if there is something to find, be it that the session is gone. -/
theorem completes_of_looking (hstage : w.stage = .looking) {result : Option UInt32}
    (hresult : (w.handle.look ⟨w.latest, w.gone⟩).1.result? = some result) :
    ∃ own u, Own w own u ∧ own.length ≤ 2 ∧ u.stage = .idle ∧ results own = [result] := by
  have hlook : w.next = some (.look w.latest w.sight, w.looked) := by simp only [next, hstage]
  obtain ⟨hfound, hsight⟩ | ⟨hnothing, hgone, rfl⟩ := result_cases hresult
  · refine ⟨_, _, .step hlook (.refl _), by simp, by simp [looked, hfound], ?_⟩
    simp [results, Event.result?, hsight]
  · have hstays : w.looked.stage = .waiting := by simp [looked, hnothing]
    refine ⟨_, _, .step hlook (.step (next_of_gone hstays rfl hgone) (.refl _)), by simp, rfl, ?_⟩
    simp [results, Event.result?, Sight.result?, hnothing]

/-- So does any call: one that waits without a change has found nothing, and can only leave. -/
theorem Knows.completes (h : Knows events w) (hcalled : w.stage ≠ .idle) {result : Option UInt32}
    (hresult : (w.handle.look ⟨w.latest, w.gone⟩).1.result? = some result) :
    ∃ own u, Own w own u ∧ own.length ≤ 3 ∧ u.stage = .idle ∧ results own = [result] := by
  cases hstage : w.stage with
  | idle => exact absurd hstage hcalled
  | looking =>
      obtain ⟨own, u, hown, hlength, hend⟩ := completes_of_looking hstage hresult
      exact ⟨own, u, hown, Nat.le_succ_of_le hlength, hend⟩
  | waiting =>
      by_cases hsame : w.seen = w.version
      · obtain ⟨hfound, -⟩ | ⟨-, hgone, rfl⟩ := result_cases hresult
        · exact absurd (h.waits hstage hsame) hfound
        · exact ⟨_, _, .step (next_of_gone hstage hsame hgone) (.refl _), by simp, rfl, rfl⟩
      · have hwake : w.next = some (.wake, { w with seen := w.version, stage := .looking }) := by
          simp [next, hstage, hsame]
        obtain ⟨own, u, hown, hlength, hend, hresults⟩ :=
          completes_of_looking (w := { w with seen := w.version, stage := .looking }) rfl hresult
        exact ⟨.wake :: own, u, .step hwake hown, Nat.succ_le_succ hlength, hend, hresults⟩

/-! ### Whole histories -/

theorem Steps.split (h : Steps w (events ++ later) u) :
    ∃ v, Steps w events v ∧ Steps v later u := by
  induction events generalizing w with
  | nil => exact ⟨w, .refl w, h⟩
  | cons event events ih =>
      cases h with
      | step hstep hsteps =>
          obtain ⟨v, hfirst, hlater⟩ := ih hsteps
          exact ⟨v, .step hstep hfirst, hlater⟩

/-- A session that is gone stays away and publishes nothing. -/
theorem Step.quiet_of_gone (h : Step w event v) (hgone : w.gone = true) :
    publications [event] = [] ∧ v.gone = true := by
  cases h with
  | publish hthere => simp [hgone] at hthere
  | vanish => exact ⟨rfl, rfl⟩
  | call | cancel => exact ⟨rfl, hgone⟩
  | next hnext =>
      obtain ⟨-, rfl, rfl⟩ | ⟨-, -, rfl, rfl⟩ | ⟨-, -, -, rfl, rfl⟩ := next_cases hnext <;>
        exact ⟨rfl, hgone⟩

theorem Steps.quiet_of_gone (h : Steps w later v) (hgone : w.gone = true) :
    publications later = [] := by
  induction h with
  | refl => rfl
  | @step w v u event events hstep hsteps ih =>
      obtain ⟨hquiet, hstays⟩ := hstep.quiet_of_gone hgone
      rw [← List.singleton_append, publications_append, hquiet, ih hstays, List.nil_append]

/-- The lines that calls return are those of the pauses they have found. -/
theorem Step.lines (h : Step w event v) :
    ((results [event]).filterMap id).map (·.toNat) = (returnedPauses [event]).map (·.1) := by
  cases h with
  | next hnext =>
      obtain ⟨-, rfl, -⟩ | ⟨-, -, rfl, -⟩ | ⟨-, -, -, rfl, -⟩ := next_cases hnext
      · obtain ⟨line, pause, hlatest, -, hlook⟩ | hlook | ⟨-, hlook⟩ := look_cases w.handle w.latest
        · have hsight : w.sight = .pause line := by simp [sight, hlook]
          rw [hsight, hlatest]
          rfl
        · have hsight : w.sight = .over := by simp [sight, hlook]
          rw [hsight]
          rfl
        · have hsight : w.sight = .nothing := by simp [sight, hlook]
          rw [hsight]
          rfl
      · rfl
      · rfl
  | _ => rfl

theorem Steps.lines (h : Steps w events v) :
    ((results events).filterMap id).map (·.toNat) = (returnedPauses events).map (·.1) := by
  induction h with
  | refl => rfl
  | @step w v u event events hstep hsteps ih =>
      rw [← List.singleton_append, results_append, returnedPauses_append, List.filterMap_append,
        List.map_append, List.map_append, hstep.lines, ih]

/-- When there is nothing to wait for, there is no pause to be returned. -/
theorem IsOver.not_pending (h : IsOver events) : ¬IsPending events := by
  obtain hterminated | ⟨-, hnone⟩ := h
  · rintro ⟨pause, hlatest, -⟩
    simp [hterminated] at hlatest
  · exact hnone

/-- When there is nothing to wait for, there never will be. -/
theorem IsOver.stays {session : String} (h : IsOver before)
    (hsteps : Steps (attached session) (before ++ after) w)
    (hpublished : Ordered (publications (before ++ after))) : IsOver (before ++ after) := by
  obtain ⟨v, hbefore, hafter⟩ := hsteps.split
  have hquiet : publications after = [] := by
    obtain hterminated | ⟨hvanished, -⟩ := h
    · have hstate : latestState before ≠ .starting := by simp [hterminated]
      obtain ⟨earlier, hearlier⟩ := publications_of_latestState hstate
      exact hpublished.last earlier _ (by simp [hearlier, hterminated])
    · exact hafter.quiet_of_gone (((Knows.attached session).steps hbefore).gone.mpr hvanished)
  obtain hterminated | ⟨hvanished, hnone⟩ := h
  · exact .inl (by rw [latestState_of_quiet hquiet, hterminated])
  · refine .inr ⟨List.mem_append_left _ hvanished, ?_⟩
    rintro ⟨pause, hlatest, hnew⟩
    rw [latestState_of_quiet hquiet] at hlatest
    exact hnone ⟨pause, hlatest, fun hreturned => hnew (by simp [hreturned])⟩

/-- What a look in a history has found. -/
theorem Steps.look {session : String} {state : SessionState} {sight : Sight}
    (hsteps : Steps (attached session) (before ++ .look state sight :: after) w)
    (hpublished : Ordered (publications before)) :
    state = latestState before ∧
      ∀ line, sight = .pause line ↔
        ∃ number, (latestState before).pause? = some (line.toNat, number) ∧
          (line.toNat, number) ∉ returnedPauses before := by
  obtain ⟨v, hbefore, hlater⟩ := hsteps.split
  have hknows := (Knows.attached session).steps hbefore
  cases hlater with
  | step hstep _ =>
      cases hstep with
      | next hnext =>
          obtain ⟨-, hlook, -⟩ | ⟨-, -, hlook, -⟩ | ⟨-, -, -, hlook, -⟩ := next_cases hnext
          · cases hlook
            exact ⟨hknows.latest, hknows.look_iff hpublished⟩
          · cases hlook
          · cases hlook

/-- When there is nothing to wait for, calls return nothing. -/
theorem Steps.none_of_over {session : String} (hsteps : Steps (attached session) (before ++ after) w)
    (hpublished : Ordered (publications (before ++ after))) (hover : IsOver before) :
    ∀ result ∈ results after, result = none := by
  intro result hresult
  obtain ⟨event, hevent, hreturns⟩ := List.mem_filterMap.mp hresult
  obtain ⟨between, rest, rfl⟩ := List.append_of_mem hevent
  cases event with
  | look state sight =>
      cases sight with
      | pause line =>
          rw [← List.append_assoc] at hsteps hpublished
          rw [publications_append] at hpublished
          obtain ⟨v, hbefore, -⟩ := hsteps.split
          have hstill : IsOver (before ++ between) := hover.stays hbefore hpublished.of_append
          obtain ⟨number, hpending⟩ := ((hsteps.look hpublished.of_append).2 line).mp rfl
          exact absurd ⟨_, hpending⟩ hstill.not_pending
      | nothing => cases hreturns
      | _ => exact (Option.some.inj hreturns).symm
  | leave state => exact (Option.some.inj hreturns).symm
  | _ => cases hreturns

/-- A call gets a pause that is there to be returned. -/
theorem Knows.result_of_pending (h : Knows events w) (hpublished : Ordered (publications events))
    (hpending : IsPending events) :
    ∃ line, (w.handle.look ⟨w.latest, w.gone⟩).1.result? = some (some line) ∧
      (latestState events).pause?.map (·.1) = some line.toNat := by
  obtain ⟨pause, hlatest, hnew⟩ := hpending
  have hlater := h.lastPause_lt hpublished hlatest hnew
  rw [h.latest]
  cases hstate : latestState events with
  | suspended line number =>
      rw [hstate] at hlatest
      obtain rfl := Option.some.inj hlatest
      have hbehind : w.handle.lastPause < number := UInt32.lt_iff_toNat_lt.mpr hlater
      exact ⟨line, by simp [Handle.look, hbehind, Sight.result?], rfl⟩
  | _ => simp [hstate] at hlatest

/-- A call finds that there is nothing to wait for. -/
theorem Knows.result_of_over (h : Knows events w) (hpublished : Ordered (publications events))
    (hover : IsOver events) : (w.handle.look ⟨w.latest, w.gone⟩).1.result? = some none := by
  obtain ⟨line, pause, -, -, hlook⟩ | hlook | ⟨hstate, hlook⟩ := look_cases w.handle w.latest
  · have hsight : w.sight = .pause line := by simp [sight, hlook]
    obtain ⟨number, hpending⟩ := (h.look_iff hpublished line).mp hsight
    exact absurd ⟨_, hpending⟩ hover.not_pending
  · simp [hlook, Sight.result?]
  · obtain hterminated | ⟨hvanished, -⟩ := hover
    · exact absurd (h.latest.trans hterminated) hstate
    · simp [hlook, h.gone.mpr hvanished, Sight.result?]

/-! ### One call -/

/-- What a handle sees of its session when it looks, and when it leaves. -/
def snapshots (events : List Event) : List Watched :=
  events.filterMap fun
    | .look state _ => some ⟨state, false⟩
    | .leave state => some ⟨state, true⟩
    | _ => none

theorem snapshots_cons (event : Event) (events : List Event) :
    snapshots (event :: events) = snapshots [event] ++ snapshots events := by
  rw [← List.singleton_append, snapshots, List.filterMap_append]
  rfl

/-- With an event that returns nothing a handle has not looked, or has found nothing. -/
theorem Step.snapshots_of_none (h : Step w event v) (hnone : event.result? = none) :
    (snapshots [event] = [] ∧ v.handle = w.handle) ∨
      ∃ snapshot, snapshots [event] = [snapshot] ∧ w.handle.look snapshot = (.nothing, v.handle) := by
  cases h with
  | next hnext =>
      obtain ⟨-, rfl, rfl⟩ | ⟨-, -, rfl, rfl⟩ | ⟨-, -, -, rfl, rfl⟩ := next_cases hnext
      · refine .inr ⟨⟨w.latest, false⟩, rfl, Prod.ext ?_ rfl⟩
        cases hsight : w.sight with
        | nothing => exact hsight
        | _ => simp [Event.result?, hsight, Sight.result?] at hnone
      · exact .inl ⟨rfl, rfl⟩
      · cases hnone
  | _ => exact .inl ⟨rfl, rfl⟩

/-- With an event that returns a handle has seen what is returned. -/
theorem Knows.snapshots_of_result (h : Knows events w) (hstep : Step w event v)
    {result : Option UInt32} (hresult : event.result? = some result) :
    ∃ snapshot sight, snapshots [event] = [snapshot] ∧
      w.handle.look snapshot = (sight, v.handle) ∧ sight.result? = some result := by
  cases hstep with
  | next hnext =>
      obtain ⟨-, rfl, rfl⟩ | ⟨-, -, rfl, rfl⟩ | ⟨hstage, hsame, -, rfl, rfl⟩ := next_cases hnext
      · exact ⟨⟨w.latest, false⟩, w.sight, rfl, rfl, hresult⟩
      · cases hresult
      · refine ⟨⟨w.latest, true⟩, .over, rfl, ?_, hresult⟩
        have hnothing := h.waits hstage hsame
        obtain ⟨line, pause, -, -, hlook⟩ | hlook | ⟨-, hlook⟩ := look_cases w.handle w.latest
        · simp [sight, hlook] at hnothing
        · exact hlook true
        · exact hlook true
  | _ => cases hresult

/-- A call returns what waiting returns on the snapshots that its handle has seen in the meantime. -/
theorem Knows.waitSuspended (h : Knows before w) (hsteps : Steps w (later ++ [event]) v)
    (hlater : results later = []) {result : Option UInt32} (hresult : event.result? = some result) :
    w.handle.waitSuspended (snapshots (later ++ [event])) = some (result, v.handle, []) := by
  induction later generalizing before w with
  | nil =>
      cases hsteps with
      | step hstep hnone =>
          cases hnone
          obtain ⟨snapshot, sight, hseen, hlook, hreturns⟩ := h.snapshots_of_result hstep hresult
          rw [List.nil_append, hseen, Handle.waitSuspended, hlook]
          cases sight with
          | nothing => cases hreturns
          | _ => cases hreturns; rfl
  | cons first later ih =>
      have hnone := List.filterMap_eq_nil_iff.mp hlater
      have hquiet : results later = [] :=
        List.filterMap_eq_nil_iff.mpr fun event hmem => hnone event (List.mem_cons_of_mem _ hmem)
      cases hsteps with
      | step hstep hsteps =>
          have hrest := ih (h.step hstep) hsteps hquiet
          rw [List.cons_append, snapshots_cons]
          obtain ⟨hseen, hhandle⟩ | ⟨snapshot, hseen, hlook⟩ :=
            hstep.snapshots_of_none (hnone first List.mem_cons_self)
          · rwa [hseen, List.nil_append, ← hhandle]
          · rw [hseen, List.singleton_append, Handle.waitSuspended, hlook]
            exact hrest

/-- What a controller can rely on: the pauses that its calls return, what each look finds, and that
its calls end when there is a pause to be returned, or nothing to wait for. -/
theorem pauses_returned {session : String} (h : Steps (attached session) events w)
    (hpublished : Ordered (publications events)) :
    (((results events).filterMap id).map (·.toNat) = (returnedPauses events).map (·.1) ∧
      (returnedPauses events).Pairwise (·.2 < ·.2) ∧
      ∀ pause ∈ returnedPauses events, pause ∈ shownPauses (publications events)) ∧
    (∀ before state sight after, events = before ++ .look state sight :: after →
      state = latestState before ∧
        ∀ line, sight = .pause line ↔
          ∃ number, (latestState before).pause? = some (line.toNat, number) ∧
            (line.toNat, number) ∉ returnedPauses before) ∧
    (IsPending events → w.stage ≠ .idle →
      ∃ own u line, Own w own u ∧ own.length ≤ 3 ∧ u.stage = .idle ∧ results own = [some line] ∧
        (latestState events).pause?.map (·.1) = some line.toNat) ∧
    ∀ before after, events = before ++ after → IsOver before →
      (∀ result ∈ results after, result = none) ∧
      (w.stage ≠ .idle →
        ∃ own u, Own w own u ∧ own.length ≤ 3 ∧ u.stage = .idle ∧ results own = [none]) := by
  have hknows := (Knows.attached session).steps h
  refine ⟨⟨h.lines, hknows.recalls.increasing,
    fun pause hpause => (hknows.recalls.returned pause hpause).1⟩,
    ?_, ?_, ?_⟩
  · rintro before state sight after rfl
    rw [publications_append] at hpublished
    exact h.look hpublished.of_append
  · intro hpending hcalled
    obtain ⟨line, hresult, hline⟩ := hknows.result_of_pending hpublished hpending
    obtain ⟨own, u, hown, hlength, hend, hresults⟩ := hknows.completes hcalled hresult
    exact ⟨own, u, line, hown, hlength, hend, hresults, hline⟩
  · rintro before after rfl hover
    have hstill := hover.stays h hpublished
    exact ⟨h.none_of_over hpublished hover, fun hcalled =>
      hknows.completes hcalled (hknows.result_of_over hpublished hstill)⟩

/-- A controller that does not see every state: it gets two pauses in line four, then it misses one in
line six for one in line nine, and at last it learns that the session is over. -/
def watched : List Event :=
  [.call, .look .starting .nothing, .publish .running, .publish (.suspended 4 1), .wake,
    .look (.suspended 4 1) (.pause 4), .publish .running, .publish (.suspended 4 2), .call,
    .look (.suspended 4 2) (.pause 4), .publish (.suspended 6 3), .publish (.suspended 9 4), .call,
    .look (.suspended 9 4) (.pause 9), .call, .look (.suspended 9 4) .nothing,
    .publish .terminated, .vanish, .wake, .look .terminated .over]

theorem watched_returned :
    ∃ w, Steps (attached "session") watched w ∧ Ordered (publications watched) ∧
      ((results watched).filterMap id).map (·.toNat) = (returnedPauses watched).map (·.1) ∧
      results watched = [some 4, some 4, some 9, none] := by
  have hsteps : ∃ w, Steps (attached "session") watched w :=
    ⟨_, .step (.call rfl) <| .step (.next rfl) <| .step (.publish rfl) <| .step (.publish rfl) <|
      .step (.next rfl) <| .step (.next rfl) <| .step (.publish rfl) <| .step (.publish rfl) <|
      .step (.call rfl) <| .step (.next rfl) <| .step (.publish rfl) <| .step (.publish rfl) <|
      .step (.call rfl) <| .step (.next rfl) <| .step (.call rfl) <| .step (.next rfl) <|
      .step (.publish rfl) <| .step .vanish <| .step (.next rfl) <| .step (.next rfl) <| .refl _⟩
  have hordered : Ordered (publications watched) :=
    @Ordered.of_states [.running, .suspended 4 1, .running, .suspended 4 2, .suspended 6 3,
      .suspended 9 4] [.terminated] (by decide) (.inr rfl) (by decide) (by decide)
  obtain ⟨w, hsteps⟩ := hsteps
  exact ⟨w, hsteps, hordered, (pauses_returned hsteps hordered).1.1, by decide⟩

end Watching

end ScriptHost.Inspector
