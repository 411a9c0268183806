import ScriptHost.Inspector.Course

/-!
# What a session publishes

The states that a session publishes are determined by what it has heard. `reportedPauses` are the
pauses that the inspector reports before the controller is known to be gone, and `heldLines` are the
lines of those at which the script is held: all of them but a first one that hit no breakpoint.
`Course.states_published` says that a session publishes a state for each of these, numbers them, and
publishes nothing but `running` between them.

Lines and pauses are counted from one within 32 bits. The count starts again at zero behind the last
number, so that a line of `maxLine` or more is published as line zero.
-/

namespace ScriptHost.Inspector

/-- The line that a message gives for the innermost frame of a pause, counted from zero. -/
def lineNumber (message : String) : Nat :=
  let path : List (String ⊕ Nat) :=
    [.inl "params", .inl "callFrames", .inr 0, .inl "location", .inl "lineNumber"]
  (((Json.read? message).bind (Json.Value.at? path)).bind Json.Value.unsigned64?).getD 0

/-- The line, and whether a breakpoint was hit, if an input reports a pause. -/
def Input.pause? : Input → Option (Nat × Bool)
  | .message text =>
    match event? text with
    | some (.paused _ _ hitBreakpoint) => some (lineNumber text, hitBreakpoint)
    | _ => none
  | _ => none

/-- Whether an input is the loss of the controller. -/
def Input.isLoss : Input → Bool
  | .controllerLost => true
  | _ => false

/-- The pauses that inputs report before the controller is known to be gone. -/
def reportedPauses (inputs : List Input) : List (Nat × Bool) :=
  (inputs.takeWhile (!·.isLoss)).filterMap (·.pause?)

/-- The lines of pauses at which a script is held. -/
def heldLines : List (Nat × Bool) → List Nat
  | (_, false) :: later => later.map (·.1)
  | pauses => pauses.map (·.1)

/-- The line and the number of the pause that a state shows. -/
def SessionState.pause? : SessionState → Option (Nat × Nat)
  | .suspended line pause => some (line.toNat, pause.toNat)
  | _ => none

@[simp] theorem SessionState.pause?_suspended (line pause : UInt32) :
    (suspended line pause).pause? = some (line.toNat, pause.toNat) := rfl

@[simp] theorem SessionState.pause?_starting : starting.pause? = none := rfl

@[simp] theorem SessionState.pause?_running : running.pause? = none := rfl

@[simp] theorem SessionState.pause?_terminated : terminated.pause? = none := rfl

/-- The lines and the numbers of the pauses among some states. -/
def shownPauses (states : List SessionState) : List (Nat × Nat) :=
  states.filterMap (·.pause?)

/-- Lines with the numbers of their pauses, all of them counted from one within 32 bits. -/
def numbered (lines : List Nat) : List (Nat × Nat) :=
  lines.mapIdx fun i line => ((min line maxLine + 1) % UInt32.size, (i + 1) % UInt32.size)

/-! ### Pauses and their numbers -/

section Lists

variable {inputs : List Input} {input : Input}

theorem Input.pause?_of_isLoss (h : input.isLoss = true) : input.pause? = none := by
  cases input <;> first | rfl | cases h

theorem reportedPauses_cons (input : Input) (inputs : List Input) :
    reportedPauses (input :: inputs) =
      if input.isLoss then [] else input.pause?.toList ++ reportedPauses inputs := by
  cases hloss : input.isLoss <;> cases hpause : input.pause? <;>
    simp [reportedPauses, List.takeWhile, hloss, hpause]

/-- Once the controller is gone, no report counts. -/
theorem reportedPauses_append (inputs : List Input) (input : Input) :
    reportedPauses (inputs ++ [input]) =
      reportedPauses inputs ++ if inputs.any (·.isLoss) then [] else input.pause?.toList := by
  induction inputs with
  | nil =>
      rw [List.nil_append, reportedPauses_cons]
      cases hloss : input.isLoss with
      | false => simp [reportedPauses]
      | true => simp [reportedPauses, Input.pause?_of_isLoss hloss]
  | cons first rest ih =>
      simp only [List.cons_append, reportedPauses_cons, ih, List.any_cons]
      by_cases hloss : first.isLoss <;> simp [hloss]

theorem heldLines_append (pauses : List (Nat × Bool)) (line : Nat) (hitBreakpoint : Bool) :
    heldLines (pauses ++ [(line, hitBreakpoint)]) =
      heldLines pauses ++ if pauses.isEmpty && !hitBreakpoint then [] else [line] := by
  cases pauses with
  | nil => cases hitBreakpoint <;> rfl
  | cons pause pauses =>
      obtain ⟨first, _ | _⟩ := pause <;> simp [heldLines]

theorem numbered_append (lines : List Nat) (line : Nat) :
    numbered (lines ++ [line]) =
      numbered lines ++ [((min line maxLine + 1) % UInt32.size, (lines.length + 1) % UInt32.size)] := by
  simp [numbered, List.mapIdx_append]

/-- Where nothing wraps around, lines count from one, and so do the pauses. -/
theorem numbered_eq {lines : List Nat} (hlines : ∀ line ∈ lines, line < maxLine)
    (hlength : lines.length < UInt32.size) :
    numbered lines = lines.mapIdx fun i line => (line + 1, i + 1) := by
  have hmax : maxLine + 1 = 4294967296 := by decide
  refine List.ext_getElem (by simp [numbered]) fun i hi _ => ?_
  have hi : i < lines.length := by simpa [numbered] using hi
  have hline := hlines _ (List.getElem_mem hi)
  simp only [numbered, List.getElem_mapIdx, Prod.mk.injEq, UInt32.size] at hlength ⊢
  omega

/-- Fewer pauses than there are numbers have increasing numbers from one on. -/
theorem numbered_increasing {lines : List Nat} (hlength : lines.length < UInt32.size) :
    (numbered lines).Pairwise (·.2 < ·.2) ∧ ∀ pause ∈ numbered lines, 0 < pause.2 := by
  refine ⟨List.pairwise_iff_getElem.mpr fun i j hi hj hlt => ?_, fun pause hpause => ?_⟩
  · have hj : j < lines.length := by simpa [numbered] using hj
    simp only [numbered, List.getElem_mapIdx, UInt32.size] at hlength ⊢
    omega
  · obtain ⟨i, hi, rfl⟩ := List.mem_iff_getElem.mp hpause
    have hi : i < lines.length := by simpa [numbered] using hi
    simp only [numbered, List.getElem_mapIdx, UInt32.size] at hlength ⊢
    omega

@[simp] theorem shownPauses_append (states later : List SessionState) :
    shownPauses (states ++ later) = shownPauses states ++ shownPauses later :=
  List.filterMap_append

end Lists

/-! ### One input -/

/-- An event that reports a pause has the line of its message, or the largest line. -/
theorem line_of_event {text reason : String} {line : Nat} {hitBreakpoint : Bool}
    (h : event? text = some (.paused reason line hitBreakpoint)) :
    line = min (lineNumber text) maxLine := by
  simp only [event?, Option.bind_eq_bind, Option.bind_eq_some_iff] at h
  obtain ⟨value, hread, h⟩ := h
  split at h
  · cases h
  · obtain ⟨method, -, h⟩ := Option.bind_eq_some_iff.mp h
    unfold notification? at h
    split at h
    · obtain ⟨params, hparams, h⟩ := Option.bind_eq_some_iff.mp h
      cases h
      simp [pausedLine, lineNumber, hread, Json.Value.at?, hparams]
    all_goals cases h

namespace Session

variable {s s' : Session} {inputs : List Input} {input : Input} {line : Nat} {hitBreakpoint : Bool}

@[simp] theorem statesOf_append (effects later : List Effect) :
    statesOf (effects ++ later) = statesOf effects ++ statesOf later :=
  List.filterMap_append

theorem react_of_pause (h : input.pause? = some (line, hitBreakpoint)) :
    s.react input = s.pause (.ofNat (min line maxLine)) hitBreakpoint := by
  cases input with
  | message text =>
      rw [Input.pause?] at h
      split at h
      · rename_i reason line' hit hevent
        cases h
        simp only [react, hevent, onEvent, line_of_event hevent]
      · cases h
  | _ => cases h

/-- An input that reports no pause leaves the count of them alone. -/
theorem react_of_no_pause (h : input.pause? = none) :
    shownPauses (statesOf (s.react input).effects) = [] ∧
      ∀ s', (s.react input).next = .inl s' →
        s'.controllerGone = (s.controllerGone || input.isLoss) ∧ s'.sawPause = s.sawPause ∧
          s'.pauses = s.pauses := by
  cases input with
  | message text =>
      cases hevent : event? text with
      | none => simp [react, hevent, statesOf, shownPauses, Input.isLoss]
      | some event =>
          cases event with
          | paused reason line hit => simp [Input.pause?, hevent] at h
          | resumed =>
              by_cases hheld : s.isSuspended <;>
                simp [react, hevent, onEvent, hheld, entering, statesOf, shownPauses, Input.isLoss]
          | _ => simp [react, hevent, onEvent, statesOf, shownPauses, Input.isLoss]
  | command c =>
      cases c <;> simp [react, onCommand, entering, statesOf, shownPauses, Input.isLoss]
  | _ => simp [react, entering, statesOf, shownPauses, Input.isLoss]

/-- A pause that nothing can hold is resumed, and nothing is published. -/
theorem pause_resumed {line : UInt32}
    (h : s.sawPause = false ∧ hitBreakpoint = false ∨ s.controllerGone = true) :
    s.pause line hitBreakpoint = ⟨[.call .resume], .inl { s with sawPause := true }⟩ := by
  have hresumed : (!s.sawPause && !hitBreakpoint || s.controllerGone) = true := by simpa using h
  simp only [pause, hresumed, if_true]

theorem pause_held {line : UInt32}
    (h : ¬(s.sawPause = false ∧ hitBreakpoint = false ∨ s.controllerGone = true)) :
    s.pause line hitBreakpoint =
      ⟨[.publish (.suspended (line + 1) (s.pauses + 1))],
        .inl ⟨.suspended (line + 1) (s.pauses + 1), s.pauses + 1, true, s.controllerGone⟩⟩ := by
  have hheld : (!s.sawPause && !hitBreakpoint || s.controllerGone) = false := by simpa using h
  simp [pause, hheld, entering]

/-- Whether a session has taken notice of some inputs. -/
structure Follows (s : Session) (inputs : List Input) : Prop where
  gone : s.controllerGone = inputs.any (·.isLoss)
  saw : s.controllerGone = false → s.sawPause = !(reportedPauses inputs).isEmpty
  pauses : s.pauses = .ofNat (heldLines (reportedPauses inputs)).length

theorem Follows.released : released.Follows [] :=
  ⟨rfl, fun _ => rfl, rfl⟩

/-- Whether a script is held at a pause. -/
theorem Follows.heldLines_append (h : s.Follows inputs)
    (hpause : input.pause? = some (line, hitBreakpoint)) :
    heldLines (reportedPauses (inputs ++ [input])) =
      heldLines (reportedPauses inputs) ++
        if s.sawPause = false ∧ hitBreakpoint = false ∨ s.controllerGone = true then []
        else [line] := by
  cases hgone : s.controllerGone with
  | true => simp [reportedPauses_append, ← h.gone, hgone]
  | false =>
      have hsaw := h.saw hgone
      rw [reportedPauses_append, ← h.gone, hgone, hpause]
      simp [Inspector.heldLines_append, hsaw]

/-- What a session has to do with an input when it follows the inputs before it. -/
def Follows.Continues (s : Session) (inputs : List Input) (input : Input) : Prop :=
  (∀ s', (s.react input).next = .inl s' → s'.Follows (inputs ++ [input])) ∧
    numbered (heldLines (reportedPauses (inputs ++ [input]))) =
      numbered (heldLines (reportedPauses inputs)) ++
        shownPauses (statesOf (s.react input).effects)

theorem Follows.continues_of_no_pause (h : s.Follows inputs) (hpause : input.pause? = none) :
    Follows.Continues s inputs input := by
  obtain ⟨hshown, hkept⟩ := react_of_no_pause (s := s) hpause
  have hreported : reportedPauses (inputs ++ [input]) = reportedPauses inputs := by
    simp [reportedPauses_append, hpause]
  refine ⟨fun s' hnext => ?_, by rw [hreported, hshown, List.append_nil]⟩
  obtain ⟨hgone, hsaw, hpauses⟩ := hkept s' hnext
  refine ⟨by simp [hgone, h.gone], fun hpresent => ?_, by rw [hpauses, hreported, h.pauses]⟩
  have hbefore : s.controllerGone = false := by simp_all
  rw [hsaw, hreported, h.saw hbefore]

theorem Follows.continues_of_pause (h : s.Follows inputs)
    (hpause : input.pause? = some (line, hitBreakpoint)) : Follows.Continues s inputs input := by
  have hgone : s.controllerGone = (inputs ++ [input]).any (·.isLoss) := by
    cases hloss : input.isLoss with
    | false => simp [h.gone, hloss]
    | true => simp [Input.pause?_of_isLoss hloss] at hpause
  have hsaw : s.controllerGone = false → true = !(reportedPauses (inputs ++ [input])).isEmpty := by
    intro hpresent
    simp [reportedPauses_append, ← h.gone, hpresent, hpause]
  have hheld := h.heldLines_append hpause
  rw [Follows.Continues, react_of_pause hpause]
  split at hheld
  · rename_i hresumed
    rw [pause_resumed hresumed]
    refine ⟨fun s' hnext => ?_, by simp [hheld, statesOf, shownPauses]⟩
    cases hnext
    exact ⟨hgone, hsaw, by rw [hheld, List.append_nil, h.pauses]⟩
  · rename_i hholds
    rw [pause_held hholds]
    refine ⟨fun s' hnext => ?_, ?_⟩
    · cases hnext
      refine ⟨hgone, hsaw, ?_⟩
      rw [hheld, h.pauses, List.length_append, UInt32.ofNat_add]
      rfl
    · rw [hheld, numbered_append, h.pauses]
      simp [statesOf, shownPauses, UInt32.toNat_add]

/-- What one input makes of a session that follows the inputs before it. -/
theorem Follows.continues (h : s.Follows inputs) (input : Input) :
    Follows.Continues s inputs input := by
  cases hpause : input.pause? with
  | none => exact h.continues_of_no_pause hpause
  | some pause => exact h.continues_of_pause hpause

/-- What an input can make a session do, as far as states and calls go. -/
theorem react_cases (s : Session) (input : Input) :
    (∃ state, (s.react input).effects = [.publish state] ∧
        state ≠ .starting ∧ state ≠ .terminated) ∨
      (∃ call, (s.react input).effects = [.call call] ∨
        (s.react input).effects = [.call call, .publish .running]) ∨
      statesOf (s.react input).effects = [] ∧ ∀ call, .call call ∉ (s.react input).effects := by
  cases input with
  | message text =>
      cases hevent : event? text with
      | none => simp [react, hevent, statesOf]
      | some event =>
          cases event with
          | paused reason line hit =>
              simp only [react, hevent, onEvent]
              by_cases hresumed : s.sawPause = false ∧ hit = false ∨ s.controllerGone = true
              · simp [pause_resumed hresumed]
              · simp [pause_held hresumed]
          | resumed =>
              by_cases hheld : s.isSuspended <;>
                simp [react, hevent, onEvent, hheld, entering, statesOf]
          | _ => simp [react, hevent, onEvent, statesOf]
  | command c => cases c <;> simp [react, onCommand, entering, statesOf]
  | _ => simp [react, entering, statesOf]

theorem ne_of_mem_statesOf {state : SessionState}
    (h : state ∈ statesOf (s.react input).effects) : state ≠ .starting ∧ state ≠ .terminated := by
  obtain ⟨published, heffects, hlive⟩ | ⟨call, heffects | heffects⟩ | ⟨hquiet, -⟩ :=
    react_cases s input
  · obtain rfl : state = published := by simpa [heffects, statesOf] using h
    exact hlive
  · simp [heffects, statesOf] at h
  · obtain rfl : state = .running := by simpa [heffects, statesOf] using h
    decide
  · simp [hquiet] at h

/-- A session calls before it publishes anything, and then it does not publish a pause. -/
theorem of_call {before after : List Effect} {call : Call}
    (h : (s.react input).effects = before ++ .call call :: after) :
    before = [] ∧ shownPauses (statesOf (s.react input).effects) = [] := by
  obtain ⟨state, heffects, -⟩ | ⟨first, heffects⟩ | ⟨-, hquiet⟩ := react_cases s input
  · cases before <;> simp [heffects] at h
  · refine ⟨?_, by obtain heffects | heffects := heffects <;> simp [heffects, statesOf, shownPauses]⟩
    obtain heffects | heffects := heffects <;>
      · rw [heffects] at h
        rcases before with _ | ⟨_, _ | _⟩ <;> simp at h ⊢
  · exact absurd (by simp [h]) (hquiet call)

end Session

/-! ### Whole runs -/

namespace Course

variable {c d : Course} {events before : List Event}

/-- What a session has heard in some events. -/
def heard (events : List Event) : List Input :=
  events.filterMap fun
    | .take input | .fail input => some input
    | _ => none

/-- The states of a session that has released its script and heard some inputs. -/
def Shows (inputs : List Input) (states : List SessionState) : Prop :=
  ∃ shown, states = .starting :: .running :: shown ∧
    (∀ state ∈ shown, state ≠ .starting ∧ state ≠ .terminated) ∧
    shownPauses shown = numbered (heldLines (reportedPauses inputs))

/-- What a session shows after some events, if it has released its script. -/
def Tells (events : List Event) (c : Course) : Prop :=
  match c.phase with
  | .opening => events = [] ∧ c.states = [.starting]
  | .serving s => s.Follows (heard events) ∧ Shows (heard events) c.states
  | .ended => .release ∈ events → Shows (heard events) c.states
  | .over => .release ∈ events →
    ∃ shown, Shows (heard events) shown ∧ c.states = shown ++ [.terminated]

@[simp] theorem heard_append (events later : List Event) :
    heard (events ++ later) = heard events ++ heard later :=
  List.filterMap_append

theorem Shows.append {inputs : List Input} {input : Input} {states later : List SessionState}
    (h : Shows inputs states)
    (hlive : ∀ state ∈ later, state ≠ .starting ∧ state ≠ .terminated)
    (hpauses : numbered (heldLines (reportedPauses (inputs ++ [input]))) =
      numbered (heldLines (reportedPauses inputs)) ++ shownPauses later) :
    Shows (inputs ++ [input]) (states ++ later) := by
  obtain ⟨shown, rfl, hshown, hnumbered⟩ := h
  refine ⟨shown ++ later, by simp, fun state hmem => ?_, ?_⟩
  · exact (List.mem_append.mp hmem).elim (hshown state) (hlive state)
  · rw [shownPauses_append, hnumbered, hpauses]

theorem Step.tells {event : Event} (hstep : Step c event d) (h : Tells before c) :
    Tells (before ++ [event]) d := by
  cases hstep with
  | release =>
      obtain ⟨rfl, rfl⟩ := h
      exact ⟨.released, [], rfl, by simp, rfl⟩
  | abandon =>
      obtain ⟨rfl, rfl⟩ := h
      simp [Tells]
  | @take s states input haccepts =>
      obtain ⟨hfollows, hshows⟩ := h
      obtain ⟨hfollowing, hnumbered⟩ := hfollows.continues input
      have hshown := hshows.append (fun _ => Session.ne_of_mem_statesOf) hnumbered
      cases hnext : (s.react input).next with
      | inl s' => exact ⟨by simpa [heard] using hfollowing s' hnext, by simpa [heard] using hshown⟩
      | inr ending => exact fun _ => by simpa [heard] using hshown
  | @fail s states input effects after call haccepts hcall =>
      obtain ⟨hfollows, hshows⟩ := h
      obtain ⟨rfl, hquiet⟩ := Session.of_call hcall
      obtain ⟨-, hnumbered⟩ := hfollows.continues input
      have hquietly : numbered (heldLines (reportedPauses (heard before ++ [input]))) =
          numbered (heldLines (reportedPauses (heard before))) ++ shownPauses [] := by
        rw [hnumbered, hquiet]
        rfl
      have hshown := hshows.append (by simp) hquietly
      exact fun _ => by simpa [heard, Session.statesOf] using hshown
  | @finish states =>
      intro hrelease
      have hreleased : .release ∈ before := by simpa using hrelease
      exact ⟨states, by simpa [heard] using h hreleased, rfl⟩

theorem Steps.tells {later : List Event} (hsteps : Steps c later d) (h : Tells before c) :
    Tells (before ++ later) d := by
  induction hsteps generalizing before with
  | refl => simpa using h
  | step hstep _ ih => simpa using ih (hstep.tells h)

theorem Steps.append {e : Course} {later : List Event} (h : Steps c events d)
    (hlater : Steps d later e) : Steps c (events ++ later) e := by
  induction h with
  | refl => exact hlater
  | step hstep _ ih => exact .step hstep (ih hlater)

/-- A session that executes a run takes the inputs of the run one by one. -/
theorem Steps.of_run {s : Session} {states : List SessionState} {inputs : List Input}
    {effects : List Effect} {next : Session ⊕ Ending} (h : s.run inputs = some ⟨effects, next⟩) :
    Steps ⟨.serving s, states⟩ (inputs.map .take)
      ⟨.after next, states ++ Session.statesOf effects⟩ := by
  induction inputs generalizing s states effects with
  | nil =>
      cases h
      simpa [Phase.after, Session.statesOf] using Steps.refl _
  | cons input inputs ih =>
      rw [Session.run] at h
      split at h
      · rename_i haccepts
        have htake := @Step.take s states input haccepts
        dsimp only at h
        split at h
        · rename_i s' hnext
          obtain ⟨⟨rest, last⟩, hrest, heffects⟩ := Option.map_eq_some_iff.mp h
          cases heffects
          rw [hnext] at htake
          simpa using Steps.step htake (ih hrest)
        · have hreaction : s.react input = ⟨effects, next⟩ := Option.some.inj h
          rw [hreaction] at htake
          exact .step htake (.refl _)
        · cases h
      · cases h

/-- A run to its end is a course that ends. -/
theorem Steps.of_ended {inputs : List Input} {effects : List Effect} {ending : Ending}
    (h : Session.released.run inputs = some ⟨effects, .inr ending⟩) :
    Steps attached (.release :: (inputs.map .take ++ [.finish]))
      ⟨.over, Session.published effects⟩ :=
  .step .release ((Steps.of_run h).append (.step .finish (.refl _)))

/-- What a session that has released its script has published, but for `terminated`. -/
theorem Steps.shows (h : Steps attached events c) (hrelease : .release ∈ events) :
    ∃ earlier, Shows (heard events) earlier ∧
      c.states = earlier ++ if c.phase = .over then [.terminated] else [] := by
  have hattached : Tells [] attached := ⟨rfl, rfl⟩
  have htold : Tells events c := h.tells hattached
  obtain ⟨phase, states⟩ := c
  cases phase with
  | opening => simp [htold.1] at hrelease
  | serving s => exact ⟨states, htold.2, by simp⟩
  | ended => exact ⟨states, htold hrelease, by simp⟩
  | _ => simpa using htold hrelease

/-- A session that listens follows what it has heard. -/
theorem Steps.follows {s : Session} {states : List SessionState}
    (h : Steps attached events ⟨.serving s, states⟩) : s.Follows (heard events) := by
  have hattached : Tells [] attached := ⟨rfl, rfl⟩
  exact (h.tells hattached).1

/-- A session that has released its script has published `starting` and `running` first, then a state
for each pause at which the script was held, with `running` between them, and `terminated` at the end
of its run. A first pause that hits no breakpoint is answered by resuming alone, and so is every pause
once the controller is gone. -/
theorem states_published (h : Steps attached events c) (hrelease : .release ∈ events) :
    (∃ shown,
      c.states = .starting :: .running :: shown ++
        (if c.phase = .over then [.terminated] else []) ∧
      (∀ state ∈ shown, state ≠ .starting ∧ state ≠ .terminated) ∧
      shownPauses shown = numbered (heldLines (reportedPauses (heard events))) ∧
      ((∀ line ∈ heldLines (reportedPauses (heard events)), line < maxLine) →
        (heldLines (reportedPauses (heard events))).length < UInt32.size →
        shownPauses shown =
          (heldLines (reportedPauses (heard events))).mapIdx fun i line => (line + 1, i + 1))) ∧
    ∀ s, c.phase = .serving s → ∀ input line hitBreakpoint,
      input.pause? = some (line, hitBreakpoint) →
      (reportedPauses (heard events) = [] ∧ hitBreakpoint = false ∨
        ∃ input ∈ heard events, input.isLoss = true) →
      (s.react input).effects = [.call .resume] := by
  refine ⟨?_, ?_⟩
  · obtain ⟨_, ⟨shown, rfl, hlive, hpauses⟩, hstates⟩ := h.shows hrelease
    exact ⟨shown, hstates, hlive, hpauses, fun hlines hcount =>
      hpauses.trans (numbered_eq hlines hcount)⟩
  · obtain ⟨phase, states⟩ := c
    rintro s rfl input line hitBreakpoint hpause hcause
    have hresumed : s.sawPause = false ∧ hitBreakpoint = false ∨ s.controllerGone = true := by
      cases hgone : s.controllerGone with
      | true => exact .inr rfl
      | false =>
          obtain ⟨hfirst, hhit⟩ | hlost := hcause
          · exact .inl ⟨by simp [h.follows.saw hgone, hfirst], hhit⟩
          · rw [h.follows.gone] at hgone
            exact absurd (List.any_eq_true.mpr hlost) (by simp [hgone])
    rw [Session.react_of_pause hpause, Session.pause_resumed hresumed]

/-- The message of an inspector that reports a pause in a line, with a list of the breakpoints hit. -/
def pauseMessage (line hitBreakpoints : String) : String :=
  "\x7b\"method\":\"Debugger.paused\",\"params\":\x7b\"callFrames\":[\x7b\"location\":"
    ++ "\x7b\"lineNumber\":" ++ line ++ "\x7d\x7d],\"hitBreakpoints\":" ++ hitBreakpoints
    ++ "\x7d\x7d"

/-- An inspector holds a script before its first line, at a breakpoint in line five, and after a step
in line seven. There the controller goes away, and the script is not held at line nine any more. -/
def stepping : List Input :=
  [.message (pauseMessage "0" "[]"), .message "\x7b\"method\":\"Debugger.resumed\"\x7d",
    .message (pauseMessage "4" "[\"1:4:0:a.js\"]"), .command .stepOver, .message (pauseMessage "6" "[]"),
    .controllerLost, .message (pauseMessage "8" "[]"),
    .message "\x7b\"method\":\"Runtime.executionContextDestroyed\"\x7d"]

theorem stepping_published :
    ∃ c, Steps attached (.release :: (stepping.map .take ++ [.finish])) c ∧
      .release ∈ Event.release :: (stepping.map .take ++ [.finish]) ∧
      ∃ shown, c.states = .starting :: .running :: shown ++ [.terminated] ∧
        shownPauses shown = [(5, 1), (7, 2)] := by
  have hrun : (Session.released.run stepping).map (·.next) = some (.inr .closed) := by
    decide +kernel
  obtain ⟨⟨effects, next⟩, hrun, hnext⟩ := Option.map_eq_some_iff.mp hrun
  cases hnext
  have hcourse := Steps.of_ended hrun
  have hheld : heldLines (reportedPauses (heard (.release :: (stepping.map .take ++ [.finish])))) =
      [4, 6] := by decide +kernel
  obtain ⟨⟨shown, hstates, -, -, hpauses⟩, -⟩ := states_published hcourse (by simp)
  refine ⟨_, hcourse, by simp, shown, hstates, ?_⟩
  rw [hheld] at hpauses
  exact hpauses (by decide) (by decide)

/-- The line behind the largest number is published as line zero. -/
theorem line_published_as_zero :
    (Input.message (pauseMessage "4294967295" "[0]")).pause? = some (4294967295, true) ∧
      Steps attached [.release, .take (.message (pauseMessage "4294967295" "[0]"))]
        ⟨.serving ⟨.suspended 0 1, 1, true, false⟩, [.starting, .running, .suspended 0 1]⟩ := by
  have hpause : (Input.message (pauseMessage "4294967295" "[0]")).pause? =
      some (4294967295, true) := by decide +kernel
  have hreaction := Session.react_of_pause (s := .released) hpause
  rw [Session.pause_held (by decide)] at hreaction
  have htake := @Step.take .released [.starting, .running]
    (.message (pauseMessage "4294967295" "[0]")) rfl
  rw [hreaction] at htake
  exact ⟨hpause, .step .release (.step htake (.refl _))⟩

end Course

end ScriptHost.Inspector
