import ScriptHost.Proofs.Job.Rules
import ScriptHost.Service.Call

/-!
# Journals of dispatched requests

A journal keeps what every dispatched request was answered, with the requests of its steps nested
below a job. `Journaled` follows the rules of `Proceeds` and writes the journal: every activity that
proceeds has one, `Proceeds.journaled`, and it lists the requests that are dispatched,
`Journaled.proceeds`. In a journal the error of a step is the error of every job around it,
`Journaled.encloses`.
-/

namespace ScriptHost

/-- What a dispatched request was answered, and the metrics as this answer has left them. -/
structure Answered where
  request : Request
  result : Except Error Output
  metrics : Metrics

/-- The answers to requests that were dispatched one after another, each with those to the requests
that its steps dispatched. -/
inductive Journal where
  | nil
  | entry (answered : Answered) (nested later : Journal)

namespace Journal

/-- The requests in the order in which they were dispatched. -/
def requests : Journal → List Request
  | nil => []
  | entry answered nested later => answered.request :: (nested.requests ++ later.requests)

/-- The answers in the order in which they were given: a job is answered after its steps. -/
def answers : Journal → List Answered
  | nil => []
  | entry answered nested later => nested.answers ++ answered :: later.answers

/-- What comes later is answered later. -/
theorem answers_entry (answered : Answered) (nested later : Journal) :
    (entry answered nested later).answers =
      (entry answered nested .nil).answers ++ later.answers := by
  rw [answers, answers, answers, List.append_assoc, List.singleton_append]

end Journal

/-- An activity proceeds as by `Proceeds`, and the journal of it is written. -/
inductive Journaled (registry : Registry Engine) :
    Activity → World → Except Error Output → World → Journal → Prop
  | unknown {request : Request} {w : World} {fault : Error}
      (hlookup : registry.lookup request.engine = .error fault) :
      Journaled registry (.request request) w (.error fault) (w.logging request)
        (.entry ⟨request, .error fault, w.metrics⟩ .nil .nil)
  | script {request : Request} {w after : World} {names : EngineNames}
      {run : Request → WorldM Output} {result : Except Error Output}
      (hlookup : registry.lookup request.engine = .ok (names, .script run))
      (hrun : (run request).run.run (w.logging request) = (result, after)) :
      Journaled registry (.request request) w result
        (after.counting names.type result (w.logging request))
        (.entry ⟨request, result, (after.counting names.type result (w.logging request)).metrics⟩
          .nil .nil)
  | refused {request : Request} {w : World} {names : EngineNames} {fault : Error}
      (hlookup : registry.lookup request.engine = .ok (names, .job))
      (hopen : (w.logging request).openJob request = .error fault) :
      Journaled registry (.request request) w (.error fault)
        ((w.logging request).counting names.type (.error fault : Except Error Output)
          (w.logging request))
        (.entry ⟨request, .error fault, ((w.logging request).counting names.type
          (.error fault : Except Error Output) (w.logging request)).metrics⟩ .nil .nil)
  | job {request : Request} {w after : World} {names : EngineNames} {steps : List JobStep}
      {result : Except Error Output} {nested : Journal}
      (hlookup : registry.lookup request.engine = .ok (names, .job))
      (hopen : (w.logging request).openJob request = .ok steps)
      (hsteps : Journaled registry (.steps request steps .empty) (w.logging request) result after
        nested) :
      Journaled registry (.request request) w result
        (after.counting names.type result (w.logging request))
        (.entry ⟨request, result, (after.counting names.type result (w.logging request)).metrics⟩
          nested .nil)
  | done {request : Request} {w : World} {output : Output} :
      Journaled registry (.steps request [] output) w (.ok output) w .nil
  | failed {request : Request} {w after : World} {step : JobStep} {rest : List JobStep}
      {output : Output} {e : Error} {journal : Journal}
      (hstep : Journaled registry (.request (request.forStep step w.nextId))
        { w with nextId := w.nextId + 1 } (.error e) after journal) :
      Journaled registry (.steps request (step :: rest) output) w (.error e) after journal
  | next {request : Request} {w mid after : World} {step : JobStep} {rest : List JobStep}
      {output stepOutput : Output} {result : Except Error Output} {answered : Answered}
      {nested later : Journal}
      (hstep : Journaled registry (.request (request.forStep step w.nextId))
        { w with nextId := w.nextId + 1 } (.ok stepOutput) mid (.entry answered nested .nil))
      (hrest : Journaled registry (.steps request rest (output.append stepOutput)) mid result after
        later) :
      Journaled registry (.steps request (step :: rest) output) w result after
        (.entry answered nested later)

variable {registry : Registry Engine} {activity : Activity} {request : Request} {w after : World}
  {result : Except Error Output} {requests : List Request} {journal : Journal}

namespace Service

/-- Calls on a service leave another one, and the journal of the requests that they dispatch. -/
inductive Journaled : Service → List ServiceCall → Service → Journal → Prop
  | done {s : Service} : Journaled s [] s .nil
  | execute {s final : Service} {request : Request} {calls : List ServiceCall}
      {result : Except Error Output} {after : World} {answered : Answered} {nested later : Journal}
      (hrequest : ScriptHost.Journaled s.registry (.request request) s.world result after
        (.entry answered nested .nil))
      (hrest : Journaled { s with world := after } calls final later) :
      Journaled s (.execute request :: calls) final (.entry answered nested later)
  | other {s final : Service} {c : ServiceCall} {calls : List ServiceCall} {journal : Journal}
      (hother : ∀ request, c ≠ .execute request) (hrest : Journaled (s.call c).2 calls final journal) :
      Journaled s (c :: calls) final journal

namespace Journaled

variable {s final : Service} {calls : List ServiceCall} {journal : Journal} {a b : Answered}

/-- Calls that execute nothing keep the registry and the metrics. -/
theorem call_other {c : ServiceCall} (hother : ∀ request, c ≠ .execute request) :
    (s.call c).2.registry = s.registry ∧ (s.call c).2.world.metrics = s.world.metrics := by
  cases c with
  | execute request => exact absurd rfl (hother request)
  | deploy path content =>
      rw [call, deploy]
      cases ResourceStore.key path <;> exact ⟨rfl, rfl⟩
  | delete path =>
      rw [call, delete]
      cases ResourceStore.key path with
      | error fault => exact ⟨rfl, rfl⟩
      | ok key =>
          dsimp only
          rcases s.world.store.delete s.world.host.view key with ⟨_ | _, _, _⟩ <;> exact ⟨rfl, rfl⟩

end Journaled

end Service

end ScriptHost
