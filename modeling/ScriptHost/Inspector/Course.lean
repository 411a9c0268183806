import ScriptHost.Inspector.Session

/-!
# The course of a session

A session is attached, releases its script, listens to the inspector and to its controller in
whatever order there is something to hear, and stops listening at last; then its run ends. All the
while it publishes states. `Course.Step` is the relation between a session with the states that it
has published before and after one event. A call to the inspector may fail, which ends the session
at once.
-/

namespace ScriptHost.Inspector

/-- How far the run of a session has come. -/
inductive Phase where
  /-- The script has not been released. -/
  | opening
  /-- It listens. -/
  | serving (session : Session)
  /-- It does not listen any more. -/
  | ended
  /-- Its run is over. -/
  | over
  deriving DecidableEq, Repr

/-- The phase after a reaction. -/
def Phase.after : Session ⊕ Ending → Phase
  | .inl session => .serving session
  | .inr _ => .ended

/-- How far a session has come, and all states that it has published, first to last. -/
structure Course where
  phase : Phase
  states : List SessionState
  deriving DecidableEq, Repr

namespace Course

/-- A session that has just been attached. -/
def attached : Course :=
  ⟨.opening, [.starting]⟩

/-- What happens to a session: its script is released, or it is given up before that; it takes an
input, or fails in a call that an input has led to; its run ends. -/
inductive Event where
  | release
  | abandon
  | take (input : Input)
  | fail (input : Input)
  | finish

/-- One event. -/
inductive Step : Course → Event → Course → Prop where
  | release {states : List SessionState} :
    Step ⟨.opening, states⟩ .release ⟨.serving .released, states ++ [.running]⟩
  | abandon {states : List SessionState} : Step ⟨.opening, states⟩ .abandon ⟨.ended, states⟩
  | take {s : Session} {states : List SessionState} {input : Input}
    (haccepts : s.accepts input = true) :
    Step ⟨.serving s, states⟩ (.take input)
      ⟨.after (s.react input).next, states ++ Session.statesOf (s.react input).effects⟩
  | fail {s : Session} {states : List SessionState} {input : Input} {before after : List Effect}
    {call : Call} (haccepts : s.accepts input = true)
    (hcall : (s.react input).effects = before ++ .call call :: after) :
    Step ⟨.serving s, states⟩ (.fail input) ⟨.ended, states ++ Session.statesOf before⟩
  | finish {states : List SessionState} :
    Step ⟨.ended, states⟩ .finish ⟨.over, states ++ [.terminated]⟩

/-- A sequence of events. -/
inductive Steps : Course → List Event → Course → Prop where
  | refl (c : Course) : Steps c [] c
  | step {c d e : Course} {event : Event} {events : List Event} (hstep : Step c event d)
    (hsteps : Steps d events e) : Steps c (event :: events) e

end Course

end ScriptHost.Inspector
