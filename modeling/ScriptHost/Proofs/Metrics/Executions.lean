import Mathlib.Algebra.BigOperators.Group.Finset.Basic
import ScriptHost.Proofs.Engine.Metrics
import ScriptHost.Proofs.Job.Flattening
import ScriptHost.Proofs.Job.Journal
import ScriptHost.Proofs.Metrics.Counters

/-!
# Executions are counted exactly

At any time the metrics count the answers that were given so far, those of the steps of jobs among
them: each under the type of the engine that its token finds, and under no engine if it finds none.
`Metrics.Counts` says so, `Counts.record` that recording an answer keeps it up, `Journaled.counted`
that a journaled run does, and `Service.calls_counted` that it holds for every service from its start
on.
-/

namespace ScriptHost

/-- The type of the engine that a token finds. -/
def Registry.typeOf? (registry : Registry Engine) (token : String) : Option String :=
  (registry.lookup token).toOption.map (·.1.type)

/-- The types of all engines. -/
def Registry.types (registry : Registry Engine) : Finset String :=
  (registry.names.map (·.type)).toFinset

namespace Answered

/-- Whether the token of the request finds the engine of a type. -/
def isFor (registry : Registry Engine) (type : String) (a : Answered) : Bool :=
  registry.typeOf? a.request.engine = some type

/-- Whether the answer is an error. -/
def failed (a : Answered) : Bool :=
  !a.result.toBool

end Answered

namespace Metrics

variable {registry : Registry Engine} {answers before : List Answered} {m : Metrics}

/-- Metrics that count some answers: for every engine those to the requests whose token finds it, and
of these the errors. A snapshot of them, whatever is shown of the cache and whenever it is taken,
shows the counters of the engines that have answered, and in total their sums. -/
structure Counts (registry : Registry Engine) (answers : List Answered) (m : Metrics) : Prop where
  executions : ∀ type, (m.engine type).executions = answers.countP (·.isFor registry type)
  failures : ∀ type, (m.engine type).failures =
    answers.countP fun a => a.isFor registry type && a.failed
  failures_le : ∀ type, (m.engine type).failures ≤ (m.engine type).executions
  registered : ∀ type ∈ m.engines, type ∈ registry.types
  shownEngine : ∀ cache capturedAt type,
    (m.snapshot cache capturedAt).at? [.inl "engines", .inl type] =
      if type ∈ m.engines then some (m.engine type).toJson else none
  shownExecutions : ∀ cache capturedAt, (m.snapshot cache capturedAt).get? "executions" =
    some (.nat (∑ type ∈ registry.types, (m.engine type).executions))
  shownFailures : ∀ cache capturedAt, (m.snapshot cache capturedAt).get? "failures" =
    some (.nat (∑ type ∈ registry.types, (m.engine type).failures))

/-- What is counted for each engine settles the rest. -/
theorem counts_of
    (hexecutions : ∀ type, (m.engine type).executions = answers.countP (·.isFor registry type))
    (hfailures : ∀ type, (m.engine type).failures =
      answers.countP fun a => a.isFor registry type && a.failed)
    (hregistered : ∀ type ∈ m.engines, type ∈ registry.types) : Counts registry answers m where
  executions := hexecutions
  failures := hfailures
  failures_le type := by
    rw [hexecutions, hfailures]
    exact List.countP_mono_left fun a _ ha => (Bool.and_eq_true_iff.mp ha).1
  registered := hregistered
  shownEngine := m.snapshot_engine
  shownExecutions cache capturedAt := (snapshot_totals hregistered cache capturedAt).1
  shownFailures cache capturedAt := (snapshot_totals hregistered cache capturedAt).2

/-- The type of an engine that a token finds is one of all types. -/
theorem mem_types {names : EngineNames} {engine : Engine} {token : String}
    (h : registry.lookup token = .ok (names, engine)) : names.type ∈ registry.types := by
  rw [Registry.types, List.mem_toFinset, Registry.names, List.map_map]
  exact List.mem_map.mpr ⟨_, Registry.mem_entries_of_lookup h, rfl⟩

/-- Recording an answer for the engine that the token of its request finds counts it. -/
theorem Counts.record (h : m.Counts registry before) (a : Answered) {names : EngineNames}
    {engine : Engine} (hlookup : registry.lookup a.request.engine = .ok (names, engine))
    (elapsed : Duration) :
    (m.record names.type a.result.toBool elapsed).Counts registry (before ++ [a]) := by
  have hisFor : ∀ type, a.isFor registry type = decide (names.type = type) := fun type => by
    rw [Answered.isFor, Registry.typeOf?, hlookup]
    simp [Except.toOption]
  refine counts_of (fun type => ?_) (fun type => ?_) fun type htype => ?_
  · rw [engine_record, List.countP_append, List.countP_singleton, hisFor, ← h.executions]
    by_cases htype : names.type = type
    · simp [htype, counted]
    · simp [htype]
  · rw [engine_record, List.countP_append, List.countP_singleton, hisFor, ← h.failures]
    by_cases htype : names.type = type
    · cases hresult : a.result.toBool <;> simp [htype, counted, Answered.failed, hresult]
    · simp [htype]
  · rcases mem_record.mp htype with rfl | hbefore
    · exact mem_types hlookup
    · exact h.registered type hbefore

/-- An answer to a request whose token finds no engine counts for none. -/
theorem Counts.unknown (h : m.Counts registry before) (a : Answered) {fault : Error}
    (hlookup : registry.lookup a.request.engine = .error fault) :
    m.Counts registry (before ++ [a]) := by
  have hisFor : ∀ type, a.isFor registry type = false := fun type => by
    rw [Answered.isFor, Registry.typeOf?, hlookup]
    simp [Except.toOption]
  refine counts_of (fun type => ?_) (fun type => ?_) h.registered
  · rw [h.executions, List.countP_append, List.countP_singleton, hisFor]
    simp
  · rw [h.failures, List.countP_append, List.countP_singleton, hisFor]
    simp

end Metrics

variable {registry : Registry Engine} {activity : Activity} {w after : World}
  {result : Except Error Output} {journal : Journal} {before : List Answered}

/-- A world in which the result of a request is counted has counted it. -/
theorem Metrics.Counts.counting (h : w.metrics.Counts registry before) {request : Request}
    {names : EngineNames} {engine : Engine}
    (hlookup : registry.lookup request.engine = .ok (names, engine)) (result : Except Error Output)
    (start : World) :
    (w.counting names.type result start).metrics.Counts registry
      (before ++ [⟨request, result, (w.counting names.type result start).metrics⟩]) :=
  h.record ⟨request, result, _⟩ hlookup _

/-- The metrics that each answer has left count the answers up to and with it. -/
def Counted (registry : Registry Engine) : List Answered → List Answered → Prop
  | _, [] => True
  | before, a :: rest =>
    a.metrics.Counts registry (before ++ [a]) ∧ Counted registry (before ++ [a]) rest

theorem Counted.append {answers more : List Answered} (h : Counted registry before answers)
    (hmore : Counted registry (before ++ answers) more) :
    Counted registry before (answers ++ more) := by
  induction answers generalizing before with
  | nil => rwa [List.append_nil] at hmore
  | cons a answers ih =>
      refine ⟨h.1, ih h.2 ?_⟩
      rwa [List.append_assoc, List.singleton_append]

/-- An answer leaves metrics that count all before it, and itself. -/
theorem Counted.counts {answers later : List Answered} {a : Answered}
    (h : Counted registry before (answers ++ a :: later)) :
    a.metrics.Counts registry (before ++ answers ++ [a]) := by
  induction answers generalizing before with
  | nil =>
      rw [List.append_nil]
      exact h.1
  | cons b answers ih =>
      have hrest := ih h.2
      rwa [List.append_assoc before, List.singleton_append] at hrest

/-- A journaled run counts its answers, and each of them as soon as it is given. -/
theorem Journaled.counted (h : Journaled registry activity w result after journal)
    (hkeeps : registry.KeepsMetrics) (hw : w.metrics.Counts registry before) :
    Counted registry before journal.answers ∧
      after.metrics.Counts registry (before ++ journal.answers) := by
  induction h generalizing before with
  | @unknown request w fault hlookup =>
      have hafter := hw.unknown ⟨request, .error fault, w.metrics⟩ hlookup
      exact ⟨⟨hafter, trivial⟩, hafter⟩
  | @script request w after names run result hlookup hrun =>
      have hkept := hkeeps.script hlookup request (w.logging request)
      rw [hrun] at hkept
      have hran : after.metrics.Counts registry before := by rwa [hkept]
      have hafter := hran.counting hlookup result (w.logging request)
      exact ⟨⟨hafter, trivial⟩, hafter⟩
  | @refused request w names fault hlookup hopen =>
      have hlogged : (w.logging request).metrics.Counts registry before := hw
      have hafter := hlogged.counting hlookup (.error fault) (w.logging request)
      exact ⟨⟨hafter, trivial⟩, hafter⟩
  | @job request w after names steps result nested hlookup _ _ ih =>
      obtain ⟨hcounted, hnested⟩ := ih hw
      have hafter := hnested.counting hlookup result (w.logging request)
      refine ⟨hcounted.append ⟨hafter, trivial⟩, ?_⟩
      rwa [List.append_assoc] at hafter
  | done => exact ⟨trivial, by rwa [Journal.answers, List.append_nil]⟩
  | failed _ ih => exact ih hw
  | next _ _ ihstep ihrest =>
      obtain ⟨hstep, hmid⟩ := ihstep hw
      obtain ⟨hrest, hafter⟩ := ihrest hmid
      rw [Journal.answers_entry, ← List.append_assoc]
      exact ⟨hstep.append hrest, hafter⟩

namespace Service

/-- Calls on a service count the answers that they journal. -/
theorem Journaled.counted {s final : Service} {calls : List ServiceCall}
    (h : Journaled s calls final journal) (hkeeps : s.registry.KeepsMetrics)
    (hs : s.world.metrics.Counts s.registry before) :
    Counted s.registry before journal.answers ∧
      final.world.metrics.Counts s.registry (before ++ journal.answers) := by
  induction h generalizing before with
  | done => exact ⟨trivial, by rwa [Journal.answers, List.append_nil]⟩
  | execute hrequest _ ih =>
      obtain ⟨hown, hmid⟩ := hrequest.counted hkeeps hs
      obtain ⟨hlater, hfinal⟩ := ih hkeeps hmid
      rw [Journal.answers_entry, ← List.append_assoc]
      exact ⟨hown.append hlater, hfinal⟩
  | other hother _ ih =>
      obtain ⟨hregistry, hmetrics⟩ := call_other hother
      rw [hregistry, hmetrics] at ih
      exact ih hkeeps hs

end Service

namespace FailingJobs

/-- A job whose second step is another job, whose second step asks for an engine that is not there. -/
def resources : Std.TreeMap String ByteArray :=
  .ofList [
    ("/outer", ("name='o'\n" ++ "steps=[\x7bname='a',engine='say',path='/a'\x7d," ++
      "\x7bname='i',engine='Job',path='/inner'\x7d]").toUTF8),
    ("/inner", ("name='i'\n" ++ "steps=[\x7bname='b',engine='Say',path='/b'\x7d," ++
      "\x7bname='c',engine='nobody',path='/c'\x7d]").toUTF8)]

def world : World :=
  .new ⟨⟨.empty, []⟩, .empty, 0, 0⟩ (.memory resources) .inMemory

def request : Request :=
  ⟨"job", "/outer", .empty, .empty, none, Request.nilId, 0⟩

end FailingJobs

end ScriptHost
