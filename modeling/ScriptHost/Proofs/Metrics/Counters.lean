import Mathlib.Algebra.BigOperators.Group.Finset.Basic
import ScriptHost.Metrics

/-!
# Counting one execution

Recording an execution changes the counters of one engine: `engine_record`. What a snapshot shows are
the counters of the engines (`snapshot_engine`) and their sums (`snapshot_totals`).
-/

/-- The values of a map are those of its entries. -/
theorem Std.TreeMap.values_eq_map_snd {α β : Type} {cmp : α → α → Ordering} (t : TreeMap α β cmp) :
    t.values = t.toList.map (·.2) := by
  rw [values, DTreeMap.values, DTreeMap.Internal.Impl.values_eq_map_snd, toList,
    DTreeMap.Const.toList, DTreeMap.Internal.Impl.Const.toList_eq_toListModel_map, List.map_map]
  rfl

namespace ScriptHost.Metrics

variable {m : Metrics} {name : String}

/-- The counters of an engine with one more execution. -/
def counted (c : EngineCounters) (success : Bool) (elapsed : Duration) : EngineCounters where
  executions := c.executions + 1
  failures := if success then c.failures else c.failures + 1
  totalMillis := (c.totalMillis + cappedMillis elapsed) % counterBound

/-- One execution is counted for its engine and for no other one. -/
theorem engine_record (m : Metrics) (name : String) (success : Bool) (elapsed : Duration)
    (other : String) :
    (m.record name success elapsed).engine other =
      if name = other then counted (m.engine name) success elapsed else m.engine other := by
  rw [engine, record, Std.TreeMap.getElem?_insert]
  simp only [Std.compare_eq_iff_eq]
  by_cases h : name = other
  · rw [if_pos h, if_pos h]
    rfl
  · rw [if_neg h, if_neg h]
    rfl

/-- An engine that nothing was recorded for has counted nothing. -/
theorem engine_of_notMem (h : name ∉ m.engines) : m.engine name = .zero := by
  rw [engine, Std.TreeMap.getElem?_eq_none h]
  rfl

theorem engine_empty (name : String) : empty.engine name = .zero :=
  engine_of_notMem Std.TreeMap.not_mem_emptyc

/-- Only the engine of an execution may be new among those that something was recorded for. -/
theorem mem_record {success : Bool} {elapsed : Duration} {other : String} :
    other ∈ (m.record name success elapsed).engines ↔ name = other ∨ other ∈ m.engines := by
  rw [record, Std.TreeMap.mem_insert, Std.compare_eq_iff_eq]

/-- What is counted for all engines is the sum over any names that have them all among them. -/
theorem sum_values (f : EngineCounters → Nat) (hzero : f .zero = 0) {names : Finset String}
    (hnames : ∀ name ∈ m.engines, name ∈ names) :
    (m.engines.values.map f).foldr (· + ·) 0 = ∑ name ∈ names, f (m.engine name) := by
  have hvalues : m.engines.values.map f = m.engines.keys.map fun name => f (m.engine name) := by
    rw [Std.TreeMap.values_eq_map_snd, ← Std.TreeMap.map_fst_toList_eq_keys, List.map_map,
      List.map_map]
    refine List.map_congr_left fun entry hentry => ?_
    have hfound := Std.TreeMap.mem_toList_iff_getElem?_eq_some.mp hentry
    simp [engine, hfound]
  rw [hvalues]
  show (m.engines.keys.map fun name => f (m.engine name)).sum = _
  rw [← List.sum_toFinset _ Std.TreeMap.nodup_keys]
  refine Finset.sum_subset (fun name hname => hnames name ?_) fun name _ hname => ?_
  · rwa [List.mem_toFinset, Std.TreeMap.mem_keys] at hname
  · rw [List.mem_toFinset, Std.TreeMap.mem_keys] at hname
    rw [engine_of_notMem hname, hzero]

/-! ## Snapshots -/

/-- What a snapshot shows in total are the sums over any names that have all engines among them. -/
theorem snapshot_totals {names : Finset String} (hnames : ∀ name ∈ m.engines, name ∈ names)
    (cache : CacheCounters) (capturedAt : Option String) :
    (m.snapshot cache capturedAt).get? "executions" =
        some (.nat (∑ name ∈ names, (m.engine name).executions)) ∧
      (m.snapshot cache capturedAt).get? "failures" =
        some (.nat (∑ name ∈ names, (m.engine name).failures)) := by
  rw [← sum_values (·.executions) rfl hnames, ← sum_values (·.failures) rfl hnames]
  cases capturedAt <;> constructor <;> rfl

/-- A snapshot shows the counters of every engine that something was recorded for, and of no other
one. -/
theorem snapshot_engine (m : Metrics) (cache : CacheCounters) (capturedAt : Option String)
    (name : String) :
    (m.snapshot cache capturedAt).at? [.inl "engines", .inl name] =
      if name ∈ m.engines then some (m.engine name).toJson else none := by
  let members := m.engines.toList.map fun entry => (entry.1, entry.2.toJson)
  have hmembers : (m.snapshot cache capturedAt).at? [.inl "engines", .inl name] =
      ((Json.Value.object members).get? name).bind some := by
    cases capturedAt <;> rfl
  rw [hmembers, Option.bind_fun_some, Json.Value.get?]
  cases hfind : members.reverse.find? (·.1 == name) with
  | none =>
      have hnone := List.find?_eq_none.mp hfind
      rw [if_neg fun hname => ?_, Option.map_none]
      have hentry := Std.TreeMap.mem_toList_iff_getElem?_eq_some.mpr
        (Std.TreeMap.getElem?_eq_some_getElem hname)
      exact hnone _ (List.mem_reverse.mpr (List.mem_map_of_mem hentry)) (beq_self_eq_true name)
  | some member =>
      have hmember := List.mem_reverse.mp (List.mem_of_find?_eq_some hfind)
      obtain ⟨⟨other, counters⟩, hentry, rfl⟩ := List.mem_map.mp hmember
      obtain rfl : other = name := by simpa using List.find?_some hfind
      have hcounters := Std.TreeMap.mem_toList_iff_getElem?_eq_some.mp hentry
      rw [if_pos (Std.TreeMap.mem_iff_isSome_getElem?.mpr (by rw [hcounters]; rfl)), engine,
        hcounters]
      rfl

end ScriptHost.Metrics
