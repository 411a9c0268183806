import ScriptHost.Duration
import ScriptHost.Json.Basic
import Std.Data.TreeMap

/-!
# Metrics

Counters of executions, failures and time per engine, and of what the artifact cache did. Times are
counted in whole milliseconds, in 64 bits, and may leave that range: `Metrics.recordIn` says what
happens then. All other counters count events one by one; fewer than `2 ^ 64` events are meant, so
that these stay within 64 bits.
-/

namespace ScriptHost

/-- How a program was built: with checks that break off an addition that leaves the range of its
numbers, or optimised, so that such an addition wraps around. -/
inductive Build where
  | checked
  | optimised
  deriving DecidableEq, Repr

/-- What is counted for one engine. Executions and failures are numbers of events, the total is that of
a counter of 64 bits. -/
structure EngineCounters where
  executions : Nat
  failures : Nat
  totalMillis : Nat
  deriving DecidableEq, Repr

/-- Nothing is counted yet. -/
def EngineCounters.zero : EngineCounters :=
  ⟨0, 0, 0⟩

/-- What is counted for an artifact cache, and how many artifacts it holds. All are numbers of
events. -/
structure CacheCounters where
  hits : Nat
  misses : Nat
  compilations : Nat
  failures : Nat
  entries : Nat
  deriving DecidableEq, Repr

/-- Nothing is counted yet. -/
def CacheCounters.zero : CacheCounters :=
  ⟨0, 0, 0, 0, 0⟩

/-- The counters of all engines. -/
structure Metrics where
  engines : Std.TreeMap String EngineCounters

namespace Metrics

/-- Nothing is counted yet. -/
def empty : Metrics :=
  ⟨.empty⟩

/-- The first number that a counter of 64 bits cannot hold. -/
def counterBound : Nat := Nat.pow 2 64

/-- The counters of an engine. -/
def engine (m : Metrics) (name : String) : EngineCounters :=
  m.engines[name]?.getD .zero

/-- The milliseconds of one execution, as far as a counter holds them. -/
def cappedMillis (elapsed : Duration) : Nat :=
  min elapsed.millis (counterBound - 1)

/-- Count one execution in an optimised build: the total time wraps around at the end of its range. -/
def record (m : Metrics) (name : String) (success : Bool) (elapsed : Duration) : Metrics :=
  let c := m.engine name
  ⟨m.engines.insert name
    { executions := c.executions + 1
      failures := if success then c.failures else c.failures + 1
      totalMillis := (c.totalMillis + cappedMillis elapsed) % counterBound }⟩

/-- Whether the total time of an engine leaves its range with one more execution. -/
def overflows (m : Metrics) (name : String) (elapsed : Duration) : Bool :=
  counterBound ≤ (m.engine name).totalMillis + cappedMillis elapsed

/-- The counters after an execution whose time could not be added. -/
def recordUntimed (m : Metrics) (name : String) (success : Bool) : Metrics :=
  let c := m.engine name
  ⟨m.engines.insert name { c with
    executions := c.executions + 1
    failures := if success then c.failures else c.failures + 1 }⟩

/-- Count one execution. Where the total time leaves its range, a build with checks breaks off; the
counters are then left as far as they were counted. -/
def recordIn (build : Build) (m : Metrics) (name : String) (success : Bool) (elapsed : Duration) :
    Except Metrics Metrics :=
  match build with
  | .optimised => .ok (m.record name success elapsed)
  | .checked =>
    if m.overflows name elapsed then .error (m.recordUntimed name success)
    else .ok (m.record name success elapsed)

/-- The executions of all engines together. -/
def executions (m : Metrics) : Nat :=
  (m.engines.values.map (·.executions)).foldr (· + ·) 0

/-- The failures of all engines together. -/
def failures (m : Metrics) : Nat :=
  (m.engines.values.map (·.failures)).foldr (· + ·) 0

end Metrics

open Json (Value)

/-- The counters of an engine as JSON. -/
def EngineCounters.toJson (c : EngineCounters) : Value :=
  .object [("executions", .nat c.executions), ("failures", .nat c.failures),
    ("total_ms", .nat c.totalMillis)]

/-- The counters of a cache as JSON. -/
def CacheCounters.toJson (c : CacheCounters) : Value :=
  .object [("hits", .nat c.hits), ("misses", .nat c.misses),
    ("compilations", .nat c.compilations), ("failures", .nat c.failures),
    ("entries", .nat c.entries)]

/-- All counters as JSON, with the instant of the capture when there is one. -/
def Metrics.snapshot (m : Metrics) (cache : CacheCounters) (capturedAt : Option String) : Value :=
  .object ((capturedAt.toList.map fun t => ("captured_at", .string t))
    ++ [("executions", .nat m.executions), ("failures", .nat m.failures),
      ("engines", .object (m.engines.toList.map fun (name, c) => (name, c.toJson))),
      ("cache", cache.toJson)])

end ScriptHost
