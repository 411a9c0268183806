import ScriptHost.Settings.Basic

/-!
# Runner limits

A runner polls a process at a fixed interval for a number of times. The process may take their
product, the ceiling. `Runner.withTimeout` chooses the poll for a given timeout.
-/

namespace ScriptHost

/-- How a process is watched. -/
structure Runner where
  waitTime : Duration
  loopCount : Nat
  deriving DecidableEq, Repr

namespace Runner

/-- The largest number of polls. -/
def maxLoops : Nat := Nat.pow 2 32 - 1

/-- A runner that polls at least once. -/
def new (waitTime : Duration) (loopCount : Nat) : Runner :=
  ⟨waitTime, max loopCount 1⟩

/-- The runner with the given poll limits. -/
def ofLimits (l : PollLimits) : Runner :=
  new (.ofMillis l.waitMillis) l.loopCount

/-- A runner for a timeout: it polls every second, or once for a shorter timeout, and never
less than a millisecond. -/
def withTimeout (timeout : Duration) : Runner :=
  let poll := (Duration.ofSeconds 1).min (timeout.max (.ofMillis 1))
  let step := max poll.millis 1
  let loops := (timeout.millis + step - 1) / step
  new poll (min loops maxLoops)

/-- How long a process may take; none when the clock cannot hold it. -/
def ceiling? (r : Runner) : Option Duration :=
  r.waitTime.times? r.loopCount

end Runner

end ScriptHost
