import ScriptHost.Environment
import ScriptHost.FileTree

/-!
# Hosts

What the outside of the program consists of: the files, the environment that processes inherit, and
the time.
-/

namespace ScriptHost

/-- The files, the inherited environment, and two clocks in nanoseconds: the time of day, counted from
the beginning of year 0, and the clock that deadlines are set by, which nobody adjusts. -/
structure Host where
  view : FileView
  environment : Variables
  clock : Nat
  uptime : Nat

namespace Host

/-- The host with other files. -/
def withTree (h : Host) (tree : FileTree) : Host :=
  { h with view := h.view.withTree tree }

/-- The host some nanoseconds later. -/
def later (h : Host) (nanos : Nat) : Host :=
  { h with clock := h.clock + nanos, uptime := h.uptime + nanos }

end Host

/-- A computation on a host that may fail. -/
abbrev HostM (ε α : Type) := ExceptT ε (StateM Host) α

end ScriptHost
