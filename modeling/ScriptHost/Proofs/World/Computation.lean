import ScriptHost.World

/-!
# Running computations on a world

What the building blocks of a computation do when it is run on a world: one equation for each, and
`run_bind` for putting two together.
-/

namespace ScriptHost.World

variable {α β : Type}

/-- A computation goes on with the value and the world that the first part of it leaves, unless that
part fails. -/
theorem run_bind (x : WorldM α) (f : α → WorldM β) (w : World) :
    (x >>= f).run.run w = match x.run.run w with
      | (.ok a, after) => (f a).run.run after
      | (.error e, after) => (.error e, after) := by
  rw [ExceptT.run_bind, StateT.run_bind]
  rcases x.run.run w with ⟨_ | a, after⟩ <;> rfl

/-- After a part that succeeds the rest is run. -/
theorem run_bind_ok {x : WorldM α} {w after : World} {a : α} (h : x.run.run w = (.ok a, after))
    (f : α → WorldM β) : (x >>= f).run.run w = (f a).run.run after := by
  rw [run_bind, h]

/-- After a part that fails nothing is run. -/
theorem run_bind_error {x : WorldM α} {w after : World} {e : Error}
    (h : x.run.run w = (.error e, after)) (f : α → WorldM β) :
    (x >>= f).run.run w = (.error e, after) := by
  rw [run_bind, h]

theorem run_pure (a : α) (w : World) : (pure a : WorldM α).run.run w = (.ok a, w) := rfl

theorem run_ofExcept (result : Except Error α) (w : World) :
    (MonadExcept.ofExcept result : WorldM α).run.run w = (result, w) := by
  cases result <;> rfl

theorem run_onHost (run : HostM Error α) (w : World) :
    (onHost run).run.run w =
      ((run.run.run w.host).1, { w with host := (run.run.run w.host).2 }) := rfl

/-- Translating the errors of a computation changes nothing else. -/
theorem run_adapt {ε δ α : Type} (f : ε → δ) (run : HostM ε α) (host : Host) :
    (ExceptT.adapt f run : HostM δ α).run.run host =
      ((run.run.run host).1.mapError f, (run.run.run host).2) := rfl

theorem run_readResource (path : String) (w : World) :
    (readResource path).run.run w = ((w.store.read w.host.view path).mapError .store, w) := rfl

/-- What resolving a path gives in a world. -/
def resolved (w : World) (path : String) : Except Error String :=
  match ResourceStore.key path with
  | .error fault => .error (.construction path (.store fault))
  | .ok key =>
    if w.store.contains w.host.view key then .ok key
    else .error (.construction key .missingResource)

theorem run_resolveResource (path : String) (w : World) :
    (resolveResource path).run.run w = (w.resolved path, w) := rfl

theorem run_artifact (compiler : Compiler) (path : String) (w : World) :
    (artifact compiler path).run.run w =
      ((w.cache.getOrCompile w.store compiler path w.host).1,
        { w with
          cache := (w.cache.getOrCompile w.store compiler path w.host).2.1
          host := (w.cache.getOrCompile w.store compiler path w.host).2.2 }) := rfl

theorem run_logged (request : Request) (w : World) :
    (logged request).run.run w = (.ok (), { w with log := w.log ++ [request] }) := rfl

/-- The world that a computation for an engine leaves, once its result and the time since a start
are counted. -/
def counting (after : World) (engine : String) (result : Except Error α) (start : World) : World :=
  { after with metrics :=
      after.metrics.record engine result.toBool ⟨after.host.clock - start.host.clock⟩ }

theorem run_recorded_eq (engine : String) (run : WorldM α) (w : World) :
    (recorded engine run).run.run w =
      ((run.run.run w).1, (run.run.run w).2.counting engine (run.run.run w).1 w) := rfl

/-- Counting a computation changes nothing but the metrics. -/
theorem run_recorded (engine : String) (run : WorldM α) (w : World) :
    ∃ metrics, (recorded engine run).run.run w =
      ((run.run.run w).1, { (run.run.run w).2 with metrics }) :=
  ⟨_, rfl⟩

end ScriptHost.World

/-! Computations on the host alone. -/

namespace ScriptHost.Host

variable {ε α β : Type}

/-- After a part that succeeds the rest is run. -/
theorem run_bind_ok {x : HostM ε α} {host after : Host} {a : α}
    (h : x.run.run host = (.ok a, after)) (f : α → HostM ε β) :
    (x >>= f).run.run host = (f a).run.run after := by
  rw [ExceptT.run_bind, StateT.run_bind, h]
  rfl

/-- After a part that fails nothing is run. -/
theorem run_bind_error {x : HostM ε α} {host after : Host} {e : ε}
    (h : x.run.run host = (.error e, after)) (f : α → HostM ε β) :
    (x >>= f).run.run host = (.error e, after) := by
  rw [ExceptT.run_bind, StateT.run_bind, h]
  rfl

theorem run_get (host : Host) : (getThe Host : HostM ε Host).run.run host = (.ok host, host) := rfl

theorem run_set (host other : Host) :
    (set other : HostM ε PUnit).run.run host = (.ok (), other) := rfl

end ScriptHost.Host
