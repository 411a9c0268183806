import ScriptHost.Engine.Echo
import ScriptHost.Proofs.Engine.Registry
import ScriptHost.Proofs.World.Computation
import ScriptHost.Service.Build

/-!
# Engines leave the metrics alone

Executions are counted by what dispatches them, and by nothing that they do themselves: no engine
changes the metrics of the world it runs in. `World.KeepsMetrics` says so of a computation, part by
part, and `Service.ofStorage_keepsMetrics` of every service that settings describe.
-/

namespace ScriptHost

namespace World

variable {α β : Type}

/-- A computation that counts no execution. -/
def KeepsMetrics (x : WorldM α) : Prop :=
  ∀ w, (x.run.run w).2.metrics = w.metrics

theorem keepsMetrics_pure (a : α) : KeepsMetrics (pure a) :=
  fun _ => rfl

theorem keepsMetrics_throw (e : Error) : KeepsMetrics (throw e : WorldM α) :=
  fun _ => rfl

theorem keepsMetrics_ofExcept (result : Except Error α) :
    KeepsMetrics (MonadExcept.ofExcept result : WorldM α) := by
  intro w
  rw [run_ofExcept]

theorem keepsMetrics_onHost (run : HostM Error α) : KeepsMetrics (onHost run) :=
  fun _ => rfl

theorem keepsMetrics_readResource (path : String) : KeepsMetrics (readResource path) :=
  fun _ => rfl

theorem keepsMetrics_resolveResource (path : String) : KeepsMetrics (resolveResource path) :=
  fun _ => rfl

theorem keepsMetrics_artifact (compiler : Compiler) (path : String) :
    KeepsMetrics (artifact compiler path) :=
  fun _ => rfl

theorem keepsMetrics_freshId : KeepsMetrics freshId :=
  fun _ => rfl

/-- Two parts that count no execution count none together. -/
theorem KeepsMetrics.bind {x : WorldM α} {f : α → WorldM β} (hx : KeepsMetrics x)
    (hf : ∀ a, KeepsMetrics (f a)) : KeepsMetrics (x >>= f) := by
  intro w
  rw [run_bind]
  have hafter := hx w
  rcases hrun : x.run.run w with ⟨_ | a, after⟩ <;> rw [hrun] at hafter
  · exact hafter
  · exact (hf a after).trans hafter

end World

namespace Engine

/-- An engine that counts no execution itself. What a job engine does is up to its steps. -/
def KeepsMetrics : Engine → Prop
  | .script run => ∀ request, World.KeepsMetrics (run request)
  | .job => True

theorem keepsMetrics_compiled (compiler : Compiler) : (compiled compiler).KeepsMetrics :=
  fun _ => (World.keepsMetrics_resolveResource _).bind fun _ =>
    (World.keepsMetrics_artifact _ _).bind fun _ =>
      (World.keepsMetrics_onHost _).bind fun _ => World.keepsMetrics_pure _

theorem keepsMetrics_interpret (interpreter : List String) (runner : Runner) (request : Request)
    (resource : Resource) : World.KeepsMetrics (interpret interpreter runner request resource) := by
  refine (World.keepsMetrics_onHost _).bind fun output => ?_
  split
  · exact World.keepsMetrics_pure _
  · exact World.keepsMetrics_throw _

theorem keepsMetrics_interpreted (interpreter : List String) (runner : Runner) :
    (interpreted interpreter runner).KeepsMetrics :=
  fun _ => (World.keepsMetrics_resolveResource _).bind fun _ =>
    (World.keepsMetrics_readResource _).bind fun _ => keepsMetrics_interpret _ _ _ _

theorem keepsMetrics_debugged (interpreter : List String) (runner : Runner)
    (bridge : Inspector.Bridge) : (debugged interpreter runner bridge).KeepsMetrics := by
  refine fun request => (World.keepsMetrics_resolveResource _).bind fun _ =>
    (World.keepsMetrics_readResource _).bind fun resource => ?_
  split
  · exact keepsMetrics_interpret _ _ _ _
  · exact World.keepsMetrics_freshId.bind fun _ => World.keepsMetrics_onHost _

theorem keepsMetrics_command (runner : Runner) : (command runner).KeepsMetrics := by
  refine fun request => (World.keepsMetrics_resolveResource _).bind fun _ =>
    (World.keepsMetrics_readResource _).bind fun _ =>
      (World.keepsMetrics_ofExcept _).bind fun _ => (World.keepsMetrics_ofExcept _).bind fun _ =>
        (World.keepsMetrics_onHost _).bind fun output => ?_
  split
  · exact World.keepsMetrics_pure _
  · exact World.keepsMetrics_throw _

end Engine

/-- No engine of a registry counts an execution itself. -/
def Registry.KeepsMetrics (registry : Registry Engine) : Prop :=
  ∀ entry ∈ registry.entries, entry.2.KeepsMetrics

/-- A script that a token finds counts no execution. -/
theorem Registry.KeepsMetrics.script {registry : Registry Engine} (h : registry.KeepsMetrics)
    {token : String} {names : EngineNames} {run : Request → WorldM Output}
    (hlookup : registry.lookup token = .ok (names, .script run)) (request : Request) :
    World.KeepsMetrics (run request) :=
  h _ (mem_entries_of_lookup hlookup) request

/-- No engine that settings describe counts an execution. -/
theorem Settings.engine?_keepsMetrics {settings : Settings} {vars : Variables} {type : String}
    {entry : EngineNames × Engine} (h : settings.engine? vars type = some entry) :
    entry.2.KeepsMetrics := by
  unfold engine? at h
  split at h
  all_goals cases h
  · exact Engine.keepsMetrics_compiled _
  · exact Engine.keepsMetrics_compiled _
  · exact Engine.keepsMetrics_interpreted _ _
  · exact Engine.keepsMetrics_debugged _ _ _
  · exact Engine.keepsMetrics_command _
  · trivial

/-- Every engine of some types that settings describe counts no execution. -/
theorem Settings.engine_keepsMetrics {settings : Settings} {vars : Variables} {types : List String}
    {engines : List (EngineNames × Engine)} (h : types.mapM (settings.engine vars) = .ok engines) :
    ∀ entry ∈ engines, entry.2.KeepsMetrics := by
  induction types generalizing engines with
  | nil =>
      cases h
      exact fun _ hentry => absurd hentry List.not_mem_nil
  | cons type types ih =>
      rw [List.mapM_cons] at h
      cases hengine : settings.engine? vars type with
      | none =>
          rw [engine, hengine] at h
          cases h
      | some first =>
          rw [engine, hengine] at h
          cases hrest : types.mapM (settings.engine vars) with
          | error fault =>
              rw [hrest] at h
              cases h
          | ok rest =>
              rw [hrest] at h
              cases h
              exact List.forall_mem_cons.mpr ⟨engine?_keepsMetrics hengine, ih hrest⟩

/-- No engine of a service that settings describe counts an execution. -/
theorem Service.ofStorage_keepsMetrics {settings : Settings} {host : Host} {storage : Storage}
    {s : Service} (h : ofStorage settings host storage = .ok s) : s.registry.KeepsMetrics := by
  rw [ofStorage] at h
  cases hengines : settings.enginesOrDefault.enabled.mapM (settings.engine host.environment) with
  | error fault =>
      rw [hengines] at h
      cases h
  | ok engines =>
      rw [hengines] at h
      rw [Registry.KeepsMetrics, (ofEngines_ok h).1]
      exact Settings.engine_keepsMetrics hengines

end ScriptHost
