import ScriptHost.Compiler.Command
import ScriptHost.Engine.Basic
import ScriptHost.Proofs.Environment.Block
import ScriptHost.Proofs.Environment.Precedence
import ScriptHost.Proofs.Files.Directories
import ScriptHost.Proofs.Runner.Start

/-!
# What a process finds in its environment

Every process that is started for a request finds under a name without equals sign what the law
`Request.Finds` says: `Request.governs_processes`. Names with an equals sign need care. An entry of
the environment does not say where the name ends that it was written for, so that such a variable is
found under the start of its name, even if that is unset (`Request.unset_found`).
-/

namespace ScriptHost.Request

/-- A request governs the processes of an invocation under a patch if every process that is started
for it has, under every name without an equals sign, the value that the law says or, where that is
none, no value. Names that go on after it with an equals sign must not stand for anything. -/
def Governs (r : Request) (patch : EnvironmentPatch) (i : Invocation) : Prop :=
  ∀ program host start, i.start program host = .ok start →
    ∀ name, '=' ∉ name.toList →
      (∀ rest, r.Finds patch host.environment (name ++ "=" ++ rest) none) →
      ∀ value : Option String,
        start.environment.valuesOf name = value.toList ↔ r.Finds patch host.environment name value

/-- A request governs the processes that are given its variables under a patch. -/
theorem governs_of_environment_eq {r : Request} {patch : EnvironmentPatch} {i : Invocation}
    (h : ∀ inherited, i.environment.apply inherited =
      (patch.layeredOver r.processVariables).apply inherited) :
    r.Governs patch i := by
  intro program host start hstart name hname hrest value
  have hblock : start.environment =
      ((patch.layeredOver r.processVariables).apply host.environment).block := by
    rw [Invocation.environment_of_start hstart, Invocation.blockOn, Invocation.variablesOn, h]
  have hother : ∀ rest, ((patch.layeredOver r.processVariables).apply
      host.environment)[name ++ "=" ++ rest]? = none :=
    fun rest => (hrest rest).getElem?_eq
  rw [hblock, Variables.valuesOf_block hname hother, ← getElem?_eq_iff_finds]
  constructor
  · intro hvalues
    simpa using congrArg List.head? hvalues
  · intro hvalue
    rw [hvalue]

/-- A request governs every process that is started for it, be it a command, a compiled program, an
interpreter or a debugger: a command with what its definition sets and unsets, the others with
nothing set or unset. Whatever parameters a request has, they do not show in the variables of path
and id. What a runner runs is such a process, unless it gets no process ready. -/
theorem governs_processes (r : Request) :
    (∀ definition argv,
      r.Governs definition.environment (Engine.commandInvocation definition argv r)) ∧
    (∀ argv cwd, r.Governs .none (CommandCompiler.launchInvocation argv cwd r)) ∧
    (∀ interpreter resource,
      r.Governs .none (Engine.interpreterInvocation interpreter r resource)) ∧
    (∀ (bridge : Inspector.Bridge) (session : String),
      r.Governs .none (bridge.invocation session (.ofVariables r.processVariables))) ∧
    (∀ patch inherited params value,
      ({ r with params }.Finds patch inherited pathVariable value ↔
        r.Finds patch inherited pathVariable value) ∧
      ({ r with params }.Finds patch inherited idVariable value ↔
        r.Finds patch inherited idVariable value)) ∧
    ∀ (runner : Runner) (i : Invocation) (host : Host),
      match runner.ready i host with
      | .error fault => (runner.run i).run.run host = (.error fault, host)
      | .ok (ceiling, start) =>
        (∃ program, i.argv.head? = some program ∧ i.start program host = .ok start) ∧
          (runner.run i).run.run host = (Runner.await ceiling i start).run.run host := by
  -- A process without a definition has the patch of a definition that sets and unsets nothing.
  have hplain : ∀ i : Invocation, i.environment = .ofVariables r.processVariables →
      r.Governs .none i := fun i hi => governs_of_environment_eq fun inherited => by
    rw [hi]
    rfl
  refine ⟨?_, ?_, ?_, ?_, ?_, ?_⟩
  · intro definition argv
    exact governs_of_environment_eq fun inherited => rfl
  · intro argv cwd
    exact hplain _ rfl
  · intro interpreter resource
    exact hplain _ rfl
  · intro bridge session
    exact hplain _ rfl
  · intro patch inherited params value
    exact ⟨finds_params_iff params (.inl rfl), finds_params_iff params (.inr rfl)⟩
  · intro runner i host
    rw [Runner.run_eq]
    cases hready : runner.ready i host with
    | error fault => rfl
    | ok ready => exact ⟨Runner.start_of_ready hready, rfl⟩

/-! ## Commands on a host with a shell -/

/-- A host with a shell and two variables. -/
def shellHost : Host :=
  let nodes : List (List String × Node) := [(["bin"], .directory), (["bin", "sh"], .program "sh")]
  let tree : FileTree := ⟨.ofList nodes, none⟩
  ⟨⟨tree, []⟩, .ofPairs [("A", "1"), ("B", "1")], 0, 0⟩

/-- A request with one parameter. -/
def paramRequest : Request :=
  ⟨"command", "/job", .ofPairs [("b-c", "2")], .empty, none, nilId, 0⟩

/-- A definition that sets a variable and unsets `A`. -/
def settingDefinition (name value : String) : CommandDefinition :=
  ⟨"", none, [⟨"any", "/bin/sh"⟩], ⟨.ofPairs [(name, value)], ["A"]⟩⟩

/-- The process of the definition. -/
def shellInvocation (name value : String) : Invocation :=
  Engine.commandInvocation (settingDefinition name value) ["/bin/sh"] paramRequest

/-- The shell starts unless it cannot be handed its environment. -/
theorem start_shell (name value : String)
    (hnul : (shellInvocation name value).hasNul shellHost = false) :
    ∃ start, (shellInvocation name value).start "/bin/sh" shellHost = .ok start := by
  have hadmits : shellHost.view.tree.Admits "/bin/sh" :=
    FileTree.admits_of_no_limits rfl (by decide)
  have hlookup : shellHost.view.tree.lookup [] "/bin/sh" = .ok (["bin", "sh"], .program "sh") := by
    rw [FileTree.lookup, hadmits.resolve (by decide), FileTree.origin, startsWith_slash]
    rfl
  exact ⟨_, Invocation.start_of_lookup rfl hnul (by decide) hlookup⟩

/-- The process of a command finds what is set, a parameter and what it inherits, but not what is
unset. -/
theorem command_finds :
    ∃ start, (shellInvocation "C" "3").start "/bin/sh" shellHost = .ok start ∧
      start.environment.valuesOf "A" = [] ∧ start.environment.valuesOf "B" = ["1"] ∧
      start.environment.valuesOf "C" = ["3"] ∧
      start.environment.valuesOf "SCRIPTOR_PARAM_B_C" = ["2"] := by
  obtain ⟨start, hstart⟩ := start_shell "C" "3" (by decide +kernel)
  have hlaw (name : String) (hname : '=' ∉ name.toList) (value : Option String)
      (hfinds : paramRequest.Finds (settingDefinition "C" "3").environment shellHost.environment
        name value) : start.environment.valuesOf name = value.toList := by
    refine ((governs_processes paramRequest).1 _ _ "/bin/sh" shellHost start hstart name hname
      ?_ value).mpr hfinds
    intro rest
    refine finds_none_of_mem (by simp) ?_ ?_ ?_ <;> simp only [← Std.TreeMap.mem_keys] <;>
      decide +kernel
  exact ⟨start, hstart,
    hlaw "A" (by decide) none (getElem?_eq_iff_finds.mp (by decide +kernel)),
    hlaw "B" (by decide) (some "1") (getElem?_eq_iff_finds.mp (by decide +kernel)),
    hlaw "C" (by decide) (some "3") (getElem?_eq_iff_finds.mp (by decide +kernel)),
    hlaw "SCRIPTOR_PARAM_B_C" (by decide) (some "2") (getElem?_eq_iff_finds.mp (by decide +kernel))⟩

/-- A variable whose name has an equals sign is found under what stands before it, although the
definition unsets that. -/
theorem unset_found :
    "A" ∈ (settingDefinition "A=B" "c").environment.unset ∧
      paramRequest.Finds (settingDefinition "A=B" "c").environment shellHost.environment "A" none ∧
      ∃ start, (shellInvocation "A=B" "c").start "/bin/sh" shellHost = .ok start ∧
        start.environment.valuesOf "A" = ["B=c"] := by
  have hunset : "A" ∈ (settingDefinition "A=B" "c").environment.unset := List.mem_cons_self
  obtain ⟨start, hstart⟩ := start_shell "A=B" "c" (by decide +kernel)
  refine ⟨hunset, .unset hunset, start, hstart, ?_⟩
  rw [Invocation.environment_of_start hstart]
  decide +kernel

end ScriptHost.Request
