import Mathlib.Data.List.Forall2
import ScriptHost.Compiler.Command
import ScriptHost.Proofs.World.Computation

/-!
# The verdict on a compilation

What comes of a compile command that has ended, whatever it printed and with whatever code:
`CommandCompiler.verdict_compile`. An artifact is made only after a successful exit without an
error among the diagnostics, and every diagnostic is accounted for, in the report or in the warnings
of the artifact. `Report.Covers` says what a report tells about a list of diagnostics, and
`Diagnostic.Retold` what becomes of a diagnostic of the written file.
-/

namespace ScriptHost

/-! ## Reports -/

/-- A report tells of these diagnostics: it lists them, has the errors in one text and all others in
another, each in order, and counts both. -/
structure Report.Covers (r : Report) (ds : List Diagnostic) : Prop where
  entries : r.entries = ds
  errors : r.errors = .join ((ds.filter (·.kind = .error)).map Diagnostic.render)
  warnings : r.warnings = .join ((ds.filter (·.kind ≠ .error)).map Diagnostic.render)
  errorCount : r.errorCount = (ds.filter (·.kind = .error)).length
  warningCount : r.warningCount = (ds.filter (·.kind ≠ .error)).length

namespace Report

variable {r : Report} {ds : List Diagnostic}

theorem covers_empty : empty.Covers [] where
  entries := rfl
  errors := rfl
  warnings := rfl
  errorCount := rfl
  warningCount := rfl

/-- One more diagnostic goes to the end of the texts of its kind. -/
theorem Covers.add (h : r.Covers ds) (d : Diagnostic) : (r.add d).Covers (ds ++ [d]) := by
  obtain ⟨hentries, herrors, hwarnings, herrorCount, hwarningCount⟩ := h
  by_cases hkind : d.kind = .error
  · have hadd : r.add d = { r with
        errors := r.errors ++ d.render, errorCount := r.errorCount + 1,
        entries := r.entries ++ [d] } := by
      unfold Report.add
      rw [hkind]
    rw [hadd]
    constructor <;> simp [hkind, hentries, herrors, hwarnings, herrorCount, hwarningCount,
      List.filter_append, String.join_append]
  · have hadd : r.add d = { r with
        warnings := r.warnings ++ d.render, warningCount := r.warningCount + 1,
        entries := r.entries ++ [d] } := by
      unfold Report.add
      split
      · exact absurd ‹_› hkind
      · rfl
    rw [hadd]
    constructor <;> simp [hkind, hentries, herrors, hwarnings, herrorCount, hwarningCount,
      List.filter_append, String.join_append]

/-- The report of a sequence of diagnostics tells of all of them. -/
theorem covers_ofList (ds : List Diagnostic) : (ofList ds).Covers ds := by
  have hadded (r : Report) (before : List Diagnostic) (h : r.Covers before) :
      (ds.foldl add r).Covers (before ++ ds) := by
    induction ds generalizing r before with
    | nil => simpa using h
    | cons d ds ih => simpa using ih (r.add d) (before ++ [d]) (h.add d)
  exact hadded empty [] covers_empty

/-- There is an error in a report if there is one among its diagnostics. -/
theorem Covers.hasErrors_iff (h : r.Covers ds) :
    r.hasErrors = true ↔ ∃ d ∈ ds, d.kind = .error := by
  rw [hasErrors, decide_eq_true_iff, h.errorCount, gt_iff_lt, List.length_pos_iff_exists_mem]
  simp

end Report

/-! ## Sources of diagnostics -/

/-- A path part by part: what it starts from, a root or a dot, and its names. Repeated slashes and
dots after the first part do not count. -/
def pathParts (path : String) : Option String × List String :=
  let parts := path.splitOn "/"
  (match parts with
    | "" :: _ :: _ => some "/"
    | "." :: _ => some "."
    | _ => none,
    parts.filter fun s => s != "" && s != ".")

/-- Two paths stand for the same file: they are equal part by part, or their last names are. -/
def SameFile (path other : String) : Prop :=
  pathParts path = pathParts other ∨ lastName? path = lastName? other

/-- Paths that are equal part by part have the same last name. -/
theorem sameFile_iff {path other : String} :
    SameFile path other ↔ lastName? path = lastName? other := by
  refine ⟨fun h => ?_, .inr⟩
  rcases h with h | h
  · have hnames : (path.splitOn "/").filter (fun s => s != "" && s != ".") =
        (other.splitOn "/").filter fun s => s != "" && s != "." := congrArg Prod.snd h
    unfold lastName?
    rw [hnames]
  · exact h

namespace Diagnostic

/-- What becomes of a diagnostic when a file was written for a unit: one of that file is one of the
unit, and any other stays as it is. -/
inductive Retold (written unitPath : String) : Diagnostic → Diagnostic → Prop
  | ofUnit {d : Diagnostic} {source : String} (hsource : d.source = some source)
      (hfile : SameFile source written) :
      Retold written unitPath d { d with source := some unitPath }
  | untouched {d : Diagnostic}
      (hother : ∀ source, d.source = some source → ¬ SameFile source written) :
      Retold written unitPath d d

theorem retold_renamed (written unitPath : String) (d : Diagnostic) :
    Retold written unitPath d (d.renamed written unitPath) := by
  unfold renamed
  split
  · rename_i source hsource
    split
    · exact .ofUnit hsource (sameFile_iff.mpr ‹_›)
    · refine .untouched fun other hother => ?_
      obtain rfl : source = other := Option.some.inj (hsource.symm.trans hother)
      rwa [sameFile_iff]
  · rename_i hsource
    exact .untouched fun other hother => by simp [hsource] at hother

/-- Renaming keeps how serious a diagnostic is. -/
theorem renamed_kind (written unitPath : String) (d : Diagnostic) :
    (d.renamed written unitPath).kind = d.kind := by
  unfold renamed
  split
  · split <;> rfl
  · rfl

/-- The renamed diagnostics are the diagnostics retold, one by one. -/
theorem forall₂_renamed (written unitPath : String) (ds : List Diagnostic) :
    List.Forall₂ (Retold written unitPath) ds (ds.map (renamed written unitPath)) := by
  rw [List.forall₂_map_right_iff]
  exact List.forall₂_same.mpr fun d _ => retold_renamed written unitPath d

end Diagnostic

/-! ## Compiling -/

/-- The diagnostics that the output of a process announces, on both of its streams. -/
def ProcessOutput.announced (o : ProcessOutput) : List Diagnostic :=
  Diagnostic.ofOutput (o.stdout ++ o.stderr)

namespace CommandCompiler

variable (c : CommandCompiler) (unit : SourceUnit)

/-- A compile command that has ended is judged by its announced diagnostics, renamed, and an error
of its own when it failed without announcing any. -/
theorem diagnostics_eq (o : ProcessOutput) :
    c.diagnostics unit o = o.announced.map (Diagnostic.renamed (c.sourceFile unit) unit.path) ++
      if o.exitCode ≠ 0 ∧ ∀ d ∈ o.announced, d.kind ≠ .error then
        [c.silentFailure unit o.exitCode (o.stdout ++ o.stderr)] else [] := by
  have hsilent : (!o.success && (o.announced.map
      (Diagnostic.renamed (c.sourceFile unit) unit.path)).all (·.kind != .error)) = true ↔
      o.exitCode ≠ 0 ∧ ∀ d ∈ o.announced, d.kind ≠ .error := by
    simp [ProcessOutput.success, Diagnostic.renamed_kind]
  unfold diagnostics
  by_cases h : o.exitCode ≠ 0 ∧ ∀ d ∈ o.announced, d.kind ≠ .error
  · rw [if_pos h]
    exact if_pos (hsilent.mpr h)
  · rw [if_neg h, List.append_nil]
    exact if_neg fun hs => h (hsilent.mp hs)

/-- There is an error among the diagnostics of a compile command just if it failed or announced
one. -/
theorem exists_error_diagnostics_iff (o : ProcessOutput) :
    (∃ d ∈ c.diagnostics unit o, d.kind = .error) ↔
      o.exitCode ≠ 0 ∨ ∃ d ∈ o.announced, d.kind = .error := by
  rw [diagnostics_eq]
  constructor
  · rintro ⟨d, hd, hkind⟩
    rcases List.mem_append.mp hd with hd | hd
    · obtain ⟨found, hfound, rfl⟩ := List.mem_map.mp hd
      exact .inr ⟨found, hfound, (Diagnostic.renamed_kind ..).symm.trans hkind⟩
    · split at hd
      · exact .inl (‹_ ∧ _›).1
      · cases hd
  · intro h
    by_cases hannounced : ∃ d ∈ o.announced, d.kind = .error
    · obtain ⟨d, hd, hkind⟩ := hannounced
      exact ⟨_, List.mem_append_left _ (List.mem_map_of_mem hd),
        (Diagnostic.renamed_kind ..).trans hkind⟩
    · have hsilent : o.exitCode ≠ 0 ∧ ∀ d ∈ o.announced, d.kind ≠ .error :=
        ⟨h.resolve_right hannounced, fun d hd hkind => hannounced ⟨d, hd, hkind⟩⟩
      rw [if_pos hsilent]
      exact ⟨_, List.mem_append_right _ (List.mem_singleton_self _), rfl⟩

/-- Compiling in its three parts: writing the source, running the compile command, and judging
it. -/
theorem run_compileBy (run : Invocation → HostM Error ProcessOutput) (host : Host) :
    (c.compileBy run unit).run.run host =
      match c.prepare unit host.view with
      | (tree, some fault) =>
        (.error (.singleError s!"Failed to write source for {unit.path}: {fault.message}"),
          host.withTree tree)
      | (tree, none) =>
        match (run (c.compileInvocation unit)).run.run (host.withTree tree) with
        | (.error e, after) => (.error (.singleError e.message), after)
        | (.ok o, after) =>
          (if (Report.ofList (c.diagnostics unit o)).hasErrors then
            .error (Report.ofList (c.diagnostics unit o))
          else .ok {
            sourcePath := unit.path
            fingerprint := unit.fingerprint
            warnings := (Report.ofList (c.diagnostics unit o)).warnings
            invoke := runLaunch c.runner ((c.placeholders unit).render c.commands.launch)
              (c.outDir unit) }, after) := by
  unfold compileBy
  rw [Host.run_bind_ok (Host.run_get host)]
  rcases c.prepare unit host.view with ⟨tree, _ | fault⟩
  · simp only
    rw [Host.run_bind_ok (Host.run_set ..)]
    have hadapt := World.run_adapt (fun e : Error => Report.singleError e.message)
      (run (c.compileInvocation unit)) (host.withTree tree)
    rcases hran : (run (c.compileInvocation unit)).run.run (host.withTree tree) with ⟨e | o, after⟩
    · rw [hran] at hadapt
      exact Host.run_bind_error hadapt _
    · rw [hran] at hadapt
      rw [Host.run_bind_ok hadapt]
      show (if (Report.ofList (c.diagnostics unit o)).hasErrors then
        throw (Report.ofList (c.diagnostics unit o)) else _ : HostM Report Artifact).run.run after =
          (if (Report.ofList (c.diagnostics unit o)).hasErrors then _ else _, after)
      split <;> rfl
  · rfl

/-- What compiling a unit comes to on a host, with something that runs the compile command. Where the
source cannot be written or the command does not end, the report is that one error. A command that
has ended is judged, whatever it has printed and with whatever code. There is no artifact just if
the code is not zero or an error was announced; then the report tells of the announced diagnostics
in order, retold for the unit, and of one more error just if the command failed without announcing
any. An artifact is the unit's own, and its warnings are all the announced diagnostics, retold for
the unit. -/
def Verdict (c : CommandCompiler) (unit : SourceUnit) (run : Invocation → HostM Error ProcessOutput)
    (host : Host) (outcome : Except Report Artifact × Host) : Prop :=
  match c.prepare unit host.view with
  | (tree, some fault) =>
    outcome = (.error (.singleError s!"Failed to write source for {unit.path}: {fault.message}"),
      host.withTree tree)
  | (tree, none) =>
    match (run (c.compileInvocation unit)).run.run (host.withTree tree) with
    | (.error e, after) => outcome = (.error (.singleError e.message), after)
    | (.ok o, after) => ∃ retold result,
      List.Forall₂ (Diagnostic.Retold (c.sourceFile unit) unit.path) o.announced retold ∧
      outcome = (result, after) ∧
      ((∃ report, result = .error report) ↔
        o.exitCode ≠ 0 ∨ ∃ d ∈ o.announced, d.kind = .error) ∧
      (∀ report, result = .error report →
        1 ≤ report.errorCount ∧
        report.Covers (retold ++
          if o.exitCode ≠ 0 ∧ ∀ d ∈ o.announced, d.kind ≠ .error then
            [{ kind := .error
               source := some unit.path
               message := c.commands.compile.head?.getD "compiler" ++ " exited with code " ++
                 toString o.exitCode ++ "\n" ++ Text.trimmedEnd (o.stdout ++ o.stderr)
               line := 0
               column := 0 }]
          else [])) ∧
      ∀ artifact, result = .ok artifact →
        artifact.sourcePath = unit.path ∧
        artifact.fingerprint = unit.fingerprint ∧
        artifact.warnings = .join (retold.map Diagnostic.render)

/-- The verdict on a unit, whatever runs the compile command. -/
theorem verdict_compileBy (run : Invocation → HostM Error ProcessOutput) (host : Host) :
    c.Verdict unit run host ((c.compileBy run unit).run.run host) := by
  unfold Verdict
  rw [run_compileBy]
  rcases c.prepare unit host.view with ⟨tree, _ | fault⟩
  case some => rfl
  simp only
  rcases (run (c.compileInvocation unit)).run.run (host.withTree tree) with ⟨e | o, after⟩
  case error => rfl
  simp only
  have hcovers := Report.covers_ofList (c.diagnostics unit o)
  have hverdict := hcovers.hasErrors_iff.trans (c.exists_error_diagnostics_iff unit o)
  generalize Report.ofList (c.diagnostics unit o) = report at hcovers hverdict ⊢
  rw [diagnostics_eq] at hcovers
  refine ⟨_, _, Diagnostic.forall₂_renamed .., rfl, ?_, ?_, ?_⟩
  · rw [← hverdict]
    split <;> simp [*]
  · intro failed hfailed
    split at hfailed
    · rename_i hsome
      obtain rfl := Except.error.inj hfailed
      exact ⟨of_decide_eq_true hsome, hcovers⟩
    · cases hfailed
  · intro artifact hartifact
    split at hartifact
    · cases hartifact
    · rename_i hnone
      obtain rfl := Except.ok.inj hartifact
      refine ⟨rfl, rfl, hcovers.warnings.trans ?_⟩
      -- with a successful exit nothing is added, and nothing that was announced is an error
      have hquiet : ¬ (o.exitCode ≠ 0 ∨ ∃ d ∈ o.announced, d.kind = .error) :=
        fun h => hnone (hverdict.mpr h)
      have hsuccess : ¬ (o.exitCode ≠ 0 ∧ ∀ d ∈ o.announced, d.kind ≠ .error) :=
        fun h => hquiet (.inl h.1)
      rw [if_neg hsuccess, List.append_nil, List.filter_eq_self.mpr]
      intro d hd
      obtain ⟨found, hfound, rfl⟩ := List.mem_map.mp hd
      have hkind : found.kind ≠ .error := fun hkind => hquiet (.inr ⟨found, hfound, hkind⟩)
      simpa [Diagnostic.renamed_kind] using hkind

/-- The compiler of some commands gives the verdict on every unit, with its own runner. What the
compile command prints, and its code, may be anything: the verdict stands with any other way to run
the command. -/
theorem verdict_compile (c : CommandCompiler) (unit : SourceUnit) (host : Host) :
    c.Verdict unit c.runner.run host ((c.toCompiler.compile unit).run.run host) ∧
      ∀ run, c.Verdict unit run host ((c.compileBy run unit).run.run host) :=
  ⟨verdict_compileBy c unit c.runner.run host, fun run => verdict_compileBy c unit run host⟩

end CommandCompiler

end ScriptHost
