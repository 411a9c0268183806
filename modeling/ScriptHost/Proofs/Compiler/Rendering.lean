import ScriptHost.Compiler.Command
import ScriptHost.Proofs.Files.Names
import ScriptHost.Proofs.Resource.Fingerprints
import ScriptHost.Proofs.Text.Substitution

/-!
# Rendering commands

The placeholders of a command are replaced one after the other. `CommandCompiler.render_at_once`
says when that is the same as replacing them all at once: when the path of the source file and the
output directory have nothing in common with the placeholders that are still to be replaced,
whatever the command and the main class are. Paths without braces are such; `render_expands_source`
is a path with braces that is not.
-/

namespace ScriptHost

/-! ## Placeholders -/

namespace Placeholders

/-- The placeholders of a command with what they stand for. -/
def entries (p : Placeholders) : List (List Char × List Char) :=
  [("\x7bsource\x7d".toList, p.source.toList), ("\x7bout_dir\x7d".toList, p.outDir.toList),
    ("\x7bmain_class\x7d".toList, p.mainClass.toList)]

/-- An argument with all its placeholders replaced at once: what is put in is copied as it is, and
everything else stays. -/
def filledAtOnce (p : Placeholders) (argument : String) : String :=
  .ofList (Text.substituted p.entries argument.toList)

/-- The paths that placeholders stand for have nothing in common with the placeholders that are
replaced after them. -/
structure Settled (p : Placeholders) : Prop where
  source_outDir : Text.Apart "\x7bout_dir\x7d".toList p.source.toList
  source_mainClass : Text.Apart "\x7bmain_class\x7d".toList p.source.toList
  outDir_mainClass : Text.Apart "\x7bmain_class\x7d".toList p.outDir.toList

/-- An argument is filled as if all its placeholders were replaced at once. -/
theorem Settled.fill_eq {p : Placeholders} (h : p.Settled) (argument : String) :
    p.fill argument = p.filledAtOnce argument := by
  have hfirst : ∀ entry ∈ [("\x7bsource\x7d".toList, p.source.toList)],
      Text.Apart "\x7bout_dir\x7d".toList entry.2 := by
    simpa using h.source_outDir
  have hfirstMarker : ∀ entry ∈ [("\x7bsource\x7d".toList, p.source.toList)],
      Text.Passes entry.1 "\x7bout_dir\x7d".toList := by
    simpa using (by decide : Text.Passes "\x7bsource\x7d".toList "\x7bout_dir\x7d".toList)
  have hboth : ∀ entry ∈ [("\x7bsource\x7d".toList, p.source.toList),
      ("\x7bout_dir\x7d".toList, p.outDir.toList)],
      Text.Apart "\x7bmain_class\x7d".toList entry.2 := by
    simpa using ⟨h.source_mainClass, h.outDir_mainClass⟩
  have hbothMarkers : ∀ entry ∈ [("\x7bsource\x7d".toList, p.source.toList),
      ("\x7bout_dir\x7d".toList, p.outDir.toList)],
      Text.Passes entry.1 "\x7bmain_class\x7d".toList := by
    simpa using (by decide : Text.Passes "\x7bsource\x7d".toList "\x7bmain_class\x7d".toList ∧
      Text.Passes "\x7bout_dir\x7d".toList "\x7bmain_class\x7d".toList)
  simp only [fill, filledAtOnce, Text.replaced, String.toList_ofList]
  rw [Text.replaceAll_eq_substituted "\x7bsource\x7d".toList,
    Text.replaceAll_substituted (by decide) hfirst hfirstMarker, List.singleton_append,
    Text.replaceAll_substituted (by decide) hboth hbothMarkers]
  rfl

/-- With all placeholders replaced at once, that of the source file gives its path. -/
theorem filledAtOnce_source (p : Placeholders) : p.filledAtOnce "\x7bsource\x7d" = p.source := by
  have hfind : p.entries.find? (Text.startsWithMarker ("\x7bsource\x7d".toList ++ [])) =
      some ("\x7bsource\x7d".toList, p.source.toList) := by
    rw [entries, List.find?_cons_of_pos]
    exact Text.startsWithMarker_iff.mpr ⟨List.cons_ne_nil _ _, List.prefix_append _ _⟩
  have hreplaced := Text.substituted_marker (by decide) hfind
  rw [List.append_nil, Text.substituted, List.append_nil] at hreplaced
  rw [filledAtOnce, hreplaced, String.ofList_toList]

/-- One after the other, it does not, where the placeholder of the output directory stands in the
path behind a text without an opening brace, and the output directory is an absolute path. -/
theorem fill_source_ne {p : Placeholders} {before after : List Char}
    (hsource : p.source.toList = before ++ ("\x7bout_dir\x7d".toList ++ after))
    (hbefore : '\x7b' ∉ before) {out : List Char} (hout : p.outDir.toList = '/' :: out) :
    p.fill "\x7bsource\x7d" ≠ p.source := by
  have hopen : '\x7b' ∉ before ++ ['/'] := by simp [hbefore]
  have houtDir : Text.Passes "\x7bout_dir\x7d".toList before :=
    Text.passes_of_not_mem hbefore "out_dir\x7d".toList
  have hmainClass : Text.Passes "\x7bmain_class\x7d".toList (before ++ ['/']) :=
    Text.passes_of_not_mem hopen "main_class\x7d".toList
  have hfilled : (p.fill ("\x7bsource\x7d" ++ "")).toList = (before ++ ['/']) ++
      Text.replaceAll "\x7bmain_class\x7d".toList p.mainClass.toList
        (out ++ Text.replaceAll "\x7bout_dir\x7d".toList p.outDir.toList after) := by
    simp only [fill, Text.replaced, String.toList_ofList, String.toList_append]
    rw [Text.replaceAll_marker (by decide), String.toList_empty, Text.replaceAll, List.append_nil,
      hsource, Text.replaceAll_append houtDir, Text.replaceAll_marker (by decide), hout,
      ← Text.replaceAll_append hmainClass]
    simp
  -- behind the text before the placeholder there is a slash now, and in the path a brace
  intro heq
  rw [String.append_empty, heq, hsource, List.append_assoc] at hfilled
  simp at hfilled

end Placeholders

/-! ## Paths without braces -/

/-- Neither brace is in a text. -/
def NoBrace (s : String) : Prop :=
  '\x7b' ∉ s.toList ∧ '\x7d' ∉ s.toList

instance (s : String) : Decidable (NoBrace s) :=
  inferInstanceAs (Decidable (_ ∧ _))

theorem NoBrace.append {s t : String} (hs : NoBrace s) (ht : NoBrace t) : NoBrace (s ++ t) := by
  simp only [NoBrace, String.toList_append, List.mem_append, not_or]
  exact ⟨⟨hs.1, ht.1⟩, hs.2, ht.2⟩

theorem NoBrace.joinPath {directory file : String} (hdirectory : NoBrace directory)
    (hfile : NoBrace file) : NoBrace (joinPath directory file) := by
  unfold ScriptHost.joinPath
  split
  · exact hfile
  · split
    · exact hdirectory.append hfile
    · exact (hdirectory.append (by decide)).append hfile

/-- The digits of a fingerprint are no braces. -/
theorem noBrace_short (content : ByteArray) : NoBrace (Fingerprint.of content).short :=
  ⟨Fingerprint.not_mem_short (by decide) content, Fingerprint.not_mem_short (by decide) content⟩

/-- The characters of a name are in every path that ends with it. -/
theorem mem_joinPath {c : Char} {file : String} (h : c ∈ file.toList) (directory : String) :
    c ∈ (joinPath directory file).toList := by
  unfold joinPath
  split
  · exact h
  · split <;> simp [h]

/-- Paths without braces are settled when each has a character that no placeholder after it has. -/
theorem Placeholders.settled_of_noBrace {source outDir : String} (hsource : NoBrace source)
    (hout : NoBrace outDir) (hdot : '.' ∈ source.toList) (he : 'e' ∈ outDir.toList)
    (mainClass : String) : Placeholders.Settled ⟨source, outDir, mainClass⟩ where
  source_outDir := Text.apart_of_no_brace "out_dir".toList hsource ⟨'.', hdot, by decide⟩
  source_mainClass := Text.apart_of_no_brace "main_class".toList hsource ⟨'.', hdot, by decide⟩
  outDir_mainClass := Text.apart_of_no_brace "main_class".toList hout ⟨'e', he, by decide⟩

namespace CommandCompiler

variable {c : CommandCompiler} {unit : SourceUnit}

/-- The paths of a unit are settled where no brace is in the work directory, the name of the
compiler, the extension and the stem of the unit. -/
theorem settled_of_noBrace (hdir : NoBrace c.workDir) (hname : NoBrace c.name)
    (hextension : NoBrace c.commands.extension) (hstem : NoBrace unit.stem)
    (hfingerprint : NoBrace unit.fingerprint.short) : (c.placeholders unit).Settled := by
  have hdash : NoBrace "-" := by decide
  have hunit : NoBrace (c.unitDir unit) :=
    (hdir.joinPath hname).joinPath
      ((((hstem.append hdash).append (noBrace_short _)).append hdash).append hfingerprint)
  have hsource : NoBrace (c.sourceFile unit) :=
    (hunit.joinPath (by decide)).joinPath ((hstem.append (by decide)).append hextension)
  have hout : NoBrace (c.outDir unit) := hunit.joinPath (by decide)
  have hdot : '.' ∈ (c.sourceFile unit).toList := mem_joinPath (by simp) _
  have he : 'e' ∈ (c.outDir unit).toList := mem_joinPath (by decide) _
  exact Placeholders.settled_of_noBrace hsource hout hdot he unit.mainClass

/-- The commands of a compiler are rendered as if all placeholders were replaced at once, whatever
the commands and the unit are, where the paths of the source file and the output directory have
nothing in common with the placeholders that are replaced after them. -/
theorem render_at_once (c : CommandCompiler) (unit : SourceUnit)
    (h : (c.placeholders unit).Settled) (template : List String) :
    (c.placeholders unit).render template =
      template.map (Placeholders.filledAtOnce ⟨c.sourceFile unit, c.outDir unit, unit.mainClass⟩) :=
  List.map_congr_left fun argument _ => h.fill_eq argument

/-- A compiler that prints the source it is given. -/
def printing : CommandCompiler where
  name := "toy"
  commands := ⟨"txt", ["cat", "\x7bsource\x7d"], ["echo", "\x7bmain_class\x7d"]⟩
  workDir := "/w"
  runner := ⟨.ofMillis 100, 3⟩

/-- The main class of a unit in a package is put into the launch command. -/
theorem render_at_once_printing :
    (printing.placeholders (.new "/Main.txt" "package a.b;")).Settled ∧
      (printing.placeholders (.new "/Main.txt" "package a.b;")).render printing.commands.launch =
        ["echo", "a.b.Main"] := by
  have hsettled : (printing.placeholders (.new "/Main.txt" "package a.b;")).Settled :=
    settled_of_noBrace (by decide) (by decide) (by decide) (by decide +kernel) (noBrace_short _)
  exact ⟨hsettled, (render_at_once printing _ hsettled _).trans (by decide +kernel)⟩

/-- A path below a directory starts with the directory. -/
theorem prefix_joinPath {file : String} (h : file.toList.head? ≠ some '/') (directory : String) :
    directory.toList <+: (joinPath directory file).toList := by
  rw [joinPath_relative h, String.toList_append]
  exact (prefix_directoryFront directory).trans (List.prefix_append _ _)

/-- The directory of a unit starts with the directory of the compiler and the stem of the unit. -/
theorem prefix_unitDir (c : CommandCompiler) {unit : SourceUnit}
    (h : unit.stem.toList.head? ≠ some '/') :
    (directoryFront (joinPath c.workDir c.name)).toList ++ unit.stem.toList <+:
      (c.unitDir unit).toList := by
  have hname : (unitName unit).toList.head? ≠ some '/' := by
    cases hstem : unit.stem.toList <;> simp_all [unitName]
  rw [unitDir, joinPath_relative hname, unitName]
  simp only [String.toList_append, List.append_assoc]
  rw [← List.append_assoc]
  exact List.prefix_append _ _

/-- A unit in whose file name the placeholder of the output directory stands. -/
def bracedUnit : SourceUnit :=
  .new "/{out_dir}.txt" "x"

/-- The compile command is not told the path of such a source file: the output directory is put into
the name of the file, too. Replacing all placeholders at once would give the path. -/
theorem render_expands_source :
    (printing.placeholders bracedUnit).render ["\x7bsource\x7d"] ≠
        [printing.sourceFile bracedUnit] ∧
      ["\x7bsource\x7d"].map (printing.placeholders bracedUnit).filledAtOnce =
        [printing.sourceFile bracedUnit] := by
  have hstem : bracedUnit.stem = "\x7bout_dir\x7d" := by decide +kernel
  have hcompiler : (directoryFront (joinPath printing.workDir printing.name)).toList =
      "/w/toy/".toList := by
    decide +kernel
  have hunit : "/w/toy/".toList ++ "\x7bout_dir\x7d".toList <+:
      (printing.unitDir bracedUnit).toList := by
    rw [← hcompiler, ← hstem]
    exact prefix_unitDir printing (by simp [hstem])
  have hsource : "/w/toy/".toList ++ "\x7bout_dir\x7d".toList <+:
      (printing.sourceFile bracedUnit).toList :=
    hunit.trans <| (prefix_joinPath (by decide) _).trans (prefix_joinPath (by simp [hstem]) _)
  have hout : "/w/toy/".toList ++ "\x7bout_dir\x7d".toList <+:
      (printing.outDir bracedUnit).toList :=
    hunit.trans (prefix_joinPath (by decide) _)
  obtain ⟨after, hafter⟩ := hsource
  obtain ⟨out, hslash⟩ := (List.prefix_append ['/'] "w/toy/\x7bout_dir\x7d".toList).trans hout
  have hsplit : (printing.placeholders bracedUnit).source.toList =
      "/w/toy/".toList ++ ("\x7bout_dir\x7d".toList ++ after) :=
    hafter.symm.trans (List.append_assoc ..)
  refine ⟨fun heq => ?_, ?_⟩
  · exact Placeholders.fill_source_ne hsplit (by decide) hslash.symm (List.singleton_inj.mp heq)
  · exact congrArg (· :: []) (Placeholders.filledAtOnce_source _)

end CommandCompiler

end ScriptHost
