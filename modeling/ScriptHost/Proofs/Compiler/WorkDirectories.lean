import Mathlib.Data.List.TakeWhile
import ScriptHost.Proofs.Compiler.Rendering
import ScriptHost.Proofs.Resource.Confinement
import ScriptHost.Proofs.Resource.Fingerprints

/-!
# The directories of units

Every unit is compiled in a directory of its own. Its name puts together the stem of the unit and
the short fingerprints of its path and its content, with dashes between them. The fingerprint of a
unit is that of some content, the text or the bytes that the text was read from. The stem may have
dashes, too, but what is behind it always has the same length, so that the name gives all three
parts back, `unitName_eq_iff`. The name has a dash and no slash in it, so that it is the name of an
entry, `isEntryName_unitName`. `unitDirs_apart_and_confined` puts both together: where the short
fingerprints tell paths and contents apart, the directories of two units are apart, and the
directory of every unit lies directly below that of its compiler.
-/

namespace ScriptHost

/-- Two paths lead apart: in no tree does one lead to a place at or below the place of the other. -/
def FileTree.LeadApart (path other : String) : Prop :=
  ∀ (t : FileTree) (cwd place otherPlace : List String), t.resolve cwd path = .ok place →
    t.resolve cwd other = .ok otherPlace → ¬ place <+: otherPlace ∧ ¬ otherPlace <+: place

namespace SourceUnit

/-! ## Stems -/

theorem slash_not_mem_stem (unit : SourceUnit) : '/' ∉ unit.stem.toList := by
  rw [stem, stemOf, String.toList_ofList]
  intro hstem
  have hname := List.mem_reverse.mp ((List.takeWhile_subset _) hstem)
  exact absurd (List.mem_takeWhile_imp hname) (by decide)

theorem dot_not_mem_stem (unit : SourceUnit) : '.' ∉ unit.stem.toList := by
  rw [stem, stemOf, String.toList_ofList]
  intro hstem
  exact absurd (List.mem_takeWhile_imp hstem) (by decide)

/-- The stem of a unit is that of its path. -/
theorem stem_eq_of_path {unit other : SourceUnit} (h : unit.path = other.path) :
    unit.stem = other.stem := by
  rw [stem, h, stem]

/-- Two units come from the same source: they have the same path and the same fingerprint. -/
def SameSource (unit other : SourceUnit) : Prop :=
  unit.path = other.path ∧ unit.fingerprint = other.fingerprint

end SourceUnit

namespace CommandCompiler

open ResourceStore

variable {unit other : SourceUnit} {content otherContent : ByteArray}

/-! ## Names of directories -/

/-- The characters of the name of a directory. -/
theorem toList_unitName (unit : SourceUnit) : (unitName unit).toList =
    unit.stem.toList ++ ('-' :: (Fingerprint.of unit.path.toUTF8).short.toList) ++
      ('-' :: unit.fingerprint.short.toList) := by
  simp [unitName]

/-- The name of a directory gives back the parts it was put together from. -/
theorem unitName_eq_iff (hunit : unit.fingerprint = .of content)
    (hother : other.fingerprint = .of otherContent) :
    unitName unit = unitName other ↔ unit.stem = other.stem ∧
      (Fingerprint.of unit.path.toUTF8).short = (Fingerprint.of other.path.toUTF8).short ∧
      unit.fingerprint.short = other.fingerprint.short := by
  constructor
  · intro hname
    rw [← String.toList_inj, toList_unitName, toList_unitName] at hname
    -- whatever dashes are in the stems, the last two parts are cut off by their lengths
    obtain ⟨hfront, hcontent⟩ := List.append_inj' hname (by
      rw [List.length_cons, List.length_cons, hunit, hother, Fingerprint.length_short,
        Fingerprint.length_short])
    obtain ⟨hstem, hpath⟩ := List.append_inj' hfront (by
      rw [List.length_cons, List.length_cons, Fingerprint.length_short, Fingerprint.length_short])
    exact ⟨String.toList_inj.mp hstem, String.toList_inj.mp (List.cons.inj hpath).2,
      String.toList_inj.mp (List.cons.inj hcontent).2⟩
  · rintro ⟨hstem, hpath, hcontent⟩
    rw [unitName, hstem, hpath, hcontent, unitName]

/-- Where short fingerprints tell paths and contents apart, the directories of two units have the
same name exactly if the units come from the same source. -/
theorem unitName_eq_iff_sameSource (hunit : unit.fingerprint = .of content)
    (hother : other.fingerprint = .of otherContent)
    (hpaths : ShortlyDistinguishable [unit.path.toUTF8, other.path.toUTF8])
    (hcontents : ShortlyDistinguishable [content, otherContent]) :
    unitName unit = unitName other ↔ unit.SameSource other := by
  rw [unitName_eq_iff hunit hother]
  constructor
  · rintro ⟨-, hpath, hfingerprint⟩
    have hbytes := shortlyDistinguishable_pair.mp hpaths hpath
    rw [String.toUTF8_eq_toByteArray, String.toUTF8_eq_toByteArray] at hbytes
    have hcontent : content = otherContent := by
      rw [hunit, hother] at hfingerprint
      exact shortlyDistinguishable_pair.mp hcontents hfingerprint
    exact ⟨String.toByteArray_inj.mp hbytes, by rw [hunit, hother, hcontent]⟩
  · rintro ⟨hpath, hfingerprint⟩
    rw [SourceUnit.stem_eq_of_path hpath, hpath, hfingerprint]
    exact ⟨rfl, rfl, rfl⟩

/-- The name of a directory has a dash, whatever the path is, and no slash. -/
theorem isEntryName_unitName (hunit : unit.fingerprint = .of content) :
    FileTree.IsEntryName (unitName unit) := by
  have hdash : '-' ∈ (unitName unit).toList := by simp [toList_unitName]
  have hne {s : String} (hs : '-' ∉ s.toList) : unitName unit ≠ s := fun heq => hs (heq ▸ hdash)
  refine ⟨hne (by decide), hne (by decide), hne (by decide), ?_⟩
  have hpath := Fingerprint.not_mem_short (c := '/') (by decide) unit.path.toUTF8
  have hcontent := Fingerprint.not_mem_short (c := '/') (by decide) content
  rw [← hunit] at hcontent
  simp only [toList_unitName, List.mem_append, List.mem_cons, not_or]
  exact ⟨⟨unit.slash_not_mem_stem, by decide, hpath⟩, by decide, hcontent⟩

/-! ## Directories -/

/-- The directory of a unit lies below that of the compiler, at the name of the directory. -/
theorem below_unitDir (c : CommandCompiler) (hunit : unit.fingerprint = .of content) :
    Below (joinPath c.workDir c.name) [unitName unit] (c.unitDir unit) :=
  below_joinPath (isEntryName_unitName hunit) _

/-- The names on the paths of two directories are the same if their own names are. -/
theorem names_unitDir_eq_iff (c : CommandCompiler) (hunit : unit.fingerprint = .of content)
    (hother : other.fingerprint = .of otherContent) :
    FileTree.names (c.unitDir unit) = FileTree.names (c.unitDir other) ↔
      unitName unit = unitName other := by
  rw [(c.below_unitDir hunit).names, (c.below_unitDir hother).names,
    List.append_cancel_left_eq, List.singleton_inj]

/-- The paths of two directories are the same if their names are. -/
theorem unitDir_eq_iff (c : CommandCompiler) (hunit : unit.fingerprint = .of content)
    (hother : other.fingerprint = .of otherContent) :
    c.unitDir unit = c.unitDir other ↔ unitName unit = unitName other := by
  constructor
  · intro hdir
    exact (c.names_unitDir_eq_iff hunit hother).mp (congrArg FileTree.names hdir)
  · intro hname
    rw [unitDir, hname, unitDir]

/-- Directories of different names lead apart. -/
theorem leadApart_unitDir (c : CommandCompiler) (hunit : unit.fingerprint = .of content)
    (hother : other.fingerprint = .of otherContent) (hname : unitName unit ≠ unitName other) :
    FileTree.LeadApart (c.unitDir unit) (c.unitDir other) := by
  intro t cwd place otherPlace hplace hotherPlace
  have hbelow := c.below_unitDir hunit
  have hotherBelow := c.below_unitDir hother
  constructor
  · intro hwithin
    have hnames := hbelow.prefix_of_place hotherBelow hplace hotherPlace hwithin
    exact hname (by simpa using hnames)
  · intro hwithin
    have hnames := hotherBelow.prefix_of_place hbelow hotherPlace hplace hwithin
    exact hname.symm (by simpa using hnames)

/-- Where short fingerprints tell paths and contents apart, two units are compiled in the same
directory, be it in spelling or by names, exactly if they have the same path and the same
fingerprint, and otherwise their directories lead apart. The directory of every unit, whatever its
path is, has one name more than that of the compiler, which is neither empty nor made of dots and
has no slash in it, and lies below the compiler's directory at that name. The stem of a unit has
neither a slash nor a dot in it. -/
theorem unitDirs_apart_and_confined (c : CommandCompiler) :
    (∀ (unit other : SourceUnit) (content otherContent : ByteArray),
      unit.fingerprint = .of content → other.fingerprint = .of otherContent →
      ShortlyDistinguishable [unit.path.toUTF8, other.path.toUTF8] →
      ShortlyDistinguishable [content, otherContent] →
      (c.unitDir unit = c.unitDir other ↔ unit.SameSource other) ∧
      (FileTree.names (c.unitDir unit) = FileTree.names (c.unitDir other) ↔
        unit.SameSource other) ∧
      (¬ unit.SameSource other → FileTree.LeadApart (c.unitDir unit) (c.unitDir other))) ∧
    ∀ unit : SourceUnit, '/' ∉ unit.stem.toList ∧ '.' ∉ unit.stem.toList ∧
      ∀ content : ByteArray, unit.fingerprint = .of content →
        FileTree.IsEntryName (unitName unit) ∧
        Below (joinPath c.workDir c.name) [unitName unit] (c.unitDir unit) := by
  refine ⟨fun unit other content otherContent hunit hother hpaths hcontents => ?_, fun unit => ?_⟩
  · have hname := unitName_eq_iff_sameSource hunit hother hpaths hcontents
    exact ⟨(c.unitDir_eq_iff hunit hother).trans hname,
      (c.names_unitDir_eq_iff hunit hother).trans hname,
      fun hdiffer => c.leadApart_unitDir hunit hother fun heq => hdiffer (hname.mp heq)⟩
  · exact ⟨unit.slash_not_mem_stem, unit.dot_not_mem_stem, fun content hunit =>
      ⟨isEntryName_unitName hunit, c.below_unitDir hunit⟩⟩

/-- Two units in different folders have the same text and an empty stem. Their directories lead
apart, and lie below that of the compiler. -/
theorem unitDirs_apart_and_confined_dotted :
    ShortlyDistinguishable ["/a/..".toUTF8, "/b/..".toUTF8] ∧
      ShortlyDistinguishable ["OUT a".toUTF8, "OUT a".toUTF8] ∧
      FileTree.LeadApart (printing.unitDir (.new "/a/.." "OUT a"))
        (printing.unitDir (.new "/b/.." "OUT a")) ∧
      Below "/w/toy" [unitName (.new "/a/.." "OUT a")]
        (printing.unitDir (.new "/a/.." "OUT a")) := by
  have hpaths : ShortlyDistinguishable ["/a/..".toUTF8, "/b/..".toUTF8] := by
    have hne : (Fingerprint.of "/a/..".toUTF8).short ≠ (Fingerprint.of "/b/..".toUTF8).short := by
      decide +kernel
    exact shortlyDistinguishable_pair.mpr fun heq => absurd heq hne
  have hcontents : ShortlyDistinguishable ["OUT a".toUTF8, "OUT a".toUTF8] :=
    shortlyDistinguishable_pair.mpr fun _ => rfl
  have hdirectory : joinPath printing.workDir printing.name = "/w/toy" := by decide +kernel
  obtain ⟨-, -, hapart⟩ := (unitDirs_apart_and_confined printing).1 (.new "/a/.." "OUT a")
    (.new "/b/.." "OUT a") _ _ rfl rfl hpaths hcontents
  obtain ⟨-, -, hconfined⟩ := (unitDirs_apart_and_confined printing).2 (.new "/a/.." "OUT a")
  refine ⟨hpaths, hcontents, hapart fun hsame => ?_, hdirectory ▸ (hconfined _ rfl).2⟩
  exact absurd hsame.1 (by decide)

end CommandCompiler

end ScriptHost
