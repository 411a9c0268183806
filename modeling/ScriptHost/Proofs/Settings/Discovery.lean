import Mathlib.Logic.ExistsUnique
import ScriptHost.Proofs.Settings.Merging
import ScriptHost.Settings.Layers

/-!
# Discovering settings

Looking for a user file and a project file never fails, whatever there is in their places:
`LoadedSettings.load_discovery`. `Finding` is what can come of looking at one path, and `Finds` when
it does. What is loaded after some looks is `GatheredFrom` them, and one more look keeps it so.
-/

namespace ScriptHost

/-- What looking at a place for settings comes to. -/
inductive Finding where
  /-- There is no file. -/
  | nothing
  /-- There is a file that cannot be used. -/
  | rejected (fault : SettingsFault)
  /-- There is a file with settings. -/
  | usable (settings : Settings)

namespace Finding

/-- The settings that a finding gives. -/
def settings? : Finding → Option Settings
  | usable settings => some settings
  | _ => none

/-- The layer of a finding at a path. -/
def layer (kind : LayerKind) (path : String) : Finding → Layer
  | usable settings => ⟨kind, path, settings.sectionNames, true⟩
  | _ => ⟨kind, path, [], false⟩

/-- The warning about a finding at a path. -/
def warning? (path : String) : Finding → Option String
  | rejected fault => some s!"{path}: {fault.message}"
  | _ => none

end Finding

/-- A look at a path for a layer of some kind, and what comes of it. -/
structure Look where
  kind : LayerKind
  path : String
  finding : Finding

namespace Look

/-- The layer that a look adds. -/
def layer (look : Look) : Layer :=
  look.finding.layer look.kind look.path

/-- The warning that a look gives. -/
def warning? (look : Look) : Option String :=
  look.finding.warning? look.path

end Look

/-- When a path gives a finding: by whether there is a file, whether it can be read, whether it is
text, whether the text is a settings document, and whether the settings can be worked with. -/
inductive Finds (access : FileAccess) (path : String) : Finding → Prop
  | nothing (hfile : access.isFile path = false) : Finds access path .nothing
  | unreadable {fault : FileFault} (hfile : access.isFile path = true)
      (hread : access.read path = .error fault) :
      Finds access path (.rejected (.unreadable path))
  | notText {content : ByteArray} (hfile : access.isFile path = true)
      (hread : access.read path = .ok content) (htext : String.fromUTF8? content = none) :
      Finds access path (.rejected (.unreadable path))
  | malformed {content : ByteArray} {text : String} (hfile : access.isFile path = true)
      (hread : access.read path = .ok content) (htext : String.fromUTF8? content = some text)
      (hdocument : (Toml.read? text).bind Settings.decode = none) :
      Finds access path (.rejected .malformed)
  | refused {content : ByteArray} {text : String} {settings : Settings} {fault : SettingsFault}
      (hfile : access.isFile path = true) (hread : access.read path = .ok content)
      (htext : String.fromUTF8? content = some text)
      (hdocument : (Toml.read? text).bind Settings.decode = some settings)
      (hfault : settings.fault? = some fault) : Finds access path (.rejected fault)
  | usable {content : ByteArray} {text : String} {settings : Settings}
      (hfile : access.isFile path = true) (hread : access.read path = .ok content)
      (htext : String.fromUTF8? content = some text)
      (hdocument : (Toml.read? text).bind Settings.decode = some settings)
      (hfault : settings.fault? = none) : Finds access path (.usable settings)

variable {access : FileAccess} {path : String} {finding : Finding}

theorem exists_finds (access : FileAccess) (path : String) :
    ∃ finding, Finds access path finding := by
  cases hfile : access.isFile path with
  | false => exact ⟨_, .nothing hfile⟩
  | true =>
  cases hread : access.read path with
  | error fault => exact ⟨_, .unreadable hfile hread⟩
  | ok content =>
  cases htext : String.fromUTF8? content with
  | none => exact ⟨_, .notText hfile hread htext⟩
  | some text =>
  cases hdocument : (Toml.read? text).bind Settings.decode with
  | none => exact ⟨_, .malformed hfile hread htext hdocument⟩
  | some settings =>
  cases hfault : settings.fault? with
  | some fault => exact ⟨_, .refused hfile hread htext hdocument hfault⟩
  | none => exact ⟨_, .usable hfile hread htext hdocument hfault⟩

theorem Finds.unique {other : Finding} (h : Finds access path finding)
    (hother : Finds access path other) : finding = other := by
  cases h <;> cases hother <;> grind

/-- Every path gives one finding. -/
theorem existsUnique_finds (access : FileAccess) (path : String) :
    ∃! finding, Finds access path finding := by
  obtain ⟨finding, hfinding⟩ := exists_finds access path
  exact ⟨finding, hfinding, fun other hother => hother.unique hfinding⟩

/-- In a tree there is nothing to find where a path leads nowhere, to a directory or to a device. -/
theorem finds_nothing_iff {files : FileTree} {cwd : List String} :
    Finds (files.access cwd) path .nothing ↔
      (∃ fault, files.lookup cwd path = .error fault) ∨
        ∃ place, files.lookup cwd path = .ok (place, .directory) ∨
          files.lookup cwd path = .ok (place, .nullDevice) := by
  have hfile : Finds (files.access cwd) path .nothing ↔ files.isFile cwd path = false :=
    ⟨fun | .nothing hfile => hfile, fun hfile => .nothing hfile⟩
  rw [hfile, FileTree.isFile]
  rcases files.lookup cwd path with fault | ⟨place, node⟩
  · simp
  · cases node <;> simp

/-- A path that leads to a file of a tree gives the file's content to read. -/
theorem access_of_lookup {files : FileTree} {cwd place : List String} {content : ByteArray}
    (h : files.lookup cwd path = .ok (place, .file content)) :
    (files.access cwd).isFile path = true ∧ (files.access cwd).read path = .ok content := by
  constructor
  · show files.isFile cwd path = true
    simp [FileTree.isFile, h]
  · show files.read cwd path = .ok content
    simp only [FileTree.read, h]
    rfl

/-- Settings that are found are usable. -/
theorem Finds.settings_usable (h : Finds access path finding) :
    ∀ settings ∈ finding.settings?, settings.Usable := by
  intro settings hsettings
  cases h with
  | usable _ _ _ _ hfault =>
      cases hsettings
      exact Settings.fault?_eq_none_iff.mp hfault
  | nothing | unreadable | notText | malformed | refused => cases hsettings

namespace Settings

/-- Reading a file again, in terms of its text. -/
theorem ofFile_of_text {content : ByteArray} {text : String}
    (hread : access.read path = .ok content) (htext : String.fromUTF8? content = some text) :
    ofFile access path = ofDocument text := by
  unfold ofFile
  rw [hread]
  simp only [htext]

end Settings

namespace LoadedSettings

/-- What a finding adds to what is loaded: its layer, its settings if it gives any, and the warning
about it if there is one. -/
theorem addLayer_of_finds (h : Finds access path finding) (kind : LayerKind)
    (loaded : LoadedSettings) :
    loaded.addLayer access kind path =
      { settings := finding.settings?.toList.foldl Settings.overlaidBy loaded.settings
        layers := loaded.layers ++ [finding.layer kind path]
        warnings := loaded.warnings ++ (finding.warning? path).toList } := by
  unfold addLayer
  cases h with
  | nothing hfile => simp [hfile, Finding.settings?, Finding.layer, Finding.warning?]
  | unreadable hfile hread =>
      simp [hfile, Settings.ofFile, hread, Finding.settings?, Finding.layer, Finding.warning?]
  | notText hfile hread htext =>
      simp [hfile, Settings.ofFile, hread, htext, Finding.settings?, Finding.layer,
        Finding.warning?]
  | malformed hfile hread htext hdocument =>
      simp [hfile, Settings.ofFile_of_text hread htext, Settings.ofDocument, hdocument,
        Finding.settings?, Finding.layer, Finding.warning?]
  | refused hfile hread htext hdocument hfault =>
      simp [hfile, Settings.ofFile_of_text hread htext, Settings.ofDocument, hdocument,
        Settings.checked, hfault, Finding.settings?, Finding.layer, Finding.warning?]
  | usable hfile hread htext hdocument hfault =>
      simp [hfile, Settings.ofFile_of_text hread htext, Settings.ofDocument, hdocument,
        Settings.checked, hfault, Finding.settings?, Finding.layer, Finding.warning?]

/-- What is loaded is gathered from some looks: the settings are the usable ones that were found,
merged in the order of the looks, and usable again; each look has a layer, and each file that was
rejected a warning. -/
structure GatheredFrom (access : FileAccess) (looks : List Look) (loaded : LoadedSettings) :
    Prop where
  finds : ∀ look ∈ looks, Finds access look.path look.finding
  settings_eq : loaded.settings =
    (looks.filterMap fun look => look.finding.settings?).foldl Settings.overlaidBy .empty
  accepted : loaded.settings.fault? = none
  layers_eq : loaded.layers = looks.map Look.layer
  warnings_eq : loaded.warnings = looks.filterMap Look.warning?

theorem gatheredFrom_empty (access : FileAccess) : GatheredFrom access [] empty where
  finds _ h := absurd h List.not_mem_nil
  settings_eq := rfl
  accepted := Settings.fault?_eq_none_iff.mpr Settings.usable_empty
  layers_eq := rfl
  warnings_eq := rfl

/-- One more look keeps what is loaded gathered from the looks. Found settings are usable, and so
they stay when they are laid over others. -/
theorem GatheredFrom.addLayer {looks : List Look} {loaded : LoadedSettings}
    (h : GatheredFrom access looks loaded) (look : Look)
    (hfinds : Finds access look.path look.finding) :
    GatheredFrom access (looks ++ [look]) (loaded.addLayer access look.kind look.path) := by
  have husable : ∀ settings ∈ look.finding.settings?.toList, settings.Usable :=
    fun settings hsettings => hfinds.settings_usable settings (Option.mem_toList.mp hsettings)
  rw [addLayer_of_finds hfinds]
  constructor
  case finds =>
    intro other hother
    rcases List.mem_append.mp hother with hother | hother
    · exact h.finds other hother
    · obtain rfl := List.mem_singleton.mp hother
      exact hfinds
  case settings_eq =>
    rw [List.filterMap_append, List.foldl_append, ← h.settings_eq]
    cases hsettings : look.finding.settings? <;> simp [hsettings]
  case accepted =>
    exact Settings.fault?_eq_none_iff.mpr
      (Settings.usable_foldl (Settings.fault?_eq_none_iff.mp h.accepted) husable)
  case layers_eq => simp [h.layers_eq, Look.layer]
  case warnings_eq =>
    rw [h.warnings_eq, List.filterMap_append]
    cases hwarning : look.finding.warning? look.path <;> simp [Look.warning?, hwarning]

/-- Discovery gives what is gathered from the user's file, if it has a place, and the project's. -/
theorem loadFrom_discover (access : FileAccess) (userDir : Option String) (projectDir : String) :
    ∃ loaded looks, loadFrom access (.discover userDir projectDir) = .ok loaded ∧
      looks.map (fun look => (look.kind, look.path)) =
        (userDir.toList.map fun dir => (LayerKind.user, joinPath dir userFile)) ++
          [(.project, joinPath projectDir projectFile)] ∧
      loaded.GatheredFrom access looks := by
  have huser : ∃ looks,
      looks.map (fun look => (look.kind, look.path)) =
        (userDir.toList.map fun dir => (LayerKind.user, joinPath dir userFile)) ∧
      (empty.addUserLayer access userDir).GatheredFrom access looks := by
    cases userDir with
    | none => exact ⟨[], rfl, gatheredFrom_empty access⟩
    | some dir =>
        obtain ⟨finding, hfinding⟩ := exists_finds access (joinPath dir userFile)
        exact ⟨[⟨.user, joinPath dir userFile, finding⟩], rfl,
          (gatheredFrom_empty access).addLayer _ hfinding⟩
  obtain ⟨looks, hplaces, hgathered⟩ := huser
  obtain ⟨finding, hfinding⟩ := exists_finds access (joinPath projectDir projectFile)
  have hboth := hgathered.addLayer ⟨.project, joinPath projectDir projectFile, finding⟩ hfinding
  refine ⟨_, _, ?_, ?_, hboth⟩
  · simp only [loadFrom, Settings.checked, hboth.accepted]
    rfl
  · rw [List.map_append, hplaces]
    rfl

/-- Whatever the files of a tree are, discovery loads settings from them. They are gathered from the
user's file, which is in the given directory or else where the environment says, if anywhere, and
the project's file, which is in the given directory or else in the working directory. That holds of
files that cannot be read as well, which a tree has none of: of any answers to whether there is a
file and what reading it gives. Every path gives one finding; it is that there is nothing, where a
path of a tree leads nowhere, to a directory or to a device, and it goes by the content where it
leads to a file. What gathering rests on is that merging keeps settings usable, that it does not
matter how merges are nested, and that the empty settings add nothing. -/
theorem load_discovery (vars : Variables) (userDir projectDir : Option String) :
    let source := SettingsSource.discovery vars userDir projectDir
    let places :=
      ((userDir.or (Directories.userSettings? vars)).toList.map fun dir =>
        (LayerKind.user, joinPath dir userFile)) ++
      [(LayerKind.project, joinPath (projectDir.getD "") projectFile)]
    (∀ (files : FileTree) (cwd : List String),
      (∃ loaded looks, load files cwd source = .ok loaded ∧
        looks.map (fun look => (look.kind, look.path)) = places ∧
        loaded.GatheredFrom (files.access cwd) looks) ∧
      ∀ path,
        (Finds (files.access cwd) path .nothing ↔
          (∃ fault, files.lookup cwd path = .error fault) ∨
            ∃ place, files.lookup cwd path = .ok (place, .directory) ∨
              files.lookup cwd path = .ok (place, .nullDevice)) ∧
        ∀ place content, files.lookup cwd path = .ok (place, .file content) →
          (files.access cwd).isFile path = true ∧ (files.access cwd).read path = .ok content) ∧
    (∀ access : FileAccess,
      (∃ loaded looks, loadFrom access source = .ok loaded ∧
        looks.map (fun look => (look.kind, look.path)) = places ∧
        loaded.GatheredFrom access looks) ∧
      ∀ path, ∃! finding, Finds access path finding) ∧
    (∀ lower upper : Settings, lower.fault? = none → upper.fault? = none →
      (lower.overlaidBy upper).fault? = none) ∧
    (∀ a b c : Settings, (a.overlaidBy b).overlaidBy c = a.overlaidBy (b.overlaidBy c)) ∧
    ∀ s : Settings, Settings.empty.overlaidBy s = s ∧ s.overlaidBy .empty = s := by
  refine ⟨fun files cwd => ⟨loadFrom_discover (files.access cwd) _ _, fun path =>
    ⟨finds_nothing_iff, fun _ _ => access_of_lookup⟩⟩, fun access =>
    ⟨loadFrom_discover access _ _, existsUnique_finds access⟩, ?_, Settings.overlaidBy_assoc,
    fun s => ⟨Settings.empty_overlaidBy s, Settings.overlaidBy_empty s⟩⟩
  intro lower upper hlower hupper
  rw [Settings.fault?_eq_none_iff] at *
  exact hlower.overlaidBy hupper

end LoadedSettings

end ScriptHost
