import ScriptHost.Settings.Directories
import ScriptHost.Settings.Document

/-!
# Layers of settings

Settings come from one explicit file, or from a user file and a project file laid over it. A found
file that cannot be used is skipped with a warning; an explicit file must be usable. Every layer
remembers which sections it gave, so that the origin of a section can be named.
-/

namespace ScriptHost

/-- Where a layer of settings comes from. -/
inductive LayerKind where
  | user
  | project
  | explicit
  deriving DecidableEq, Repr

/-- Where to look for settings. -/
inductive SettingsSource where
  /-- The user file in one directory, if there is such a directory, and the project file in
  another. -/
  | discover (userDir : Option String) (projectDir : String)
  /-- One file. -/
  | file (path : String)
  deriving DecidableEq, Repr

/-- Discovery in the given directories. The user's settings are otherwise where the environment says,
and the project is otherwise in the working directory. -/
def SettingsSource.discovery (vars : Variables) (userDir projectDir : Option String) :
    SettingsSource :=
  .discover (userDir.or (Directories.userSettings? vars)) (projectDir.getD "")

/-- A file that was looked at, and the sections taken from it. -/
structure Layer where
  kind : LayerKind
  path : String
  sections : List String
  loaded : Bool
  deriving DecidableEq, Repr

/-- Settings with the layers they come from and the warnings about skipped files. -/
structure LoadedSettings where
  settings : Settings
  layers : List Layer
  warnings : List String

/-- What loading asks of the files: whether a path leads to a file, and what reading it gives. -/
structure FileAccess where
  isFile : String → Bool
  read : String → Except FileFault ByteArray

/-- The files of a tree, seen from a working directory. -/
def FileTree.access (files : FileTree) (cwd : List String) : FileAccess :=
  ⟨files.isFile cwd, files.read cwd⟩

namespace Settings

/-- The names of the sections that are given. -/
def sectionNames (s : Settings) : List String :=
  [("runtime", s.locations.isSome), ("engines", s.engines.isSome), ("command", s.command.isSome),
    ("storage", s.storage.isSome), ("scheduler", s.scheduler.isSome),
    ("jobs", !s.jobs.isEmpty)].filterMap fun (name, given) => if given then some name else none

/-- The settings in a file. -/
def ofFile (access : FileAccess) (path : String) : Except SettingsFault Settings :=
  match access.read path with
  | .error _ => .error (.unreadable path)
  | .ok content =>
    match String.fromUTF8? content with
    | none => .error (.unreadable path)
    | some text => ofDocument text

end Settings

namespace LoadedSettings

/-- Nothing is loaded yet. -/
def empty : LoadedSettings :=
  ⟨.empty, [], []⟩

/-- Look at one more file. A missing file adds a layer that gives nothing, and a file that cannot be
used adds a warning as well. -/
def addLayer (access : FileAccess) (kind : LayerKind) (path : String) (loaded : LoadedSettings) :
    LoadedSettings :=
  if access.isFile path then
    match Settings.ofFile access path with
    | .ok settings =>
      { settings := loaded.settings.overlaidBy settings
        layers := loaded.layers ++ [⟨kind, path, settings.sectionNames, true⟩]
        warnings := loaded.warnings }
    | .error fault =>
      { loaded with
        layers := loaded.layers ++ [⟨kind, path, [], false⟩]
        warnings := loaded.warnings ++ [s!"{path}: {fault.message}"] }
  else { loaded with layers := loaded.layers ++ [⟨kind, path, [], false⟩] }

/-- The name of the user's file. -/
def userFile : String := "config.toml"

/-- The name of the project's file. -/
def projectFile : String := "scriptor.toml"

/-- Look at the user's file, if there is a directory for it. -/
def addUserLayer (access : FileAccess) (userDir : Option String) (loaded : LoadedSettings) :
    LoadedSettings :=
  match userDir with
  | some dir => loaded.addLayer access .user (joinPath dir userFile)
  | none => loaded

/-- Load the settings of a source from files. -/
def loadFrom (access : FileAccess) : SettingsSource → Except SettingsFault LoadedSettings
  | .file path => do
    let settings ← Settings.ofFile access path
    return ⟨settings, [⟨.explicit, path, settings.sectionNames, true⟩], []⟩
  | .discover userDir projectDir => do
    let loaded := (empty.addUserLayer access userDir).addLayer access .project
      (joinPath projectDir projectFile)
    let _ ← loaded.settings.checked
    return loaded

/-- Load the settings of a source from the files of a tree. -/
def load (files : FileTree) (cwd : List String) :
    SettingsSource → Except SettingsFault LoadedSettings :=
  loadFrom (files.access cwd)

/-- The layer that a section comes from: the last one that gave it. -/
def originOf? (loaded : LoadedSettings) (name : String) : Option Layer :=
  loaded.layers.reverse.find? fun layer => layer.sections.contains name

end LoadedSettings

end ScriptHost
