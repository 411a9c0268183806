import ScriptHost.Console.Answer
import ScriptHost.Program.Installation

/-!
# Files of a call

The program works on an image of the files: it is given those that a call may read and gives back those
that the call has changed. `filesOf` names the files that a call may read, as far as the files read before
show: the settings, the files that the words name, the database, and the resources of a run.
-/

namespace ScriptHost.Console

/-- The files of a resource and of the steps of the jobs in it, down to some number of levels. -/
def resourceFiles (view : FileView) (root : String) : Nat → String → List String
  | 0, _ => []
  | levels + 1, path =>
    match ResourcePath.normalize? path with
    | none => []
    | some key =>
      let file := root ++ key
      let steps := match view.tree.read view.cwd file with
        | .error _ => []
        | .ok content =>
          match JobDefinition.parse key (Text.lossy content) with
          | .ok job => job.steps
          | .error _ => []
      file :: steps.flatMap fun step => resourceFiles view root levels step.path

/-- The files of settings. -/
def settingsFiles : SettingsSource → List String
  | .file path => [path]
  | .discover userDir projectDir =>
    userDir.toList.map (joinPath · LoadedSettings.userFile) ++
      [joinPath projectDir LoadedSettings.projectFile]

/-- The files of an action under settings. -/
def actionFiles (view : FileView) (settings : Settings) (action : Action) : List String :=
  let database := settings.storageOrDefault.path.toList
  let root := settings.locationsOrDefault.resourceRootOrDefault
  match action with
  | .run _ path .. => database ++ resourceFiles view root (maxJobDepth + 1) path
  | .engines => database
  | .deploy file _ => file :: database
  | .storage (.put _ _ file) => file.toList ++ database
  | .storage _ => database

/-- The files that a call may read, as far as the files of the host show. -/
def filesOf (words : List String) (host : Host) : List String :=
  match Order.ofWords words with
  | .error _ => []
  | .ok order =>
    settingsFiles (settingsSource order host.environment) ++
      match loadSettings order host with
      | .error _ => []
      | .ok settings => actionFiles host.view settings order.action

/-- The contents of the files in a tree, by place. -/
def contentsOf (tree : FileTree) : List (List String × ByteArray) :=
  tree.nodes.toList.filterMap fun (place, node) =>
    match node with
    | .file content => some (place, content)
    | _ => none

/-- The files that are new or different in another tree. -/
def changedFiles (before after : FileTree) : List (List String × ByteArray) :=
  (contentsOf after).filter fun (place, content) =>
    match before.node? place with
    | some (.file old) => old.toList != content.toList
    | _ => true

/-- The places of the files that another tree lacks. -/
def removedFiles (before after : FileTree) : List (List String) :=
  (contentsOf before).filterMap fun (place, _) =>
    if (after.node? place).isNone then some place else none

end ScriptHost.Console
