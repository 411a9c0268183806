import ScriptHost.Console.Order
import ScriptHost.Console.Reply
import ScriptHost.Json.Pretty
import ScriptHost.Service.Build
import ScriptHost.Settings.Layers

/-!
# Answering calls

The program loads its settings, carries out the order of a call and replies. Services and storages are
opened for one order and closed after it. `answer` is the whole program as a function of its words and
the host.
-/

namespace ScriptHost.Console

/-- Do something with the service that settings describe, and close it. -/
def withService (settings : Settings) (act : Service → Except Fault Reply × Service) :
    HostM Fault Reply :=
  ExceptT.mk fun host =>
    match Service.ofSettings settings host with
    | .error (e, host) => (.error (.failed e), host)
    | .ok service =>
      let (reply, service) := act service
      (reply, service.close)

/-- Do something with the storage that settings describe, and close it. -/
def withStorage (settings : Settings) (act : Storage → Except Fault (Reply × Storage)) :
    HostM Fault Reply :=
  ExceptT.mk fun host =>
    let cwd := host.view.cwd
    match Storage.ofSettings host.view.tree cwd settings.storageOrDefault with
    | (.error fault, tree) => (.error (.failed (.storage fault)), host.withTree tree)
    | (.ok storage, tree) =>
      match act storage with
      | .error fault => (.error fault, host.withTree (storage.save tree cwd))
      | .ok (reply, storage) => (.ok reply, host.withTree (storage.save tree cwd))

/-- The output of a run as JSON. -/
def outputJson (o : Output) : Json.Value :=
  .object [("stdout", .string o.stdout), ("stderr", .string o.stderr),
    ("exit_code", .number (.ofInt o.exitCode)), ("warnings", .string o.warnings),
    ("content_type", .ofOption o.contentType)]

/-- The reply to a run. -/
def runReply (order : Order) (o : Output) (elapsed : Duration) : Reply :=
  if order.json then .telling ((outputJson o).pretty ++ "\n")
  else
    let warnings := if o.warnings = "" then "" else s!"Warnings\n{Text.trimmedEnd o.warnings}\n"
    let verbose := if order.verbose then done s!"exit {o.exitCode} in {elapsed.text}" else ""
    ⟨0, o.stdout, warnings ++ o.stderr ++ verbose⟩

/-- Run a resource on an engine. -/
def run (order : Order) (settings : Settings) (engine path : String)
    (params environment : List (String × String)) (breakpoints : List Nat) : HostM Fault Reply :=
  withService settings fun service =>
    let request : Request := {
      engine, path
      params := .ofPairs params
      environment := .ofPairs environment
      breakpoints := if breakpoints.isEmpty then none else some breakpoints
      id := Request.idOf 0
      depth := 0 }
    let started := service.world.host.clock
    let (result, service) := service.execute request
    let elapsed : Duration := ⟨service.world.host.clock - started⟩
    ((result.mapError .failed).map (runReply order · elapsed), service)

/-- List the engines. -/
def listEngines (order : Order) (settings : Settings) : HostM Fault Reply :=
  withService settings fun service =>
    let reply := if order.json then
        (Json.Value.array (service.engines.map fun names =>
          .ofTexts [("type", names.type), ("alias", names.aliasName)])).pretty ++ "\n"
      else service.engines.foldl (fun text names =>
        text ++ s!"  {filledRight 10 names.type} {names.aliasName}\n") "Engines\n"
    (.ok (.telling reply), service)

/-- Deploy a file. -/
def deploy (order : Order) (settings : Settings) (file path : String) : HostM Fault Reply := do
  let view := (← getThe Host).view
  match view.tree.read view.cwd file with
  | .error fault => throw (.deployedFile file fault)
  | .ok content =>
    withService settings fun service =>
      let (result, service) := service.deploy path content
      let reply (path : String) : Reply := .telling (if order.json then
          (Json.Value.object [("path", .string path), ("bytes", .nat content.size)]).render ++ "\n"
        else done s!"deployed {path} ({content.size} bytes)")
      ((result.mapError fun fault => .failed (.store fault)).map reply, service)

/-- What stands for the time of a change in a listing, which leaves it open. -/
def openTime : String := "<time>"

/-- A listing of the storage. -/
def listing (order : Order) (entries : List (String × Nat)) : String :=
  if order.json then
    (Json.Value.array (entries.map fun (path, size) =>
      .object [("path", .string path), ("size", .nat size)])).pretty ++ "\n"
  else entries.foldl (fun text (path, size) =>
    text ++ s!"{filledRight 40 path} {filledLeft 10 (toString size)}  {openTime}\n") ""

/-- The data to store: a value, or the content of a file. -/
def valueOf (view : FileView) (value file : Option String) : Except Fault ByteArray :=
  match value, file with
  | some value, _ => .ok value.toUTF8
  | none, some file => (view.tree.read view.cwd file).mapError .valueFile
  | none, none => .error .missingValue

/-- Do something with a storage. -/
def perform (order : Order) (view : FileView) (storage : Storage) (action : StorageAction) :
    Except Fault (Reply × Storage) := do
  let orFail {α : Type} (result : Except StorageFault α) : Except Fault α :=
    result.mapError fun fault => .failed (.storage fault)
  match action with
  | .get path =>
    match ← orFail (storage.get path) with
    | some data => return (.telling (Text.lossy data), storage)
    | none => throw (.noEntry path)
  | .put path value file =>
    let data ← valueOf view value file
    let storage ← orFail (storage.put path data)
    return (.telling (done s!"stored {path} ({data.size} bytes)"), storage)
  | .list top => return (.telling (listing order (← orFail (storage.list top))), storage)
  | .delete path =>
    let (found, storage) ← orFail (storage.delete path)
    return (.telling (if found then done s!"deleted {path}" else s!"No entry at {path}\n"), storage)
  | .clear =>
    let (count, storage) := storage.clear
    return (.telling (done s!"removed {count} entries"), storage)

/-- Carry out an order under settings. -/
def carryOut (order : Order) (settings : Settings) : HostM Fault Reply := do
  match order.action with
  | .run engine path params environment breakpoints =>
    run order settings engine path params environment breakpoints
  | .engines => listEngines order settings
  | .deploy file path => deploy order settings file path
  | .storage action =>
    let view := (← getThe Host).view
    withStorage settings fun storage => perform order view storage action

/-- The variable that names a file of settings for calls that name none. -/
def settingsVariable : String := "SCRIPTOR_CONFIG"

/-- Where an order finds its settings. -/
def settingsSource (order : Order) (vars : Variables) : SettingsSource :=
  match order.settingsFile.or (vars[settingsVariable]?) with
  | some file => .file file
  | none => .discovery vars none none

/-- Load the settings of an order. -/
def loadSettings (order : Order) (host : Host) : Except SettingsFault Settings :=
  (LoadedSettings.load host.view.tree host.view.cwd (settingsSource order host.environment)).map
    (·.settings)

/-- The directory in which the program keeps its logs: beside the user's settings, if they have a
place. -/
def logDirectory (vars : Variables) : String :=
  match Directories.userSettings? vars with
  | some dir => joinPath dir "logs"
  | none => "logs"

/-- The host with the directory in which the program keeps its logs. -/
def withLogs (host : Host) : Host :=
  host.withTree
    (host.view.tree.makeDirectoryPath host.view.cwd (logDirectory host.environment)).1

/-- How the program is called. -/
def usage : String :=
  "Usage: scriptor [OPTIONS] <run|engines|deploy|storage> ...\n"

/-- The reply to a call without an order. -/
def NoOrder.reply : NoOrder → Reply
  | help => .telling usage
  | misuse => ⟨2, "", usage⟩

/-- Answer a call. -/
def answer (words : List String) (host : Host) : Reply × Host :=
  match Order.ofWords words with
  | .error reason => (reason.reply, host)
  | .ok order =>
    let host := withLogs host
    match loadSettings order host with
    | .error fault => (.ofFault (.settings fault), host)
    | .ok settings =>
      match (carryOut order settings).run.run host with
      | (.ok reply, host) => (reply, host)
      | (.error fault, host) => (.ofFault fault, host)

end ScriptHost.Console
