import ScriptHost.FileTree
import ScriptHost.Settings.Basic

/-!
# Standard directories

Where settings, data and caches live when nothing says otherwise: below the directories that the
environment names for the user's configuration and data, or else below the home directory.
-/

namespace ScriptHost.Directories

/-- The name of the program's own directories. -/
def appName : String := "scriptor"

/-- The home directory; an empty variable does not count. A program that is started without one is
taken to be given the home directory of its user's account, if there is any. -/
def home? (vars : Variables) : Option String :=
  vars["HOME"]?.filter (· ≠ "")

/-- The directory that a variable holds if it is absolute, else one below the home directory. -/
def base? (vars : Variables) (name below : String) : Option String :=
  (vars[name]?.filter (·.startsWith "/")).or ((home? vars).map (joinPath · below))

/-- The directory of the program's data: without a place for it, one in the working directory. -/
def data (vars : Variables) : String :=
  match base? vars "XDG_DATA_HOME" ".local/share" with
  | some dir => joinPath dir appName
  | none => ".scriptor"

/-- The directory of the user's settings, if there is a place for it. -/
def userSettings? (vars : Variables) : Option String :=
  (vars["SCRIPTOR_CONFIG_DIR"]?.filter (· ≠ "")).or
    ((base? vars "XDG_CONFIG_HOME" ".config").map (joinPath · appName))

/-- The directory in which compilers work. -/
def cache (vars : Variables) (locations : Locations) : String :=
  locations.cacheDir.getD (joinPath (data vars) "cache")

end ScriptHost.Directories
