import ScriptHost.Diagnostic.Basic
import ScriptHost.Error
import ScriptHost.Host
import ScriptHost.Output
import ScriptHost.Request
import ScriptHost.Source

/-!
# Compilers

A compiler turns a source unit into an artifact that can be run for any number of requests, or
reports why it cannot. An artifact carries the fingerprint of the source it was made from.
-/

namespace ScriptHost

/-- The result of a successful compilation. -/
structure Artifact where
  sourcePath : String
  fingerprint : Fingerprint
  warnings : String
  invoke : Request → HostM Error Output

/-- A compiler with its name. -/
structure Compiler where
  name : String
  compile : SourceUnit → HostM Report Artifact

end ScriptHost
