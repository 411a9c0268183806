import ScriptHost.Digest.Sha256
import ScriptHost.Text.Hex
import ScriptHost.Text.Utf8

/-!
# Resources

A resource is the content found at a path together with its fingerprint, the SHA-256 digest by
which changed content is told from unchanged content.
-/

namespace ScriptHost

/-- The digest of some content, as hexadecimal text. -/
structure Fingerprint where
  hex : String
  deriving DecidableEq, Repr

namespace Fingerprint

/-- The fingerprint of some content. -/
def of (content : ByteArray) : Fingerprint :=
  ⟨Text.hexOfBytes (Digest.sha256 content)⟩

/-- The first twelve digits, which name a fingerprint in file names and messages. -/
def short (f : Fingerprint) : String :=
  .ofList (f.hex.toList.take 12)

end Fingerprint

/-- Content found at a path. -/
structure Resource where
  path : String
  content : ByteArray
  fingerprint : Fingerprint

namespace Resource

/-- The resource that holds some content. -/
def new (path : String) (content : ByteArray) : Resource :=
  ⟨path, content, .of content⟩

/-- The content as text. -/
def text (r : Resource) : String :=
  Text.lossy r.content

/-- What follows the last slash of the path. -/
def fileName (r : Resource) : String :=
  .ofList (r.path.toList.reverse.takeWhile (· != '/')).reverse

end Resource

end ScriptHost
