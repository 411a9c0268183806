/-!
# Resource paths

A resource is addressed by a non-empty list of segments. A text names one when its parts between
slashes and backslashes, empty and single-dot parts aside, include at least one segment and never a
double dot. `ResourcePath.text` is the one normal spelling of a path.
-/

namespace ScriptHost

/-- Whether a character separates the parts of a path text. -/
def isSeparator (c : Char) : Bool :=
  c == '/' || c == '\\'

/-- A part of a path that names something: not empty, no dot segment, and free of separators. -/
def IsSegment (s : String) : Prop :=
  s ≠ "" ∧ s ≠ "." ∧ s ≠ ".." ∧ ∀ c ∈ s.toList, isSeparator c = false

instance : DecidablePred IsSegment := fun s =>
  have : Decidable (∀ c ∈ s.toList, isSeparator c = false) := List.decidableBAll _ _
  inferInstanceAs (Decidable (s ≠ "" ∧ s ≠ "." ∧ s ≠ ".." ∧ ∀ c ∈ s.toList, isSeparator c = false))

/-- The address of a resource. -/
structure ResourcePath where
  segments : List String
  ne_nil : segments ≠ []
  valid : ∀ s ∈ segments, IsSegment s
  deriving DecidableEq

namespace ResourcePath

/-- The parts of a text between separators, the characters of the part being read given in
reverse. -/
def partsFrom (current : List Char) : List Char → List String
  | [] => [.ofList current.reverse]
  | c :: rest =>
    if isSeparator c then .ofList current.reverse :: partsFrom [] rest
    else partsFrom (c :: current) rest

/-- The parts of a text between separators, the empty ones included. -/
def parts (text : String) : List String :=
  partsFrom [] text.toList

/-- The parts of a text that count: those that are neither empty nor a single dot. -/
def names (text : String) : List String :=
  (parts text).filter fun s => s != "" && s != "."

/-- The path that a text names, if it names one. -/
def ofText? (text : String) : Option ResourcePath :=
  if h : names text ≠ [] ∧ ∀ s ∈ names text, IsSegment s then
    some ⟨names text, h.1, h.2⟩
  else none

/-- A slash before every segment. -/
def join (segments : List String) : String :=
  .join (segments.map ("/" ++ ·))

/-- The normal spelling of a path. -/
def text (path : ResourcePath) : String :=
  join path.segments

/-- The last segment. -/
def fileName (path : ResourcePath) : String :=
  path.segments.getLast path.ne_nil

/-- The normal spelling of a path text, if it names a path. -/
def normalize? (text : String) : Option String :=
  (ofText? text).map ResourcePath.text

end ResourcePath

end ScriptHost
