import ScriptHost.Resource.Basic
import ScriptHost.Text.Blank
import ScriptHost.Text.WordChar

/-!
# Source units

A unit of source text as a compiler takes it, with the names that follow from its path and text:
the stem of its file name, the package it declares and its main class.
-/

namespace ScriptHost

/-- A source text with its path and the fingerprint of the resource it came from. -/
structure SourceUnit where
  path : String
  text : String
  fingerprint : Fingerprint

namespace SourceUnit

/-- The unit of a text, with the fingerprint of that text. -/
def new (path text : String) : SourceUnit :=
  ⟨path, text, .of text.toUTF8⟩

/-- The unit of a resource, with the fingerprint of the resource's bytes. -/
def ofResource (r : Resource) : SourceUnit :=
  ⟨r.path, r.text, r.fingerprint⟩

/-- The file name after the last slash, up to its first dot. -/
def stemOf (path : List Char) : List Char :=
  ((path.reverse.takeWhile (· != '/')).reverse).takeWhile (· != '.')

/-- The stem of the unit's file name. -/
def stem (u : SourceUnit) : String :=
  .ofList (stemOf u.path.toList)

/-- Whether a character may start a package name. -/
def isPackageStart (c : Char) : Bool :=
  ('A' ≤ c && c ≤ 'Z') || ('a' ≤ c && c ≤ 'z') || c == '_'

/-- The package name declared at the start of a text: blanks, the word `package`, blanks and a name
of word characters and dots. -/
def packageHere? (cs : List Char) : Option (List Char) := do
  let cs ← "package".toList.isPrefixOf? (cs.dropWhile Text.isBlank)
  match cs with
  | [] => none
  | blank :: rest =>
    if Text.isBlank blank then
      match rest.dropWhile Text.isBlank with
      | [] => none
      | c :: rest =>
        if isPackageStart c then
          some (c :: rest.takeWhile fun c => Text.isWordChar c || c == '.')
        else none
    else none

/-- The first package name declared at the start of a line. -/
def packageFrom? (atLineStart : Bool) : List Char → Option (List Char)
  | [] => none
  | c :: rest =>
    match if atLineStart then packageHere? (c :: rest) else none with
    | some name => some name
    | none => packageFrom? (c == '\n') rest

/-- The package that the unit declares. -/
def package? (u : SourceUnit) : Option String :=
  (packageFrom? true u.text.toList).map String.ofList

/-- The qualified name of the class that starts the program. -/
def mainClass (u : SourceUnit) : String :=
  match u.package? with
  | some package => package ++ "." ++ u.stem
  | none => u.stem

end SourceUnit

end ScriptHost
