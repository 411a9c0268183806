/-!
# The syntax of the shell

Words are made of literal text, parameters, and the results of commands and of arithmetic; each part
remembers whether it is quoted. Commands are made of words, redirections and other commands. All
texts are texts of bytes.
-/

namespace ScriptHost.Shell

/-- What is done with the value of a parameter. The first field of most says whether an empty value
counts as missing. -/
inductive Modifier where
  | plain
  | length
  | default (ifEmpty : Bool)
  | assign (ifEmpty : Bool)
  | require (ifEmpty : Bool)
  | alternative (ifEmpty : Bool)
  | dropStart (longest : Bool)
  | dropEnd (longest : Bool)
  deriving DecidableEq, Repr

/-- Whether the word of a modifier is a pattern. -/
def Modifier.takesPattern : Modifier → Bool
  | dropStart _ | dropEnd _ => true
  | _ => false

/-- A part of a word. -/
inductive Part where
  | literal (text : String) (quoted : Bool)
  | parameter (name : String) (modifier : Modifier) (word : List Part) (quoted : Bool)
  /-- The output of a command given by its source. -/
  | command (source : String) (quoted : Bool)
  | arithmetic (source : List Part) (quoted : Bool)
  deriving Repr

/-- A word. -/
abbrev Word := List Part

/-- What a redirection does with its descriptor. -/
inductive RedirectKind where
  | input
  | output
  | append
  | readWrite
  | duplicate
  /-- The word is the text to be read. -/
  | document
  deriving DecidableEq, Repr

/-- A redirection of a descriptor. -/
structure Redirect where
  descriptor : Nat
  kind : RedirectKind
  target : Word
  deriving Repr

/-- A command. -/
inductive Command where
  | simple (line : Nat) (assignments : List (String × Word)) (words : List Word)
    (redirects : List Redirect)
  | pipeline (negated : Bool) (stages : List Command)
  | conjunction (first second : Command)
  | disjunction (first second : Command)
  | sequence (first second : Command)
  | background (body : Command)
  | subshell (body : Command)
  | conditional (test thenBranch : Command) (elseBranch : Option Command)
  | loop (untilTrue : Bool) (test body : Command)
  | forEach (name : String) (words : Option (List Word)) (body : Command)
  | cases (word : Word) (arms : List (List Word × Command))
  | define (name : String) (body : Command)
  | redirected (body : Command) (line : Nat) (redirects : List Redirect)
  | nothing
  deriving Repr

end ScriptHost.Shell
