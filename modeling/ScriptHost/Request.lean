import ScriptHost.Environment

/-!
# Requests

A request names an engine and a resource, carries parameters and environment variables, and knows
how many jobs it is nested in. `Request.processVariables` is what a process started for it finds in
its environment: the request's own variables, then path and id, then the parameters.
-/

namespace ScriptHost

/-- A request to execute a resource. Breakpoints are present when it asks for a debug session. -/
structure Request where
  engine : String
  path : String
  params : Variables
  environment : Variables
  breakpoints : Option (List Nat)
  id : String
  depth : Nat

namespace Request

/-- The id of a request that was given none. -/
def nilId : String := "00000000-0000-0000-0000-000000000000"

/-- The id with a number, in the usual groups of digits. -/
def idOf (n : Nat) : String :=
  let digits := Nat.toDigits 16 (n % Nat.pow 16 12)
  "00000000-0000-4000-8000-" ++ .ofList (List.replicate (12 - digits.length) '0' ++ digits)

/-- The variable that holds the resource path. -/
def pathVariable : String := "SCRIPTOR_PATH"

/-- The variable that holds the request id. -/
def idVariable : String := "SCRIPTOR_REQUEST_ID"

/-- What the name of a parameter's variable starts with. -/
def paramVariableStart : String := "SCRIPTOR_PARAM_"

/-- A character of a parameter's variable: uppercase ASCII letters, digits and underscores stay. -/
def sanitizeChar (c : Char) : Char :=
  let c := c.toUpper
  if c.isAlphanum || c == '_' then c else '_'

/-- The variable that holds a parameter. -/
def paramVariable (key : String) : String :=
  paramVariableStart ++ .ofList (key.toList.map sanitizeChar)

/-- The variables that a process started for the request finds beside the inherited ones. Where two
parameters share a variable, the one with the greater key counts. -/
def processVariables (r : Request) : Variables :=
  let base := (r.environment.insert pathVariable r.path).insert idVariable r.id
  r.params.foldl (fun vars key value => vars.insert (paramVariable key) value) base

/-- The request for a step of a job: one level deeper, in the same environment, with an id of its
own and without parameters or breakpoints. -/
def child (r : Request) (engine path id : String) : Request :=
  { engine, path, params := .empty, environment := r.environment, breakpoints := none, id,
    depth := r.depth + 1 }

end Request

end ScriptHost
