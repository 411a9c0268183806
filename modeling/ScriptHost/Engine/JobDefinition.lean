import ScriptHost.Environment
import ScriptHost.Error
import ScriptHost.Toml.Decode
import ScriptHost.Toml.Document

/-!
# Job definitions

A job resource is a TOML document with a name and a list of steps. Each step names an engine and a
resource and may add parameters.
-/

namespace ScriptHost

open Toml (Decoder Record)

/-- A step of a job. -/
structure JobStep where
  name : String
  engine : String
  path : String
  params : Variables

/-- The content of a job resource. -/
structure JobDefinition where
  name : String
  description : String
  steps : List JobStep

/-- A step as it is written. -/
def JobStep.decode : Decoder JobStep := fun v => do
  let r ← Record.ofValue? v
  return {
    name := ← r.required 0 "name" .string
    engine := ← r.required 1 "engine" .string
    path := ← r.required 2 "path" .string
    params := .ofPairs (← r.withDefault 3 "params" .texts []) }

namespace JobDefinition

/-- A job as it is written. -/
def decode : Decoder JobDefinition
  | .table members => do
    let r := Record.named members
    return {
      name := ← r.required 0 "name" .string
      description := ← r.withDefault 1 "description" .string ""
      steps := ← r.required 2 "steps" (.list JobStep.decode) }
  | _ => none

/-- The definition that a resource at a path holds. -/
def parse (path : String) (text : String) : Except Error JobDefinition :=
  match (Toml.read? text).bind decode with
  | some job => if job.steps.isEmpty then .error (.invalidDefinition path .noSteps) else .ok job
  | none => .error (.invalidDefinition path .malformed)

end JobDefinition

end ScriptHost
