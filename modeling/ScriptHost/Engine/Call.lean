import ScriptHost.Engine.Registry

/-!
# Calls on a registry

A registry is filled and asked by one call after the other. Registering changes the registry in
place, token by token: all tokens of an engine are checked first, and then they are taken. Each call
finds the registry as the calls before it have left it, those that have failed among them.
-/

namespace ScriptHost

/-- What can be asked of a registry of engines of some kind. -/
inductive RegistryCall (α : Type) where
  | register (names : EngineNames) (engine : α)
  | lookup (token : String)
  | contains (token : String)
  | names

/-- What a registry answers. -/
inductive RegistryReply (α : Type) where
  | registered (result : Except Error Unit)
  | found (result : Except Error (EngineNames × α))
  | flag (value : Bool)
  | listed (names : List EngineNames)

namespace Registry

variable {α : Type}

/-- Let a token lead to the engine at a place. -/
def take (r : Registry α) (token : String) (place : Nat) : Registry α :=
  { r with index := r.index.insert token place }

/-- Fail with the first of some tokens that is taken. -/
def requireFree (tokens : List String) : ExceptT Error (StateM (Registry α)) Unit :=
  tokens.forM fun token => do
    if (← get).contains token then throw (.duplicateEngine token)

/-- Let some tokens lead to the engine at a place. -/
def takeAll (tokens : List String) (place : Nat) : ExceptT Error (StateM (Registry α)) Unit :=
  tokens.forM fun token => modify (·.take token place)

/-- Register an engine in place. -/
def registerInPlace (names : EngineNames) (engine : α) :
    ExceptT Error (StateM (Registry α)) Unit := do
  requireFree names.tokens
  takeAll names.tokens (← get).size
  modify fun r => { r with entries := r.entries ++ [(names, engine)] }

/-- Answer a call. -/
def call (r : Registry α) : RegistryCall α → RegistryReply α × Registry α
  | .register names engine =>
    let (result, after) := (registerInPlace names engine).run.run r
    (.registered result, after)
  | .lookup token => (.found (r.lookup token), r)
  | .contains token => (.flag (r.contains token), r)
  | .names => (.listed r.names, r)

/-- Answer calls in order. -/
def calls (r : Registry α) : List (RegistryCall α) → List (RegistryReply α) × Registry α
  | [] => ([], r)
  | c :: rest =>
    let (reply, after) := r.call c
    let (replies, final) := after.calls rest
    (reply :: replies, final)

end Registry

end ScriptHost
