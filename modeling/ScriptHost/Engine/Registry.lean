import ScriptHost.Error

/-!
# Engine registries

A registry holds engines in the order they were registered and finds them by a token: the type of
an engine or its alias. Types and aliases share one namespace, so no two engines have a token in
common.
-/

namespace ScriptHost

/-- The names of an engine. -/
structure EngineNames where
  type : String
  aliasName : String
  deriving DecidableEq, Repr

namespace EngineNames

/-- The tokens that find the engine; an alias equal to the type is no second one. -/
def tokens (names : EngineNames) : List String :=
  if names.aliasName = names.type then [names.type] else [names.type, names.aliasName]

end EngineNames

/-- Engines of some kind under their names. -/
structure Registry (α : Type) where
  entries : List (EngineNames × α)
  index : Std.TreeMap String Nat

namespace Registry

variable {α : Type}

/-- No engines. -/
def empty : Registry α :=
  ⟨[], .empty⟩

/-- Whether a token is taken. -/
def contains (r : Registry α) (token : String) : Bool :=
  r.index.contains token

/-- Register an engine, unless one of its tokens is taken. -/
def register (r : Registry α) (names : EngineNames) (engine : α) : Except Error (Registry α) :=
  match names.tokens.find? r.contains with
  | some token => .error (.duplicateEngine token)
  | none =>
    .ok ⟨r.entries ++ [(names, engine)],
      names.tokens.foldl (fun index token => index.insert token r.entries.length) r.index⟩

/-- The engine that a token finds, with its names. -/
def lookup (r : Registry α) (token : String) : Except Error (EngineNames × α) :=
  match r.index[token]?.bind (r.entries[·]?) with
  | some entry => .ok entry
  | none => .error (.unknownEngine token)

/-- The names of all engines in the order of registration. -/
def names (r : Registry α) : List EngineNames :=
  r.entries.map (·.1)

/-- The number of engines. -/
def size (r : Registry α) : Nat :=
  r.entries.length

end Registry

end ScriptHost
