import ScriptHost.Engine.Basic

/-!
# The echo engine

An engine without resources: it prints the request itself. A path can ask it to refuse the request or
to fail.
-/

namespace ScriptHost.Echo

open Json (Value)

/-- Whether a text contains another. -/
def hasText (needle : List Char) : List Char → Bool
  | [] => needle.isEmpty
  | c :: rest => needle.isPrefixOf (c :: rest) || hasText needle rest

/-- A request as JSON with its keys in order. -/
def describe (r : Request) : Value :=
  .object [("depth", .nat r.depth), ("dispatcher", .bool true), ("engine", .string r.engine),
    ("environment", .ofTexts r.environment.toList), ("params", .ofTexts r.params.toList),
    ("path", .string r.path)]

/-- What the engine answers to a request. -/
def respond (r : Request) : Except Error Output :=
  if hasText "nope".toList r.path.toList then .error (.construction r.path (.reported "refused"))
  else if hasText "fail".toList r.path.toList then
    .error (.execution (.reported s!"echo failed at {r.path}"))
  else .ok {
    stdout := (describe r).render ++ "\n"
    stderr := s!"E:{r.path}\n"
    exitCode := 0
    warnings := s!"W:{r.path}\n"
    contentType := none }

end ScriptHost.Echo

namespace ScriptHost

/-- The engine that prints requests. -/
def Engine.echo : Engine :=
  .script fun request => MonadExcept.ofExcept (Echo.respond request)

end ScriptHost
