/-!
# Replacing a text in a text

Every occurrence of one text in another is replaced, read from the left and without overlap. Nothing
is replaced inside what was put in.
-/

namespace ScriptHost.Text

/-- A text with every occurrence of a non-empty text replaced; the occurrences of the empty text do
not count. -/
def replaceAll (old new : List Char) : List Char → List Char
  | [] => []
  | c :: rest =>
    if old ≠ [] ∧ old.isPrefixOf (c :: rest) then
      new ++ replaceAll old new (rest.drop (old.length - 1))
    else c :: replaceAll old new rest
termination_by cs => cs.length
decreasing_by
  · rw [List.length_drop, List.length_cons]
    omega
  · exact Nat.lt_succ_self _

/-- A string with every occurrence of a non-empty text replaced. -/
def replaced (old new s : String) : String :=
  .ofList (replaceAll old.toList new.toList s.toList)

end ScriptHost.Text
