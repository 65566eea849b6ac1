/-
This file replaces the occurrences of a word in a text, from left to right and
without overlaps.
-/

namespace WorkspaceSync.Text

/-- The text with every occurrence of a non-empty word replaced. -/
def replaceAll (word substitute : List Char) (characters : List Char) : List Char :=
  match characters with
  | [] => []
  | character :: rest =>
    if word ≠ [] ∧ word.isPrefixOf characters then
      substitute ++ replaceAll word substitute (rest.drop (word.length - 1))
    else character :: replaceAll word substitute rest
termination_by characters.length
decreasing_by all_goals (simp only [List.length_drop, List.length_cons]; omega)

end WorkspaceSync.Text
