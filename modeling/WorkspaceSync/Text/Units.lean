/-
This file measures texts in UTF-16 code units, the unit in which editors count
columns.
-/

namespace WorkspaceSync.Text

/-- The number of UTF-16 code units of a character: a surrogate pair outside the basic plane. -/
def unitWidth (character : Char) : Nat :=
  if character.toNat < 0x10000 then 1 else 2

/-- The number of UTF-16 code units of a text. -/
def width : List Char → Nat
  | [] => 0
  | character :: rest => unitWidth character + width rest

@[simp] theorem width_nil : width [] = 0 := rfl

@[simp] theorem width_cons (character : Char) (rest : List Char) :
    width (character :: rest) = unitWidth character + width rest := rfl

@[simp] theorem width_append (left right : List Char) :
    width (left ++ right) = width left + width right := by
  induction left with
  | nil => simp
  | cons character rest inductionHypothesis =>
    rw [List.cons_append, width_cons, width_cons, inductionHypothesis, Nat.add_assoc]

end WorkspaceSync.Text
