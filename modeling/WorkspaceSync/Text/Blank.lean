/-
This file defines blank characters, trimming and the cutting of a text into
lines and words.

A character is blank when it has the Unicode property White_Space. Lines end at
a line feed; a single carriage return right before the line feed belongs to the
line's end, while one at the very end of the text belongs to the line.
-/

namespace WorkspaceSync.Text

/-! ### Blank characters -/

/-- A character with the Unicode property White_Space. -/
def isBlank (character : Char) : Bool :=
  let code := character.toNat
  (9 ≤ code && code ≤ 13) || code == 0x20 || code == 0x85 || code == 0xA0 || code == 0x1680 ||
    (0x2000 ≤ code && code ≤ 0x200A) || code == 0x2028 || code == 0x2029 || code == 0x202F ||
    code == 0x205F || code == 0x3000

/-- Every blank that core knows is blank here. -/
theorem isBlank_of_isWhitespace (character : Char) (blank : character.isWhitespace = true) :
    isBlank character = true := by
  simp only [Char.isWhitespace, Bool.or_eq_true, decide_eq_true_eq] at blank
  rcases blank with ((rfl | rfl) | rfl) | rfl <;> rfl

/-! ### Trimming -/

/-- The text without the blanks at its start. -/
def trimStart (characters : List Char) : List Char :=
  characters.dropWhile isBlank

/-- The text without the blanks at its end. -/
def trimEnd (characters : List Char) : List Char :=
  (characters.reverse.dropWhile isBlank).reverse

/-- The text without the blanks at either end. -/
def trim (characters : List Char) : List Char :=
  trimEnd (trimStart characters)

@[simp] theorem trimStart_nil : trimStart [] = [] := rfl

@[simp] theorem trimEnd_nil : trimEnd [] = [] := rfl

@[simp] theorem trim_nil : trim [] = [] := rfl

/-! ### Lines and words -/

/-- The lines of a text. A line feed ends a line, and so does a carriage return followed by a
line feed; what follows the last line end is a line only if it is not empty. -/
def lines : List Char → List (List Char)
  | [] => []
  | '\n' :: rest => [] :: lines rest
  | '\r' :: '\n' :: rest => [] :: lines rest
  | character :: rest =>
    match lines rest with
    | [] => [[character]]
    | line :: later => (character :: line) :: later

/-- The maximal runs of characters that are not blank. -/
def words (characters : List Char) : List (List Char) :=
  collect characters []
where
  /-- Walks over the text with the current word, reversed, at hand. -/
  collect : List Char → List Char → List (List Char)
    | [], [] => []
    | [], word => [word.reverse]
    | character :: rest, word =>
      if isBlank character then
        if word.isEmpty then collect rest [] else word.reverse :: collect rest []
      else collect rest (character :: word)

end WorkspaceSync.Text
