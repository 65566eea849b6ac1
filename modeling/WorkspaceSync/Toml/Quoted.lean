/-
This file reads the quoted texts of a TOML document.

Texts in double quotes have escapes, those in single quotes have none. Either
kind has a form with three quotes that goes over several lines: a line end
right after the opening does not count, line ends are read as line feeds, and
one or two quotes may stand anywhere in it, also right before the closing ones.
-/
import WorkspaceSync.Text.Blank
import WorkspaceSync.Url.Percent

namespace WorkspaceSync.Toml

/-- A character that may not stand in a text or a comment. -/
def isControl (character : Char) : Bool :=
  (character.toNat < 0x20 && character != '\t') || character.toNat == 0x7F

/-- The character of a row of hexadecimal digits, if there is one. -/
def characterOf? (digits : List Char) : Option Char := do
  let values ← digits.mapM fun digit => Percent.hexValue? digit.toNat
  let code := values.foldl (fun value digit => 16 * value + digit) 0
  if code < 0xD800 ∨ (0xDFFF < code ∧ code < 0x110000) then some (Char.ofNat code) else none

/-- The character that an escape stands for, from behind the backslash, and how many characters
the escape takes there. -/
def escape? (text : List Char) : Option (Char × Nat) :=
  match text with
  | 'b' :: _ => some ('\x08', 1)
  | 't' :: _ => some ('\t', 1)
  | 'n' :: _ => some ('\n', 1)
  | 'f' :: _ => some ('\x0c', 1)
  | 'r' :: _ => some ('\r', 1)
  | 'e' :: _ => some ('\x1b', 1)
  | '"' :: _ => some ('"', 1)
  | '\\' :: _ => some ('\\', 1)
  | 'x' :: rest => coded rest 2
  | 'u' :: rest => coded rest 4
  | 'U' :: rest => coded rest 8
  | _ => none
where
  /-- A character by a fixed number of digits. -/
  coded (rest : List Char) (count : Nat) : Option (Char × Nat) :=
    if (rest.take count).length = count then
      (characterOf? (rest.take count)).map fun character => (character, count + 1)
    else none

/-- Adds a character to a text that was read. -/
def withCharacter (character : Char) (result : Option (List Char × List Char)) :
    Option (List Char × List Char) :=
  result.map fun (text, rest) => (character :: text, rest)

/-- Reads a text in double quotes, from behind the opening one. -/
def basic (input : List Char) : Option (List Char × List Char) :=
  match input with
  | [] => none
  | first :: rest =>
    if first = '"' then some ([], rest)
    else if first = '\\' then
      match escape? rest with
      | some (character, length) => withCharacter character (basic (rest.drop length))
      | none => none
    else if isControl first then none
    else withCharacter first (basic rest)
termination_by input.length
decreasing_by all_goals (simp only [List.length_drop, List.length_cons]; omega)

/-- Reads a text in single quotes, from behind the opening one. -/
def literal : List Char → Option (List Char × List Char)
  | [] => none
  | first :: rest =>
    if first = '\'' then some ([], rest)
    else if isControl first then none
    else withCharacter first (literal rest)

/-- What follows the blanks and line ends at the start of a text. -/
def dropFold : List Char → List Char
  | '\r' :: '\n' :: rest => dropFold rest
  | first :: rest =>
    if first = ' ' ∨ first = '\t' ∨ first = '\n' then dropFold rest else first :: rest
  | [] => []

/-- What is left behind a backslash at the end of a line: the blanks and line ends that follow do
not count. None if the line does not end there. -/
def folded? (text : List Char) : Option (List Char) :=
  match text.dropWhile fun character => character == ' ' || character == '\t' with
  | '\n' :: rest => some (dropFold rest)
  | '\r' :: '\n' :: rest => some (dropFold rest)
  | _ => none

/-- The quotes at the start of a text, of which the last three close it, if there are at least
three: those that belong to the text, and what follows. -/
def closing? (quote : Char) (input : List Char) : Option (List Char × List Char) :=
  let run := (input.takeWhile (· = quote)).take 5
  if run.length < 3 then none else some (run.drop 3, input.drop run.length)

/-- Reads a text over several lines, from behind the opening quotes and the line end after them.
Escapes count if `escapes` says so. -/
def multiLine (quote : Char) (escapes : Bool) (input : List Char) :
    Option (List Char × List Char) :=
  match input with
  | [] => none
  | first :: rest =>
    match closing? quote (first :: rest) with
    | some result => some result
    | none =>
      if first = '\\' ∧ escapes then
        match folded? rest with
        | some after =>
          if after.length ≤ rest.length then multiLine quote escapes after else none
        | none =>
          match escape? rest with
          | some (character, length) =>
            withCharacter character (multiLine quote escapes (rest.drop length))
          | none => none
      else if first = '\n' then withCharacter '\n' (multiLine quote escapes rest)
      else if first = '\r' then
        match rest with
        | '\n' :: after => withCharacter '\n' (multiLine quote escapes after)
        | _ => none
      else if isControl first then none
      else withCharacter first (multiLine quote escapes rest)
termination_by input.length
decreasing_by all_goals (simp only [List.length_drop, List.length_cons]; omega)

/-- Drops a line end at the start of a text. -/
def dropLineEnd : List Char → List Char
  | '\n' :: rest => rest
  | '\r' :: '\n' :: rest => rest
  | text => text

/-- Reads a quoted text on one line, and what follows it; none if the input does not start with a
quote. -/
def singleLine? (input : List Char) : Option (Option (List Char × List Char)) :=
  match input with
  | '"' :: rest => some (basic rest)
  | '\'' :: rest => some (literal rest)
  | _ => none

/-- Reads a quoted text of any form, and what follows it; none if the input does not start with a
quote. -/
def quoted? (input : List Char) : Option (Option (List Char × List Char)) :=
  match input with
  | '"' :: '"' :: '"' :: rest => some (multiLine '"' true (dropLineEnd rest))
  | '\'' :: '\'' :: '\'' :: rest => some (multiLine '\'' false (dropLineEnd rest))
  | _ => singleLine? input

end WorkspaceSync.Toml
