/-
This file says what the parameters of a shell script stand for, and how words
come of the values that are put in.

A value that is put in outside of quotes is cut at its blanks, and its
characters may be those of a pattern. In quotes it stays as it is, and even an
empty value makes a word.
-/
import WorkspaceSync.Text.Blank
import WorkspaceSync.Tool.Script.Command
import WorkspaceSync.Tool.Script.Wildcard

namespace WorkspaceSync.Tool.Script

/-! ### Words -/

/-- A piece of what a word of a script becomes. -/
inductive Piece where
  | mark (mark : Mark)
  /-- One word ends and another begins. -/
  | cut
  /-- There is a word here, even if it stays empty. -/
  | present
  deriving DecidableEq, Repr

/-- A blank that values are cut at. -/
def isCut (character : Char) : Bool :=
  character == ' ' || character == '\t' || character == '\n'

/-- The pieces of a value outside of quotes. -/
def cutPieces (value : List Char) : List Piece :=
  value.map fun character => if isCut character then .cut else .mark ⟨character, false⟩

/-- The pieces of a value in quotes. -/
def wholePieces (value : List Char) : List Piece :=
  .present :: value.map fun character => .mark ⟨character, true⟩

/-- The pieces of a value. -/
def valuePieces (inQuotes : Bool) (value : List Char) : List Piece :=
  if inQuotes then wholePieces value else cutPieces value

/-- The words that pieces make, the first of them still open with what it has. -/
def wordsOfPieces (current : Option (List Mark)) : List Piece → List (List Mark)
  | [] => current.toList
  | .mark mark :: rest => wordsOfPieces (some (current.getD [] ++ [mark])) rest
  | .present :: rest => wordsOfPieces (some (current.getD [])) rest
  | .cut :: rest => current.toList ++ wordsOfPieces none rest

/-- The characters that pieces make where they are not cut. -/
def textOfPieces (pieces : List Piece) : List Char :=
  pieces.filterMap fun piece =>
    match piece with
    | .mark mark => some mark.character
    | .cut => some ' '
    | .present => none

/-- The pattern that pieces make where they are not cut. -/
def marksOfPieces (pieces : List Piece) : List Mark :=
  pieces.filterMap fun piece =>
    match piece with
    | .mark mark => some mark
    | .cut => some ⟨' ', true⟩
    | .present => none

/-! ### Parameters -/

/-- What the parameters of a script are looked up in. -/
structure Parameters where
  name : List Char
  arguments : List (List Char)
  bindings : List (List Char × List Char)
  status : Nat

namespace Parameters

/-- The value of a variable, if it is set. -/
def binding? (parameters : Parameters) (name : List Char) : Option (List Char) :=
  (parameters.bindings.find? fun entry => entry.1 = name).map Prod.snd

/-- The arguments with single blanks between them. -/
def joined (parameters : Parameters) : List Char :=
  [' '].intercalate parameters.arguments

/-- The value of a parameter, if it has one. -/
def value? (parameters : Parameters) (name : List Char) : Option (List Char) :=
  match name with
  | ['#'] => some (Text.decimalText parameters.arguments.length).toList
  | ['?'] => some (Text.decimalText parameters.status).toList
  | ['*'] => some parameters.joined
  | ['@'] => some parameters.joined
  | _ =>
    if !name.isEmpty && name.all Text.isAsciiDigit then
      match Text.decimalValue name with
      | 0 => some parameters.name
      | index + 1 => parameters.arguments[index]?
    else parameters.binding? name

/-- The parts of a value before which a pattern fits, from the shortest part that is cut off at the
start to the longest. -/
def withoutStart (pattern : List Mark) (value : List Char) : List (List Char) :=
  ((List.range (value.length + 1)).filter fun length => fits pattern (value.take length)).map
    fun length => value.drop length

/-- The parts of a value behind which a pattern fits, from the shortest part that is cut off at the
end to the longest. -/
def withoutEnd (pattern : List Mark) (value : List Char) : List (List Char) :=
  ((List.range (value.length + 1)).reverse.filter fun length =>
    fits pattern (value.drop length)).map fun length => value.take length

/-- The value of a parameter with what stands behind its name in braces: a substitute for a missing
or an empty value, or a pattern that is cut off. -/
def modified (parameters : Parameters) (name change : List Char) : List Char :=
  let value := parameters.value? name
  let text := value.getD []
  let pattern (marks : List Char) : List Mark := marks.map fun character => ⟨character, false⟩
  match change with
  | ':' :: '-' :: other => if text.isEmpty then other else text
  | ':' :: '=' :: other => if text.isEmpty then other else text
  | ':' :: '+' :: other => if text.isEmpty then [] else other
  | '-' :: other => value.getD other
  | '=' :: other => value.getD other
  | '+' :: other => if value.isSome then other else []
  | '#' :: '#' :: marks => ((withoutStart (pattern marks) text).getLast?).getD text
  | '#' :: marks => ((withoutStart (pattern marks) text).head?).getD text
  | '%' :: '%' :: marks => ((withoutEnd (pattern marks) text).getLast?).getD text
  | '%' :: marks => ((withoutEnd (pattern marks) text).head?).getD text
  | _ => text

/-- The value of what stands in braces, or of a name. -/
def value (parameters : Parameters) (text : List Char) : List Char :=
  match text with
  | '#' :: first :: rest =>
    (Text.decimalText ((parameters.value? (first :: rest)).getD []).length).toList
  | first :: rest =>
    let name :=
      if isNamePart first then (first :: rest).takeWhile isNamePart else [first]
    parameters.modified name ((first :: rest).drop name.length)
  | [] => []

/-- The pieces of a parameter. The arguments of the script stay words of their own in quotes, and
no arguments make no word. -/
def pieces (parameters : Parameters) (name : List Char) (inQuotes : Bool) : List Piece :=
  if name = ['@'] || (name = ['*'] && !inQuotes) then
    [Piece.cut].intercalate (parameters.arguments.map (valuePieces inQuotes))
  else valuePieces inQuotes (parameters.value name)

end Parameters

end WorkspaceSync.Tool.Script
