/-
This file matches names against the patterns of shell scripts and lists the
paths that a pattern stands for.

A star stands for any row of characters, a question mark for any character, and
a row in brackets for one of its characters. A character that was quoted stands
for itself. A leading dot has to be written out.
-/
import WorkspaceSync.Disk
import WorkspaceSync.PathMap

namespace WorkspaceSync.Tool.Script

/-- A character of a pattern. -/
structure Mark where
  character : Char
  /-- Whether the character stands for itself, because it was quoted. -/
  isLiteral : Bool
  deriving DecidableEq, Repr

/-- Whether a mark is a character with a meaning. -/
def Mark.is (mark : Mark) (character : Char) : Bool :=
  mark.character == character && !mark.isLiteral

/-! ### Matching -/

/-- Whether a character is in a row of characters and ranges. -/
def inRow (character : Char) : List Mark → Bool
  | first :: dash :: last :: rest =>
    if dash.is '-' then
      (first.character ≤ character && character ≤ last.character) || inRow character rest
    else first.character == character || inRow character (dash :: last :: rest)
  | first :: rest => first.character == character || inRow character rest
  | [] => false

/-- The row in brackets, from behind the opening one, and what follows the closing one. A closing
bracket at the start belongs to the row. -/
def row? (marks : List Mark) : Option (List Mark × List Mark) :=
  match marks with
  | [] => none
  | first :: rest =>
    let inner := rest.takeWhile fun mark => !mark.is ']'
    match rest.drop inner.length with
    | _ :: after => some (first :: inner, after)
    | [] => none

/-- Whether a character fits a row in brackets, which may be turned around. -/
def fitsRow (character : Char) (row : List Mark) : Bool :=
  match row with
  | first :: rest =>
    if first.is '!' || first.is '^' then !inRow character rest else inRow character row
  | [] => false

/-- The row in brackets behind an opening bracket and its own turning mark. -/
def bracketed? (marks : List Mark) : Option (List Mark × List Mark) :=
  match marks with
  | first :: rest =>
    if first.is '!' || first.is '^' then
      (row? rest).map fun (row, after) => (first :: row, after)
    else row? marks
  | [] => none

/-- Whether a text fits a pattern. -/
def fits (marks : List Mark) (text : List Char) : Bool :=
  match marks with
  | [] => text.isEmpty
  | mark :: rest =>
    if mark.is '*' then
      fits rest text ||
        (match text with
          | _ :: later => fits (mark :: rest) later
          | [] => false)
    else
      match text with
      | [] => false
      | character :: later =>
        if mark.is '?' then fits rest later
        else if mark.is '[' then
          match bracketed? rest with
          | some (row, after) =>
            if after.length ≤ rest.length then fitsRow character row && fits after later
            else false
          | none => character == '[' && fits rest later
        else mark.character == character && fits rest later
termination_by (marks.length, text.length)

/-! ### Paths -/

/-- Whether a pattern has characters with a meaning. -/
def isPattern (marks : List Mark) : Bool :=
  marks.any fun mark => mark.is '*' || mark.is '?' || mark.is '['

/-- The names in a directory, in order, with those of itself and of the directory above. -/
def namesIn (disk : Disk) (directory : Path) : List String :=
  match disk.entry directory with
  | .ok (.directory entries) =>
    let ordered : PathMap Unit :=
      entries.foldl (fun names entry => names.insert ⟨entry.1⟩ ()) .empty
    [".", ".."] ++ ordered.paths.map Path.text
  | _ => []

/-- The characters of a pattern. -/
def charactersOf (marks : List Mark) : List Char :=
  marks.map Mark.character

/-- The names in a directory that fit a step of a pattern; a step without pattern is its own
name. -/
def namesFor (disk : Disk) (directory : Path) (step : List Mark) : List String :=
  if isPattern step then
    (namesIn disk directory).filter fun name =>
      fits step name.toList &&
        (name.toList.head? != some '.' || (charactersOf step).head? == some '.')
  else [String.ofList (charactersOf step)]

/-- The paths that start as given and go on along the steps of a pattern. -/
def pathsAlong (disk : Disk) (directory : Path) (start : String) : List (List Mark) → List String
  | [] => []
  | [step] => (namesFor disk (directory.join ⟨start⟩) step).map fun name => start ++ name
  | step :: rest =>
    (namesFor disk (directory.join ⟨start⟩) step).flatMap fun name =>
      pathsAlong disk directory (start ++ name ++ "/") rest

/-- Cuts a pattern at its separators. -/
def stepsOf : List Mark → List (List Mark)
  | [] => [[]]
  | mark :: rest =>
    if mark.character = '/' then [] :: stepsOf rest
    else
      match stepsOf rest with
      | first :: later => (mark :: first) :: later
      | [] => [[mark]]

/-- The paths that a pattern stands for: those on the disk that fit it, or else its own text. -/
def pathsFor (disk : Disk) (directory : Path) (marks : List Mark) : List String :=
  let own := String.ofList (charactersOf marks)
  if isPattern marks then
    let found := (pathsAlong disk directory "" (stepsOf marks)).filter fun path =>
      match disk.locate false (directory.join ⟨path⟩) with
      | .ok _ => true
      | .error _ => false
    if found.isEmpty then [own] else found
  else [own]

end WorkspaceSync.Tool.Script
