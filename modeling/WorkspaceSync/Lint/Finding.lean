/-
This file reads the findings of a lint tool.

A finding is a line `line:column: message`, optionally with a path and a colon
in front of it. Positions count from one. When several colons could end the
path, the first one that leaves a complete finding behind it does, even if the
line is a complete finding without any path.
-/
import WorkspaceSync.Diagnostic

namespace WorkspaceSync.Lint

/-- Who findings are attributed to. -/
def findingSource : String := "gunk-lint"

/-- The part of a finding after its path: the two rows of digits and what follows them. -/
structure Place where
  line : List Char
  column : List Char
  rest : List Char
  deriving DecidableEq, Repr

namespace Place

/-- Reads a non-empty row of digits and the colon after it. -/
def number? (characters : List Char) : Option (List Char × List Char) :=
  match characters.takeWhile Text.isDecimal, characters.dropWhile Text.isDecimal with
  | [], _ => none
  | digits, ':' :: rest => some (digits, rest)
  | _, _ => none

/-- Reads `line:column:` and the text behind it, which must not be empty. -/
def read? (characters : List Char) : Option Place := do
  let (line, afterLine) ← number? characters
  let (column, rest) ← number? afterLine
  if rest = [] then none else some ⟨line, column, rest⟩

end Place

/-- Cuts a line at the first colon that is not its first character and has a complete place behind
it; `before` is what was passed already, reversed. -/
def split? (before : List Char) : List Char → Option (List Char × Place)
  | [] => none
  | character :: rest =>
    if character = ':' ∧ before ≠ [] then
      match Place.read? rest with
      | some place => some (before.reverse, place)
      | none => split? (character :: before) rest
    else split? (character :: before) rest

/-- Reads a line with a path in front, or else without one. -/
def readLine? (line : List Char) : Option (Option (List Char) × Place) :=
  match split? [] line with
  | some (path, place) => some (some path, place)
  | none => (Place.read? line).map fun place => (none, place)

/-- Whether a finding that names this path is about the linted file. Tools call their standard
input `-` or `<stdin>`; any other name is seen from the root. -/
def concerns (root file : Path) (named : List Char) : Bool :=
  named == ['-'] || named == "<stdin>".toList ||
    decide ((root.join ⟨String.ofList named⟩).Same file)

/-- The position with a number in a report, which counts from one; zero stands for the first. -/
def position (number : UInt32) : UInt32 :=
  if number = 0 then 0 else number - 1

/-- The remark that one line of a tool's output makes on the linted file, if any. -/
def finding? (root file : Path) (line : List Char) : Option Diagnostic := do
  let (path, place) ← readLine? (Text.trimEnd line)
  guard (path.all (concerns root file))
  let number ← Text.word32? place.line
  let column ← Text.word32? place.column
  some
    { file
      message := String.ofList (Text.trim place.rest)
      severity := .warning
      span := .onLine (position number) (position column) 1
      source := some findingSource }

/-- The remarks that a tool's output makes on the linted file, in the order of its lines. -/
def findings (root file : Path) (output : String) : List Diagnostic :=
  (Text.lines output.toList).filterMap (finding? root file)

end WorkspaceSync.Lint
