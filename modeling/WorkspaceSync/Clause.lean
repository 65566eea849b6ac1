/-
This file reads the header of a source file.

A file names its package on its first significant line, the first one that is
neither blank nor a `//` comment. That line is a clause when it consists of the
keyword, a blank, a name and at most a comment after it, with blanks anywhere
between them.
-/
import WorkspaceSync.Diagnostic
import WorkspaceSync.Text.Units

namespace WorkspaceSync

/-- A package clause: the declared name and the place of the name. -/
structure Clause where
  name : String
  span : Span
  deriving DecidableEq, Repr

/-- What the first significant line of a file says. -/
inductive Header where
  /-- It is a package clause. -/
  | found (clause : Clause)
  /-- It is something else. -/
  | malformed (line : UInt32) (text : String)
  /-- There is no significant line. -/
  | missing
  deriving DecidableEq, Repr

namespace Clause

/-- The word that opens a clause. -/
def keyword : List Char := ['p', 'a', 'c', 'k', 'a', 'g', 'e']

/-- A letter or an underscore. -/
def isNameStart (character : Char) : Bool :=
  ('A' ≤ character && character ≤ 'Z') || ('a' ≤ character && character ≤ 'z') || character == '_'

/-- A letter, an underscore or an ASCII digit. -/
def isNamePart (character : Char) : Bool :=
  isNameStart character || Text.isAsciiDigit character

/-- A text that opens a comment. -/
def startsComment (characters : List Char) : Bool :=
  ['/', '/'].isPrefixOf characters

/-- Cuts a line that is a package clause into what stands before the name, the name, and what
stands after it. -/
def dissect? (line : List Char) : Option (List Char × List Char × List Char) := do
  let indent := line.takeWhile Text.isBlank
  let afterKeyword ← List.isPrefixOf? keyword (line.dropWhile Text.isBlank)
  let gap := afterKeyword.takeWhile Text.isBlank
  let fromName := afterKeyword.dropWhile Text.isBlank
  let name := fromName.takeWhile isNamePart
  let rest := fromName.dropWhile isNamePart
  let tail := rest.dropWhile Text.isBlank
  if gap ≠ [] ∧ name.head?.any isNameStart ∧ (tail = [] ∨ startsComment tail) then
    some (indent ++ keyword ++ gap, name, rest)
  else none

end Clause

namespace Header

/-- A line that is neither blank nor a comment. -/
def isSignificant (line : List Char) : Bool :=
  let trimmed := Text.trim line
  !trimmed.isEmpty && !Clause.startsComment trimmed

/-- What a significant line with the given number says. -/
def ofLine (number : Nat) (line : List Char) : Header :=
  match Clause.dissect? line with
  | some (before, name, _) =>
    .found ⟨String.ofList name,
      .onLine (UInt32.ofNat number) (UInt32.ofNat (Text.width before))
        (UInt32.ofNat (Text.width name))⟩
  | none => .malformed (UInt32.ofNat number) (String.ofList (Text.trim line))

/-- Reads the header off numbered lines. -/
def ofLines (number : Nat) : List (List Char) → Header
  | [] => .missing
  | line :: later =>
    if isSignificant line then ofLine number line else ofLines (number + 1) later

/-- Reads the header of a text. -/
def scan (text : String) : Header :=
  ofLines 0 (Text.lines text.toList)

end Header

end WorkspaceSync
