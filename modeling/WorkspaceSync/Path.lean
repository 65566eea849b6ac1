/-
This file defines paths and the ways to take them apart.

A path keeps the text it was written with, because answers show that text. It
is compared by its components: repeated separators, a trailing separator and
every `.` but a leading one do not count, while `..` is never resolved. Two
spellings of one path have equal keys, and the keys are ordered component by
component, a component by the codes of its characters.
-/
import WorkspaceSync.Text.Blank

namespace WorkspaceSync

/-- A path as it was written. -/
structure Path where
  text : String
  deriving DecidableEq, Repr, Inhabited

namespace Path

/-! ### Components -/

/-- One step of a path. -/
inductive Component where
  /-- The leading separator. -/
  | root
  /-- A leading `.`. -/
  | current
  /-- The step `..`. -/
  | parent
  /-- A step into a named entry. -/
  | entry (name : List Char)
  deriving DecidableEq, Repr

/-- The code of a component. Codes are compared character by character, and their order puts the
root before `.`, that before `..`, and names last. -/
def Component.code : Component → List Nat
  | .root => [0]
  | .current => [1]
  | .parent => [2]
  | .entry name => 3 :: name.map Char.toNat

/-- The component that a piece between separators stands for in the body of a path. -/
def Component.ofPiece? (piece : List Char) : Option Component :=
  if piece = [] ∨ piece = ['.'] then none
  else if piece = ['.', '.'] then some .parent
  else some (.entry piece)

/-- Cuts a path into its head and the pieces of its body: the head is the leading separator or a
leading `.`, if there is one. -/
def dissect (path : Path) : Option Component × List (List Char) :=
  match path.text.toList with
  | '/' :: body => (some .root, List.splitOn '/' body)
  | ['.'] => (some .current, [[]])
  | '.' :: '/' :: body => (some .current, [] :: List.splitOn '/' body)
  | body => (none, List.splitOn '/' body)

/-- The components of a path, in order. -/
def components (path : Path) : List Component :=
  path.dissect.1.toList ++ path.dissect.2.filterMap Component.ofPiece?

/-- What a path is compared by. -/
def key (path : Path) : List (List Nat) :=
  path.components.map Component.code

/-- Two spellings of one path. -/
def Same (left right : Path) : Prop :=
  left.key = right.key

instance (left right : Path) : Decidable (left.Same right) :=
  inferInstanceAs (Decidable (left.key = right.key))

/-- A path that starts at the root. -/
def isAbsolute (path : Path) : Bool :=
  path.text.toList.head? == some '/'

/-! ### Parts of a path -/

/-- The last component, if it is a name. -/
def fileName? (path : Path) : Option (List Char) :=
  match path.components.getLast? with
  | some (.entry name) => some name
  | _ => none

/-- What follows the last dot of a name, unless the name has no dot but its first character. -/
def extensionOf? (name : List Char) : Option (List Char) :=
  match (List.splitOn '.' name).reverse with
  | [] | [_] => none
  | [_, []] => none
  | suffix :: _ => some suffix

/-- The extension of the last component. -/
def extension? (path : Path) : Option (List Char) :=
  path.fileName?.bind extensionOf?

/-- Drops the pieces at the end that stand for no component. -/
def dropTrivial (pieces : List (List Char)) : List (List Char) :=
  (pieces.reverse.dropWhile fun piece => (Component.ofPiece? piece).isNone).reverse

/-- The text of a head. -/
def headText : Option Component → List Char
  | some .root => ['/']
  | some .current => ['.']
  | _ => []

/-- The path without its last component, in the spelling it has within the path. The root and the
empty path have none. -/
def parent? (path : Path) : Option Path :=
  match path.dissect with
  | (head, pieces) =>
    match (dropTrivial pieces).reverse with
    | _ :: before =>
      some ⟨String.ofList (headText head ++ List.intercalate ['/'] (dropTrivial before.reverse))⟩
    | [] =>
      match head with
      | some .current => some ⟨""⟩
      | _ => none

/-- The path of `step` seen from `base`: an absolute step replaces the base. -/
def join (base step : Path) : Path :=
  if step.isAbsolute then step
  else
    match base.text.toList.getLast? with
    | none => step
    | some '/' => ⟨base.text ++ step.text⟩
    | some _ => ⟨base.text ++ "/" ++ step.text⟩

/-- The components of a path below a base, if the path starts with the components of the base. -/
def below? (path base : Path) : Option (List Component) :=
  List.isPrefixOf? base.components path.components

end Path

end WorkspaceSync
