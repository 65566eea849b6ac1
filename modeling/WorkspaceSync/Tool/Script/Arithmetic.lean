/-
This file evaluates the arithmetic expressions of shell scripts: sums and
products of numbers and variables, comparisons, and parentheses.
-/
import WorkspaceSync.Tool.Script.Token

namespace WorkspaceSync.Tool.Script

/-- The number that a text writes; anything else counts as zero. -/
def numberOf (text : List Char) : Int :=
  match text with
  | '-' :: digits => -(Text.decimalValue (digits.takeWhile Text.isAsciiDigit) : Int)
  | '+' :: digits => Text.decimalValue (digits.takeWhile Text.isAsciiDigit)
  | digits => Text.decimalValue (digits.takeWhile Text.isAsciiDigit)

/-- The number of a truth value. -/
def truthNumber (truth : Bool) : Int :=
  if truth then 1 else 0

/-- An operator between two numbers. -/
structure Operation where
  mark : List Char
  /-- How strongly the operator binds. -/
  rank : Nat
  /-- What it computes; none where it has no value. -/
  apply : Int → Int → Option Int

/-- The operators, of which the first that fits counts. -/
def operations : List Operation :=
  [⟨['<', '='], 3, fun left right => some (truthNumber (left ≤ right))⟩,
    ⟨['>', '='], 3, fun left right => some (truthNumber (right ≤ left))⟩,
    ⟨['=', '='], 2, fun left right => some (truthNumber (left = right))⟩,
    ⟨['!', '='], 2, fun left right => some (truthNumber (left ≠ right))⟩,
    ⟨['&', '&'], 1, fun left right => some (truthNumber (left ≠ 0 ∧ right ≠ 0))⟩,
    ⟨['|', '|'], 0, fun left right => some (truthNumber (left ≠ 0 ∨ right ≠ 0))⟩,
    ⟨['<'], 3, fun left right => some (truthNumber (left < right))⟩,
    ⟨['>'], 3, fun left right => some (truthNumber (right < left))⟩,
    ⟨['+'], 4, fun left right => some (left + right)⟩,
    ⟨['-'], 4, fun left right => some (left - right)⟩,
    ⟨['*'], 5, fun left right => some (left * right)⟩,
    ⟨['/'], 5, fun left right => if right = 0 then none else some (left.tdiv right)⟩,
    ⟨['%'], 5, fun left right => if right = 0 then none else some (left.tmod right)⟩]

/-- What follows the blanks at the start of an expression. -/
def skipBlanks (text : List Char) : List Char :=
  text.dropWhile fun character => character == ' ' || character == '\t' || character == '\n'

mutual

/-- Reads a number, a variable, or an expression in parentheses. -/
def operand (lookup : List Char → List Char) : Nat → List Char → Option (Int × List Char)
  | 0, _ => none
  | fuel + 1, text =>
    match skipBlanks text with
    | '(' :: rest =>
      match expression lookup fuel 0 rest with
      | some (value, after) =>
        match skipBlanks after with
        | ')' :: later => some (value, later)
        | _ => none
      | none => none
    | '-' :: rest => (operand lookup fuel rest).map fun (value, after) => (-value, after)
    | '+' :: rest => operand lookup fuel rest
    | '!' :: rest =>
      (operand lookup fuel rest).map fun (value, after) => (truthNumber (value = 0), after)
    | '$' :: '\x7b' :: rest =>
      let name := rest.takeWhile (· ≠ '\x7d')
      some (numberOf (lookup name), rest.drop (name.length + 1))
    | '$' :: rest =>
      let name := if (leadingName rest).isEmpty then rest.take 1 else leadingName rest
      some (numberOf (lookup name), rest.drop name.length)
    | inner =>
      let digits := inner.takeWhile Text.isAsciiDigit
      let name := leadingName inner
      if !digits.isEmpty then some (Text.decimalValue digits, inner.drop digits.length)
      else if !name.isEmpty then some (numberOf (lookup name), inner.drop name.length)
      else none

/-- Reads an expression of operators that bind at least as strongly as the rank says. -/
def expression (lookup : List Char → List Char) : Nat → Nat → List Char →
    Option (Int × List Char)
  | 0, _, _ => none
  | fuel + 1, rank, text =>
    match operand lookup fuel text with
    | some (value, rest) => continued lookup fuel rank value rest
    | none => none

/-- Reads the operators and operands behind a value. -/
def continued (lookup : List Char → List Char) : Nat → Nat → Int → List Char →
    Option (Int × List Char)
  | 0, _, _, _ => none
  | fuel + 1, rank, value, text =>
    let inner := skipBlanks text
    match operations.find? fun operation => operation.mark.isPrefixOf inner with
    | some operation =>
      if operation.rank < rank then some (value, inner)
      else
        match expression lookup fuel (operation.rank + 1) (inner.drop operation.mark.length) with
        | some (right, rest) =>
          match operation.apply value right with
          | some result => continued lookup fuel rank result rest
          | none => none
        | none => none
    | none => some (value, inner)

end

/-- The value of an expression, given the values of variables; none if it has none. -/
def evaluate (lookup : List Char → List Char) (text : List Char) : Option Int :=
  if (skipBlanks text).isEmpty then some 0
  else
    match expression lookup (4 * text.length + 4) 0 text with
    | some (value, rest) => if (skipBlanks rest).isEmpty then some value else none
    | none => none

end WorkspaceSync.Tool.Script
