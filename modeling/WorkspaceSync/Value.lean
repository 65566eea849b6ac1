/-
This file defines the values that settings and messages are read from, whatever
the format they were written in.
-/
import WorkspaceSync.Text.Digit

namespace WorkspaceSync

/-- A value of a document. Numbers, dates and times are kept as they were written. -/
inductive Value where
  | null
  | bool (truth : Bool)
  | number (written : String)
  /-- A date, a time, or both. -/
  | moment (written : String)
  | text (content : String)
  | list (items : List Value)
  | record (fields : List (String × Value))
  deriving Repr, Inhabited

namespace Value

/-! ### Looking into values -/

/-- The truth value that a value is, if it is one. -/
def asBool? : Value → Option Bool
  | .bool truth => some truth
  | _ => none

/-- The text that a value is, if it is one. -/
def asText? : Value → Option String
  | .text content => some content
  | _ => none

/-- The list of texts that a value is, if it is one. -/
def asTexts? : Value → Option (List String)
  | .list items => items.mapM asText?
  | _ => none

/-- The integer that a value is, if it is one: digits with or without a minus sign. -/
def asInteger? : Value → Option Int
  | .number written =>
    match written.toList with
    | '-' :: digits => (natural? digits).map fun size => -(size : Int)
    | digits => (natural? digits).map Int.ofNat
  | _ => none
where
  /-- The number that a row of digits writes, if it is one. -/
  natural? (digits : List Char) : Option Nat :=
    if digits ≠ [] ∧ digits.all Text.isAsciiDigit then some (Text.decimalValue digits) else none

/-- The value of a field, if the value is a record that has it. -/
def field? (value : Value) (name : String) : Option Value :=
  match value with
  | .record fields => (fields.find? fun field => field.1 = name).map Prod.snd
  | _ => none

/-! ### Making values -/

/-- A natural number. -/
def ofNat (size : Nat) : Value :=
  .number (Text.decimalText size)

/-- An integer. -/
def ofInt : Int → Value
  | .ofNat size => ofNat size
  | .negSucc below => .number ("-" ++ Text.decimalText (below + 1))

end Value

end WorkspaceSync
