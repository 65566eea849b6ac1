/-
This file writes and reads JSON texts, the form in which messages travel.

Writing puts no blanks between the parts. Reading takes one value with blanks
around it. Of the fields of a record that have the same name the last one
counts, and lists and records may be in each other only so deep.
-/
import WorkspaceSync.Url.Percent
import WorkspaceSync.Value

namespace WorkspaceSync.Json

/-! ### Writing -/

/-- The lower-case hexadecimal digit for a value below sixteen. -/
def hexDigit (value : Nat) : Char :=
  if value < 10 then Char.ofNat (0x30 + value) else Char.ofNat (0x57 + value)

/-- A character as it stands in a quoted text. -/
def escape (character : Char) : List Char :=
  match character with
  | '"' => ['\\', '"']
  | '\\' => ['\\', '\\']
  | '\n' => ['\\', 'n']
  | '\r' => ['\\', 'r']
  | '\t' => ['\\', 't']
  | '\x08' => ['\\', 'b']
  | '\x0c' => ['\\', 'f']
  | other =>
    if other.toNat < 0x20 then
      ['\\', 'u', '0', '0', hexDigit (other.toNat / 16), hexDigit (other.toNat % 16)]
    else [other]

/-- A text in quotes. -/
def quote (content : String) : List Char :=
  '"' :: content.toList.flatMap escape ++ ['"']

mutual

/-- The characters of a value. -/
def characters : Value → List Char
  | .null => "null".toList
  | .bool true => "true".toList
  | .bool false => "false".toList
  | .number written => written.toList
  | .moment written => quote written
  | .text content => quote content
  | .list items => '[' :: itemCharacters items ++ [']']
  | .record fields => '\x7b' :: fieldCharacters fields ++ ['\x7d']

/-- The characters of the items of a list. -/
def itemCharacters : List Value → List Char
  | [] => []
  | [item] => characters item
  | item :: next :: later => characters item ++ ',' :: itemCharacters (next :: later)

/-- The characters of the fields of a record. -/
def fieldCharacters : List (String × Value) → List Char
  | [] => []
  | [(name, value)] => quote name ++ ':' :: characters value
  | (name, value) :: next :: later =>
    quote name ++ ':' :: characters value ++ ',' :: fieldCharacters (next :: later)

end

/-- Writes a value. -/
def write (value : Value) : String :=
  String.ofList (characters value)

/-! ### Reading texts -/

/-- The number that the first four characters write in hexadecimal digits. -/
def hexWord? (text : List Char) : Option Nat :=
  match text with
  | first :: second :: third :: fourth :: _ => do
    let digits ← [first, second, third, fourth].mapM fun digit => Percent.hexValue? digit.toNat
    some (digits.foldl (fun value digit => 16 * value + digit) 0)
  | _ => none

/-- The character that an escape by number stands for, from behind the `u`, and how many characters
the escape takes there. A character outside the basic plane takes two escapes, and neither half of
them stands alone. -/
def numbered? (text : List Char) : Option (Char × Nat) := do
  let unit ← hexWord? text
  if unit < 0xD800 ∨ 0xDFFF < unit then some (Char.ofNat unit, 4)
  else if 0xDC00 ≤ unit then none
  else
    match text.drop 4 with
    | '\\' :: 'u' :: rest =>
      let low ← hexWord? rest
      if 0xDC00 ≤ low ∧ low ≤ 0xDFFF then
        some (Char.ofNat (0x10000 + 0x400 * (unit - 0xD800) + (low - 0xDC00)), 10)
      else none
    | _ => none

/-- The character that an escape stands for, from behind the backslash, and how many characters the
escape takes there. -/
def escape? (text : List Char) : Option (Char × Nat) :=
  match text with
  | '"' :: _ => some ('"', 1)
  | '\\' :: _ => some ('\\', 1)
  | '/' :: _ => some ('/', 1)
  | 'b' :: _ => some ('\x08', 1)
  | 'f' :: _ => some ('\x0c', 1)
  | 'n' :: _ => some ('\n', 1)
  | 'r' :: _ => some ('\r', 1)
  | 't' :: _ => some ('\t', 1)
  | 'u' :: rest => (numbered? rest).map fun (character, length) => (character, length + 1)
  | _ => none

/-- Reads a text from behind its opening quote. -/
def content (text : List Char) : Option (List Char × List Char) :=
  match text with
  | [] => none
  | first :: rest =>
    if first = '"' then some ([], rest)
    else if first = '\\' then
      match escape? rest with
      | some (character, length) =>
        (content (rest.drop length)).map fun (others, after) => (character :: others, after)
      | none => none
    else if first.toNat < 0x20 then none
    else (content rest).map fun (others, after) => (first :: others, after)
termination_by text.length
decreasing_by all_goals (simp only [List.length_drop, List.length_cons]; omega)

/-! ### Reading numbers -/

/-- Cuts a row of at least one digit off. -/
def digits? (text : List Char) : Option (List Char × List Char) :=
  let row := text.takeWhile Text.isAsciiDigit
  if row.isEmpty then none else some (row, text.drop row.length)

/-- Cuts the whole part of a number off; it has no leading zeros. -/
def whole? (text : List Char) : Option (List Char × List Char) :=
  match text with
  | '0' :: rest => some (['0'], rest)
  | _ => digits? text

/-- Cuts the fraction of a number off, if there is one. -/
def fraction? (text : List Char) : Option (List Char × List Char) :=
  match text with
  | '.' :: rest => (digits? rest).map fun (row, after) => ('.' :: row, after)
  | _ => some ([], text)

/-- Cuts the power of ten off a number, if there is one. -/
def power? (text : List Char) : Option (List Char × List Char) :=
  match text with
  | mark :: rest =>
    if mark = 'e' ∨ mark = 'E' then
      match rest with
      | '+' :: digits => (digits? digits).map fun (row, after) => (mark :: '+' :: row, after)
      | '-' :: digits => (digits? digits).map fun (row, after) => (mark :: '-' :: row, after)
      | digits => (digits? digits).map fun (row, after) => (mark :: row, after)
    else some ([], text)
  | [] => some ([], [])

/-- Reads a number. -/
def number (text : List Char) : Option (Value × List Char) := do
  let (sign, unsigned) :=
    match text with
    | '-' :: rest => (['-'], rest)
    | _ => ([], text)
  let (whole, afterWhole) ← whole? unsigned
  let (fraction, afterFraction) ← fraction? afterWhole
  let (power, rest) ← power? afterFraction
  some (.number (String.ofList (sign ++ whole ++ fraction ++ power)), rest)

/-! ### Reading values -/

/-- What follows the blanks at the start of a text. -/
def skip (text : List Char) : List Char :=
  text.dropWhile fun character => [' ', '\t', '\n', '\r'].contains character

/-- Reads the items of a list, of which there is at least one. -/
def items (value : List Char → Option (Value × List Char)) (text : List Char) :
    Option (List Value × List Char) :=
  match value (skip text) with
  | none => none
  | some (first, rest) =>
    match skip rest with
    | ',' :: after =>
      if after.length < text.length then
        (items value after).map fun (others, rest) => (first :: others, rest)
      else none
    | ']' :: after => some ([first], after)
    | _ => none
termination_by text.length

/-- Gives a field a value, at its place if it has one. -/
def setField (name : String) (value : Value) : List (String × Value) → List (String × Value)
  | [] => [(name, value)]
  | (other, present) :: later =>
    if other = name then (name, value) :: later else (other, present) :: setField name value later

/-- Reads the fields of a record, of which there is at least one more, and adds them to those that
were read. -/
def fields (value : List Char → Option (Value × List Char)) (present : List (String × Value))
    (text : List Char) : Option (List (String × Value) × List Char) :=
  match skip text with
  | '"' :: quoted =>
    match content quoted with
    | none => none
    | some (name, afterName) =>
      match skip afterName with
      | ':' :: written =>
        match value (skip written) with
        | none => none
        | some (item, rest) =>
          let added := setField (String.ofList name) item present
          match skip rest with
          | ',' :: after =>
            if after.length < text.length then fields value added after else none
          | '\x7d' :: after => some (added, after)
          | _ => none
      | _ => none
  | _ => none
termination_by text.length

/-- Reads a word and gives its value. -/
def named (word : String) (value : Value) (text : List Char) : Option (Value × List Char) :=
  (List.isPrefixOf? word.toList text).map fun rest => (value, rest)

/-- Reads a value. Lists and records may be as deep in each other as the number says. -/
def value : Nat → List Char → Option (Value × List Char)
  | depth, text =>
    match text with
    | 'n' :: _ => named "null" .null text
    | 't' :: _ => named "true" (.bool true) text
    | 'f' :: _ => named "false" (.bool false) text
    | '"' :: rest =>
      (content rest).map fun (content, after) => (.text (String.ofList content), after)
    | '[' :: rest =>
      match depth, skip rest with
      | _ + 1, ']' :: after => some (.list [], after)
      | deeper + 1, inner =>
        (items (value deeper) inner).map fun (items, after) => (.list items, after)
      | 0, _ => none
    | '\x7b' :: rest =>
      match depth, skip rest with
      | _ + 1, '\x7d' :: after => some (.record [], after)
      | deeper + 1, inner =>
        (fields (value deeper) [] inner).map fun (fields, after) => (.record fields, after)
      | 0, _ => none
    | _ => number text

/-- How deep lists and records may be in each other. -/
def depthLimit : Nat := 127

/-- Reads a text that is one value. -/
def read (text : String) : Option Value :=
  match value depthLimit (skip text.toList) with
  | some (value, rest) => if (skip rest).isEmpty then some value else none
  | none => none

end WorkspaceSync.Json
