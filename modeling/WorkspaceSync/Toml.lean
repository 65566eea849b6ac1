/-
This file reads TOML documents.

A document is a row of statements: headers of tables and of elements of arrays
of tables, and keys with values. The statements are applied one after the other
to the tables read so far. A key can be set once; a table can be named by one
header, and one that dotted keys made by none.
-/
import WorkspaceSync.Toml.Quoted
import WorkspaceSync.Toml.Scalar

namespace WorkspaceSync.Toml

/-! ### Tables under construction -/

/-- How a table came into being. -/
inductive Maker where
  /-- As the table above one that a header names. -/
  | passing
  /-- Through a dotted key. -/
  | dotted
  /-- By a header of its own. -/
  | header
  deriving DecidableEq, Repr

/-- What stands at a key. -/
inductive Item where
  /-- A value; it cannot be added to. -/
  | closed (value : Value)
  | table (maker : Maker) (entries : List (String × Item))
  /-- An array of tables; new keys go to its last element, which stands first here. -/
  | tables (elements : List (List (String × Item)))

/-- The entries of a table, in the order in which their keys were first named. -/
abbrev Entries := List (String × Item)

mutual

/-- The value of what stands at a key. -/
def Item.value : Item → Value
  | .closed value => value
  | .table _ entries => .record (Entries.fields entries)
  | .tables elements => .list (Entries.records elements).reverse

/-- The fields of a table. -/
def Entries.fields : List (String × Item) → List (String × Value)
  | [] => []
  | (key, item) :: later => (key, item.value) :: Entries.fields later

/-- The elements of an array of tables. -/
def Entries.records : List (List (String × Item)) → List Value
  | [] => []
  | entries :: later => .record (Entries.fields entries) :: Entries.records later

end

namespace Entries

/-- Changes what stands at a key; fails where the change does. -/
def alter (key : String) (change : Option Item → Option Item) : Entries → Option Entries
  | [] => (change none).map fun item => [(key, item)]
  | (other, item) :: later =>
    if other = key then (change (some item)).map fun changed => (other, changed) :: later
    else (alter key change later).map ((other, item) :: ·)

/-- Puts a value at a key that is free. -/
def setNew (key : String) (value : Value) (entries : Entries) : Option Entries :=
  entries.alter key fun present =>
    match present with
    | none => some (.closed value)
    | some _ => none

/-- Sets a key, dotted if `path` is not empty. The table that the last part is set in has to be one
that dotted keys made, and none of those on the way may have a header of its own. -/
def setKey (path : List String) (key : String) (value : Value) (entries : Entries) :
    Option Entries :=
  match path with
  | [] => entries.setNew key value
  | step :: rest =>
    entries.alter step fun present =>
      match present with
      | none => (setKey rest key value []).map (.table .dotted)
      | some (.table .dotted inner) => (setKey rest key value inner).map (.table .dotted)
      | some (.table .passing inner) =>
        if rest = [] then none else (setKey rest key value inner).map (.table .passing)
      | some (.tables (element :: others)) =>
        if rest = [] then none
        else (setKey rest key value element).map fun changed => .tables (changed :: others)
      | some _ => none

/-- Goes to the table at a path, as headers do, and changes it. Tables that are not there are
made. -/
def enter (change : Entries → Option Entries) : List String → Entries → Option Entries
  | [], entries => change entries
  | step :: rest, entries =>
    entries.alter step fun present =>
      match present with
      | none => (enter change rest []).map (.table .passing)
      | some (.table maker inner) => (enter change rest inner).map (.table maker)
      | some (.tables (element :: others)) =>
        (enter change rest element).map fun changed => .tables (changed :: others)
      | some _ => none

/-- Opens a table by its header. -/
def openTable (path : List String) (key : String) (entries : Entries) : Option Entries :=
  entries.enter (fun above => above.alter key fun present =>
    match present with
    | none => some (.table .header [])
    | some (.table .passing inner) => some (.table .header inner)
    | some _ => none) path

/-- Opens a new element of an array of tables by its header. -/
def openElement (path : List String) (key : String) (entries : Entries) : Option Entries :=
  entries.enter (fun above => above.alter key fun present =>
    match present with
    | none => some (.tables [[]])
    | some (.tables elements) => some (.tables ([] :: elements))
    | some _ => none) path

end Entries

/-! ### Blanks, comments and line ends -/

/-- A blank within a line. -/
def isInlineBlank (character : Char) : Bool :=
  character == ' ' || character == '\t'

/-- What follows the blanks of a line. -/
def skipInline (text : List Char) : List Char :=
  text.dropWhile isInlineBlank

/-- What follows a comment, if there is one; none if the comment has a control character. -/
def skipComment (text : List Char) : Option (List Char) :=
  match text with
  | '#' :: rest =>
    let comment := rest.takeWhile fun character => character != '\n' && character != '\r'
    if comment.any isControl then none else some (rest.drop comment.length)
  | _ => some text

/-- What follows a line end; none if there is none. -/
def lineEnd? : List Char → Option (List Char)
  | '\n' :: rest => some rest
  | '\r' :: '\n' :: rest => some rest
  | _ => none

/-- What follows blanks, comments and line ends; none if a comment is no comment. -/
def skipGap (text : List Char) : Option (List Char) :=
  match text with
  | [] => some []
  | first :: rest =>
    if isInlineBlank first || first == '\n' then skipGap rest
    else if first == '\r' then
      match rest with
      | '\n' :: after => skipGap after
      | _ => none
    else if first == '#' then
      let comment := rest.takeWhile fun character => character != '\n' && character != '\r'
      if comment.any isControl then none else skipGap (rest.drop comment.length)
    else some text
termination_by text.length
decreasing_by all_goals (simp only [List.length_drop, List.length_cons]; omega)

/-! ### Keys -/

/-- A character of a key without quotes. -/
def isKeyPart (character : Char) : Bool :=
  ('A' ≤ character && character ≤ 'Z') || ('a' ≤ character && character ≤ 'z') ||
    Text.isAsciiDigit character || character == '_' || character == '-'

/-- Reads one part of a key. -/
def keyPart (text : List Char) : Option (String × List Char) :=
  match singleLine? text with
  | some result => result.map fun (name, rest) => (String.ofList name, rest)
  | none =>
    let name := text.takeWhile isKeyPart
    if name.isEmpty then none else some (String.ofList name, text.drop name.length)

/-- Reads a key with its dots: the parts before the last, the last, and what follows with its
blanks gone. -/
def key (text : List Char) : Option (List String × String × List Char) :=
  match keyPart text with
  | none => none
  | some (part, rest) =>
    match skipInline rest with
    | '.' :: after =>
      let next := skipInline after
      if next.length < text.length then
        (key next).map fun (path, last, rest) => (part :: path, last, rest)
      else none
    | other => some ([], part, other)
termination_by text.length

/-! ### Values -/

/-- A character that ends a value without quotes. -/
def endsScalar (character : Char) : Bool :=
  isInlineBlank character || [',', ']', '\x7d', '#', '\n', '\r'].contains character

/-- Reads a value without quotes. A blank between a date and a time belongs to the value. -/
def bareValue (text : List Char) : Option (Value × List Char) :=
  let first := text.takeWhile (!endsScalar ·)
  let rest := text.drop first.length
  let whole :=
    match rest with
    | ' ' :: next :: _ =>
      if isDate first && Text.isAsciiDigit next then
        first ++ ' ' :: (rest.drop 1).takeWhile (!endsScalar ·)
      else first
    | _ => first
  (scalar? whole).map fun value => (value, text.drop whole.length)

/-- Reads the elements of an array, from behind the opening bracket or a comma. -/
def elements (value : List Char → Option (Value × List Char)) (text : List Char) :
    Option (List Value × List Char) :=
  match skipGap text with
  | none => none
  | some (']' :: rest) => some ([], rest)
  | some inner =>
    match value inner with
    | none => none
    | some (first, rest) =>
      match skipGap rest with
      | some (',' :: after) =>
        if after.length < text.length then
          (elements value after).map fun (others, rest) => (first :: others, rest)
        else none
      | some (']' :: after) => some ([first], after)
      | _ => none
termination_by text.length

/-- Reads the entries of an inline table, from behind the opening brace or a comma, and adds them
to those that were read. -/
def pairs (value : List Char → Option (Value × List Char)) (entries : Entries)
    (text : List Char) : Option (Entries × List Char) :=
  match skipGap text with
  | none => none
  | some ('\x7d' :: rest) => some (entries, rest)
  | some inner =>
    match key inner with
    | some (path, last, '=' :: afterKey) =>
      match value (skipInline afterKey) with
      | none => none
      | some (item, rest) =>
        match entries.setKey path last item, skipGap rest with
        | some added, some (',' :: after) =>
          if after.length < text.length then pairs value added after else none
        | some added, some ('\x7d' :: after) => some (added, after)
        | _, _ => none
    | _ => none
termination_by text.length

/-- Reads a value. Arrays and inline tables may be as deep in each other as the number says. -/
def value : Nat → List Char → Option (Value × List Char)
  | depth, text =>
    match quoted? text with
    | some result => result.map fun (content, rest) => (.text (String.ofList content), rest)
    | none =>
      match depth, text with
      | deeper + 1, '[' :: rest =>
        (elements (value deeper) rest).map fun (items, after) => (.list items, after)
      | deeper + 1, '\x7b' :: rest =>
        (pairs (value deeper) [] rest).map fun (entries, after) =>
          (.record (Entries.fields entries), after)
      | _, _ => bareValue text

/-- How deep arrays and inline tables may be in each other. -/
def depthLimit : Nat := 80

/-! ### Documents -/

/-- A document as far as it was read: its tables, and the table that keys go to. -/
structure Reading where
  entries : Entries
  current : List String

/-- Reads a header, from behind its opening bracket. -/
def header (isElement : Bool) (reading : Reading) (text : List Char) :
    Option (Reading × List Char) := do
  let (path, last, rest) ← key (skipInline text)
  let closed ← if isElement then List.isPrefixOf? [']', ']'] rest else List.isPrefixOf? [']'] rest
  let opened ←
    if isElement then reading.entries.openElement path last
    else reading.entries.openTable path last
  some (⟨opened, path ++ [last]⟩, closed)

/-- Reads a key and its value. -/
def pair (reading : Reading) (text : List Char) : Option (Reading × List Char) := do
  let (path, last, rest) ← key text
  match rest with
  | '=' :: afterKey =>
    let (item, after) ← value depthLimit (skipInline afterKey)
    let added ← reading.entries.enter (fun table => table.setKey path last item) reading.current
    some ({ reading with entries := added }, after)
  | _ => none

/-- Reads the statements of a document. -/
def statements (reading : Reading) (text : List Char) : Option Entries :=
  match skipGap text with
  | none => none
  | some [] => some reading.entries
  | some inner =>
    let statement :=
      match inner with
      | '[' :: '[' :: rest => header true reading rest
      | '[' :: rest => header false reading rest
      | _ => pair reading inner
    match statement with
    | none => none
    | some (next, rest) =>
      match skipComment (skipInline rest) with
      | none => none
      | some [] => some next.entries
      | some after =>
        match lineEnd? after with
        | some later => if later.length < text.length then statements next later else none
        | none => none
termination_by text.length

/-- Reads a document. A byte order mark at its start does not count. -/
def read (text : String) : Option Value :=
  let characters :=
    match text.toList with
    | '\uFEFF' :: rest => rest
    | all => all
  (statements ⟨[], []⟩ characters).map fun entries => .record (Entries.fields entries)

end WorkspaceSync.Toml
