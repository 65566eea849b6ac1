/-
This file reads the scripts of `sed`, the tool that edits lines.

A script is a row of instructions, each for the lines that its selection picks.
Blocks and labels are instructions too, so that a script stays one row.
-/
import WorkspaceSync.Tool.Result

namespace WorkspaceSync.Tool.Editor

/-! ### Instructions -/

/-- A place among the lines. -/
inductive Mark where
  | number (line : Nat)
  | last
  | matching (pattern : Pattern)
  /-- A line and every so many lines behind it. -/
  | step (first distance : Nat)
  /-- So many lines behind the start of a range. -/
  | after (count : Nat)

/-- The lines that an instruction is for. -/
inductive Selection where
  | all
  | one (mark : Mark)
  | range (opening closing : Mark)

/-- A piece of a replacement. -/
inductive Piece where
  | bytes (bytes : Bytes)
  /-- What a group holds; group zero is the whole match. -/
  | group (index : Nat)

/-- A replacement of the matches in a line. -/
structure Substitution where
  pattern : Pattern
  replacement : List Piece
  /-- The first match that counts. -/
  occurrence : Nat
  /-- Whether those behind it count as well. -/
  everywhere : Bool
  /-- Whether the line is printed if there was one. -/
  print : Bool

/-- What an instruction does. -/
inductive Action where
  | substitute (substitution : Substitution)
  | mapBytes (table : List (UInt8 × UInt8))
  | delete
  /-- Deletes the first line of the space, and begins again with the rest. -/
  | deleteFirst
  | print
  | printFirst
  | lineNumber
  | quit (status : Nat)
  /-- Quits without printing the space. -/
  | leave (status : Nat)
  | next
  | nextJoined
  | hold
  | holdJoined
  | get
  | getJoined
  | exchange
  | insert (text : Bytes)
  | append (text : Bytes)
  | change (text : Bytes)
  | openBlock
  | closeBlock
  | label (name : List Char)
  | branch (name : List Char)
  /-- Branches if a match was replaced since the last line or branch. -/
  | branchIf (name : List Char)

/-- An instruction of a script. -/
structure Instruction where
  selection : Selection
  /-- Whether the instruction is for the lines that are not selected. -/
  isInverted : Bool
  action : Action

/-! ### Parts of instructions -/

/-- Reads a replacement. -/
def pieces : List Char → List Piece
  | [] => []
  | '\\' :: 'n' :: rest => .bytes [lineFeed] :: pieces rest
  | '\\' :: 't' :: rest => .bytes [0x09] :: pieces rest
  | '\\' :: next :: rest =>
    (if '0' ≤ next ∧ next ≤ '9' then Piece.group (next.toNat - '0'.toNat)
      else .bytes (bytesOf (String.singleton next))) :: pieces rest
  | '&' :: rest => .group 0 :: pieces rest
  | character :: rest => .bytes (bytesOf (String.singleton character)) :: pieces rest

/-- Cuts a text at the next delimiter without a backslash before it; none if there is none. A
delimiter with one stands for itself. -/
def untilDelimiter? (delimiter : Char) : List Char → Option (List Char × List Char)
  | [] => none
  | '\\' :: next :: rest =>
    (untilDelimiter? delimiter rest).map fun (taken, after) =>
      if next = delimiter then (next :: taken, after) else ('\\' :: next :: taken, after)
  | character :: rest =>
    if character = delimiter then some ([], rest)
    else (untilDelimiter? delimiter rest).map fun (taken, after) => (character :: taken, after)

/-- Cuts a row of digits off, if there is one. -/
def natural? (text : List Char) : Option (Nat × List Char) :=
  let digits := text.takeWhile Text.isAsciiDigit
  if digits.isEmpty then none else some (Text.decimalValue digits, text.drop digits.length)

/-- A pattern, which does not tell capital letters from small ones if the mark for that follows. -/
def patternBehind (dialect : Pattern.Dialect) (text rest : List Char) : Pattern × List Char :=
  match rest with
  | 'I' :: after => ((Pattern.read dialect text).caseless, after)
  | _ => (Pattern.read dialect text, rest)

/-- Reads a mark, if there is one. -/
def mark? (dialect : Pattern.Dialect) (text : List Char) : Option (Mark × List Char) :=
  match text with
  | '/' :: rest => do
    let (pattern, after) ← untilDelimiter? '/' rest
    let (read, behind) := patternBehind dialect pattern after
    some (.matching read, behind)
  | '\\' :: delimiter :: rest => do
    let (pattern, after) ← untilDelimiter? delimiter rest
    let (read, behind) := patternBehind dialect pattern after
    some (.matching read, behind)
  | '$' :: rest => some (.last, rest)
  | '+' :: rest => (natural? rest).map fun (count, after) => (.after count, after)
  | _ => do
    let (line, after) ← natural? text
    match after with
    | '~' :: distance =>
      (natural? distance).map fun (distance, behind) => (.step line distance, behind)
    | _ => some (.number line, after)

/-- Reads the selection of an instruction and what follows it. -/
def selection (dialect : Pattern.Dialect) (text : List Char) : Selection × List Char :=
  match mark? dialect text with
  | none => (.all, text)
  | some (first, after) =>
    match Text.trimStart after with
    | ',' :: rest =>
      match mark? dialect (Text.trimStart rest) with
      | some (closing, behind) => (.range first closing, behind)
      | none => (.one first, after)
    | _ => (.one first, after)

/-- A character that ends an instruction. -/
def endsInstruction (character : Char) : Bool :=
  [';', '\n', '\x7d'].contains character

/-- Reads the marks behind a substitution; none if one is not known. -/
def withFlags? (substitution : Substitution) (text : List Char) :
    Option (Substitution × List Char) :=
  match text with
  | [] => some (substitution, [])
  | first :: rest =>
    if endsInstruction first then some (substitution, first :: rest)
    else
      match first with
      | 'g' => withFlags? { substitution with everywhere := true } rest
      | 'p' => withFlags? { substitution with print := true } rest
      | 'I' | 'i' =>
        withFlags? { substitution with pattern := substitution.pattern.caseless } rest
      | ' ' => withFlags? substitution rest
      | _ =>
        if Text.isAsciiDigit first then
          let occurrence :=
            if substitution.occurrence = 0 then first.toNat - '0'.toNat
            else 10 * substitution.occurrence + (first.toNat - '0'.toNat)
          withFlags? { substitution with occurrence } rest
        else none

/-- The text of a line up to its end, where a backslash keeps the next character, also a line
end. -/
def lineText : List Char → List Char × List Char
  | [] => ([], [])
  | '\\' :: next :: rest =>
    let (text, after) := lineText rest
    (next :: text, after)
  | '\n' :: rest => ([], rest)
  | first :: rest =>
    let (text, after) := lineText rest
    (first :: text, after)

/-- Reads the text of an instruction that writes: behind blanks, or on the next line behind a
backslash. -/
def writtenText (text : List Char) : Bytes × List Char :=
  let start := text.dropWhile fun character => character == ' ' || character == '\t'
  let inner :=
    match start with
    | '\\' :: '\n' :: rest => rest
    | '\\' :: rest => rest.dropWhile fun character => character == ' ' || character == '\t'
    | other => other
  let (content, after) := lineText inner
  (bytesOf (String.ofList content) ++ [lineFeed], after)

/-- The name of a label. -/
def labelName (text : List Char) : List Char × List Char :=
  let start := text.dropWhile (· = ' ')
  let name := start.takeWhile fun character => !endsInstruction character && character != ' '
  (name, start.drop name.length)

/-- The bytes of a text in which escapes stand for a line end, a backslash or the delimiter. -/
def tableBytes : List Char → Bytes
  | '\\' :: 'n' :: rest => lineFeed :: tableBytes rest
  | '\\' :: '\\' :: rest => 0x5C :: tableBytes rest
  | first :: rest => bytesOf (String.singleton first) ++ tableBytes rest
  | [] => []

/-! ### Scripts -/

/-- Reads what an instruction does, and what follows it; none if it is not known. -/
def action? (dialect : Pattern.Dialect) (text : List Char) : Option (Action × List Char) :=
  match text with
  | 's' :: delimiter :: rest => do
    let (pattern, afterPattern) ← untilDelimiter? delimiter rest
    let (replacement, afterReplacement) ← untilDelimiter? delimiter afterPattern
    let (substitution, after) ←
      withFlags? ⟨Pattern.read dialect pattern, pieces replacement, 0, false, false⟩
        afterReplacement
    some (.substitute substitution, after)
  | 'y' :: delimiter :: rest => do
    let (source, afterSource) ← untilDelimiter? delimiter rest
    let (target, after) ← untilDelimiter? delimiter afterSource
    let sources := tableBytes source
    let targets := tableBytes target
    if sources.length = targets.length then some (.mapBytes (sources.zip targets), after) else none
  | 'd' :: rest => some (.delete, rest)
  | 'D' :: rest => some (.deleteFirst, rest)
  | 'p' :: rest => some (.print, rest)
  | 'P' :: rest => some (.printFirst, rest)
  | '=' :: rest => some (.lineNumber, rest)
  | 'n' :: rest => some (.next, rest)
  | 'N' :: rest => some (.nextJoined, rest)
  | 'h' :: rest => some (.hold, rest)
  | 'H' :: rest => some (.holdJoined, rest)
  | 'g' :: rest => some (.get, rest)
  | 'G' :: rest => some (.getJoined, rest)
  | 'x' :: rest => some (.exchange, rest)
  | 'q' :: rest =>
    match natural? (rest.dropWhile (· = ' ')) with
    | some (status, after) => some (.quit status, after)
    | none => some (.quit 0, rest)
  | 'Q' :: rest =>
    match natural? (rest.dropWhile (· = ' ')) with
    | some (status, after) => some (.leave status, after)
    | none => some (.leave 0, rest)
  | 'i' :: rest =>
    let (written, after) := writtenText rest
    some (.insert written, after)
  | 'a' :: rest =>
    let (written, after) := writtenText rest
    some (.append written, after)
  | 'c' :: rest =>
    let (written, after) := writtenText rest
    some (.change written, after)
  | '\x7b' :: rest => some (.openBlock, rest)
  | '\x7d' :: rest => some (.closeBlock, rest)
  | ':' :: rest =>
    let (name, after) := labelName rest
    some (.label name, after)
  | 'b' :: rest =>
    let (name, after) := labelName rest
    some (.branch name, after)
  | 't' :: rest =>
    let (name, after) := labelName rest
    some (.branchIf name, after)
  | _ => none

/-- Whether an action may be followed by another right away. -/
def Action.isOpen : Action → Bool
  | .openBlock | .insert _ | .append _ | .change _ => true
  | _ => false

/-- Whether what follows an instruction ends it. -/
def isEnded (action : Action) (after : List Char) : Bool :=
  action.isOpen ||
    (match after.dropWhile (· = ' ') with
      | [] => true
      | '#' :: _ => true
      | next :: _ => endsInstruction next)

/-- Reads the instructions of a script; none if there is one that is not known. -/
def instructions? (dialect : Pattern.Dialect) (text : List Char) : Option (List Instruction) :=
  match text with
  | [] => some []
  | first :: rest =>
    if first = ';' ∨ Text.isBlank first then instructions? dialect rest
    else if first = '#' then
      instructions? dialect (rest.drop (rest.takeWhile (· ≠ '\n')).length)
    else
      let (selection, afterSelection) := selection dialect (first :: rest)
      let (isInverted, inner) :=
        match Text.trimStart afterSelection with
        | '!' :: inner => (true, Text.trimStart inner)
        | inner => (false, inner)
      match action? dialect inner with
      | none => none
      | some (action, after) =>
        if isEnded action after ∧ after.length ≤ rest.length then
          (instructions? dialect after).map (⟨selection, isInverted, action⟩ :: ·)
        else none
termination_by text.length
decreasing_by all_goals (simp only [List.length_drop, List.length_cons]; omega)

end WorkspaceSync.Tool.Editor
