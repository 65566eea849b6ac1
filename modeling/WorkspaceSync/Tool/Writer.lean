/-
This file holds the tools that write what they are told to: `cat`, `echo` and
`printf`, and beside them `sleep`, which writes nothing and takes its time.
-/
import WorkspaceSync.Tool.Result

namespace WorkspaceSync.Tool

/-! ### Copying -/

/-- Puts numbers before lines, or only before those that are not empty. -/
def numbered (skipsEmpty : Bool) (number : Nat) : List (Bytes × Bool) → List (Bytes × Bool)
  | [] => []
  | (line, ended) :: later =>
    if skipsEmpty && line.isEmpty && ended then (line, ended) :: numbered skipsEmpty number later
    else (padded 6 number ++ 0x09 :: line, ended) :: numbered skipsEmpty (number + 1) later

/-- Copies its inputs, with numbers before the lines and marks behind them if asked to. -/
def cat (disk : Disk) (directory : Path) (arguments : List String) (input : Bytes) : Result :=
  let call := Call.read [] arguments
  let copied := overInputs "cat" disk directory call.words input fun _ bytes => bytes
  let marked := (linesOf copied.output).map fun (line, ended) =>
    if call.has 'E' || call.has 'A' || call.has 'e' then
      (if ended then line ++ [0x24] else line, ended)
    else (line, ended)
  let lines :=
    if call.has 'b' then numbered true 1 marked
    else if call.has 'n' then numbered false 1 marked
    else marked
  { copied with output := lines.flatMap fun (line, ended) => closeLine line ended }

/-! ### Writing -/

/-- Replaces the escapes in a text; `\c` ends it, which the second part of the result says. -/
def unescape (text : List Char) : Bytes × Bool :=
  match text with
  | [] => ([], false)
  | '\\' :: 'c' :: _ => ([], true)
  | '\\' :: next :: rest =>
    match escapeByte? next with
    | some byte =>
      let (bytes, ended) := unescape rest
      (byte :: bytes, ended)
    | none =>
      let digits := ((next :: rest).take 4).takeWhile fun character =>
        '0' ≤ character && character ≤ '7'
      if digits.isEmpty then
        let (bytes, ended) := unescape (next :: rest)
        (0x5C :: bytes, ended)
      else
        let taken := if next = '0' then digits else digits.take 3
        let value := taken.foldl (fun value digit => 8 * value + (digit.toNat - '0'.toNat)) 0
        let (bytes, ended) := unescape (rest.drop (taken.length - 1))
        (UInt8.ofNat value :: bytes, ended)
  | character :: rest =>
    let (bytes, ended) := unescape rest
    (bytesOf (String.singleton character) ++ bytes, ended)
termination_by text.length
decreasing_by all_goals (simp only [List.length_drop, List.length_cons]; omega)

/-- The arguments with single blanks between them. -/
def spaced (arguments : List String) : String :=
  " ".intercalate arguments

/-- Writes its arguments and a line feed. As a command of its own it replaces escapes only after
`-e`. -/
def echo (arguments : List String) : Result :=
  let isFlag (argument : String) : Bool :=
    isOption argument && (argument.toList.drop 1).all fun letter => ['n', 'e', 'E'].contains letter
  let flags := (arguments.takeWhile isFlag).flatMap String.toList
  let text := spaced (arguments.dropWhile isFlag)
  let (bytes, ended) :=
    if flags.contains 'e' then unescape text.toList else (bytesOf text, false)
  .wrote (if ended || flags.contains 'n' then bytes else bytes ++ [lineFeed])

/-- Writes its arguments and a line feed. Within a shell it replaces escapes always. -/
def shellEcho (arguments : List String) : Result :=
  let silent := arguments.head? = some "-n"
  let (bytes, ended) := unescape (spaced (if silent then arguments.drop 1 else arguments)).toList
  .wrote (if ended || silent then bytes else bytes ++ [lineFeed])

/-! ### Formats -/

/-- A place in a format that an argument is put in. -/
structure Directive where
  /-- The marks before the width. -/
  flags : List Char
  width : Nat
  precision : Option Nat
  letter : Char

/-- Reads a directive from behind its percent sign, and how many characters it takes there. -/
def directive? (text : List Char) : Option (Directive × Nat) :=
  let flags := text.takeWhile fun character => ['-', '+', ' ', '0', '#'].contains character
  let afterFlags := text.drop flags.length
  let width := afterFlags.takeWhile Text.isAsciiDigit
  let afterWidth := afterFlags.drop width.length
  let (precision, length) : Option (List Char) × Nat :=
    match afterWidth with
    | '.' :: rest =>
      let digits := rest.takeWhile Text.isAsciiDigit
      (some digits, digits.length + 1)
    | _ => (none, 0)
  match afterWidth.drop length with
  | letter :: _ =>
    some (⟨flags, Text.decimalValue width, precision.map Text.decimalValue, letter⟩,
      flags.length + width.length + length + 1)
  | [] => none

/-- The number that an argument writes: in decimal digits, or the code of a quoted character. -/
def argumentNumber (argument : List Char) : Int :=
  match argument with
  | '\'' :: character :: _ => character.toNat
  | '"' :: character :: _ => character.toNat
  | '-' :: digits => -(Text.decimalValue (digits.takeWhile Text.isAsciiDigit) : Int)
  | '+' :: digits => Text.decimalValue (digits.takeWhile Text.isAsciiDigit)
  | digits => Text.decimalValue (digits.takeWhile Text.isAsciiDigit)

namespace Directive

/-- The digits of a number with its sign, and with zeros up to a width if asked to. -/
def numberText (directive : Directive) (base : Nat) (value : Int) : List Char :=
  let digits := Nat.toDigits base value.natAbs
  let least := directive.precision.getD 1
  let sign :=
    if value < 0 then ['-']
    else if directive.flags.contains '+' then ['+']
    else if directive.flags.contains ' ' then [' ']
    else []
  let isFilled :=
    directive.flags.contains '0' && !directive.flags.contains '-' && directive.precision.isNone
  let wanted := if isFilled then max least (directive.width - sign.length) else least
  sign ++ List.replicate (wanted - digits.length) '0' ++ digits

/-- The bytes of an argument, before they are brought to the width. -/
def body (directive : Directive) (argument : String) : Bytes :=
  let value := argumentNumber argument.toList
  let cut (bytes : Bytes) : Bytes := bytes.take (directive.precision.getD bytes.length)
  match directive.letter with
  | 's' => cut (bytesOf argument)
  | 'b' => cut (unescape argument.toList).1
  | 'c' => (bytesOf argument).take 1
  | 'o' => bytesOf (String.ofList (directive.numberText 8 value))
  | 'x' => bytesOf (String.ofList (directive.numberText 16 value))
  | 'X' => bytesOf (String.ofList ((directive.numberText 16 value).map Char.toUpper))
  | _ => bytesOf (String.ofList (directive.numberText 10 value))

/-- Writes an argument. -/
def write (directive : Directive) (argument : String) : Bytes :=
  let bytes := directive.body argument
  let fill := List.replicate (directive.width - bytes.length) 0x20
  if directive.flags.contains '-' then bytes ++ fill else fill ++ bytes

end Directive

/-- Writes a format once, with arguments in the places of its directives. The result also holds the
arguments that are left and whether the format has directives at all. -/
def format (text : List Char) (arguments : List String) : Bytes × List String × Bool :=
  match text with
  | [] => ([], arguments, false)
  | '%' :: '%' :: rest =>
    let (bytes, left, uses) := format rest arguments
    (0x25 :: bytes, left, uses)
  | '%' :: rest =>
    match directive? rest with
    | some (directive, length) =>
      let (bytes, left, _) := format (rest.drop length) (arguments.drop 1)
      (directive.write (arguments.head?.getD "") ++ bytes, left, true)
    | none => ([], arguments, false)
  | '\\' :: next :: rest =>
    match escapeByte? next, octal? (next :: rest) with
    | some byte, _ =>
      let (bytes, left, uses) := format rest arguments
      (byte :: bytes, left, uses)
    | none, some (value, count) =>
      let (bytes, left, uses) := format (rest.drop (count - 1)) arguments
      (UInt8.ofNat value :: bytes, left, uses)
    | none, none =>
      let (bytes, left, uses) := format (next :: rest) arguments
      (0x5C :: bytes, left, uses)
  | character :: rest =>
    let (bytes, left, uses) := format rest arguments
    (bytesOf (String.singleton character) ++ bytes, left, uses)
termination_by text.length
decreasing_by all_goals (simp only [List.length_drop, List.length_cons]; omega)

/-- Writes a format again and again until the arguments are used up. -/
def formatAll (text : List Char) (arguments : List String) : Bytes :=
  let (bytes, left, uses) := format text arguments
  if uses && !left.isEmpty && left.length < arguments.length then
    bytes ++ formatAll text left
  else bytes
termination_by arguments.length
decreasing_by simp_all

/-- Writes its arguments by a format. -/
def printf (arguments : List String) : Result :=
  match arguments with
  | [] => .ended 2
  | "--" :: text :: values => .wrote (formatAll text.toList values)
  | text :: values => .wrote (formatAll text.toList values)

/-! ### Waiting -/

/-- The milliseconds that a number of seconds, with an optional fraction and unit, stands for. -/
def duration? (text : List Char) : Option Nat :=
  let whole := text.takeWhile Text.isAsciiDigit
  let afterWhole := text.drop whole.length
  let (fraction, unit) :=
    match afterWhole with
    | '.' :: rest => (rest.takeWhile Text.isAsciiDigit, rest.dropWhile Text.isAsciiDigit)
    | _ => ([], afterWhole)
  let thousandths := Text.decimalValue ((fraction ++ ['0', '0', '0']).take 3)
  let value := 1000 * Text.decimalValue whole + thousandths
  if whole.isEmpty && fraction.isEmpty then none
  else
    match unit with
    | [] | ['s'] => some value
    | ['m'] => some (60 * value)
    | ['h'] => some (3600 * value)
    | _ => none

/-- Waits. -/
def sleep (arguments : List String) : Result :=
  match arguments.mapM fun argument => duration? argument.toList with
  | some (first :: others) => { Result.ended 0 with elapsed := others.foldl (· + ·) first }
  | _ => .ended 1

end WorkspaceSync.Tool
