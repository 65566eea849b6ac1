/-
This file says what a text tool is: a function of its arguments and its input
that works on bytes, one byte a character.

Its result holds what it wrote to its two output channels, how it ended,
whether it read its input, and how long it took.
-/
import WorkspaceSync.Disk
import WorkspaceSync.Text.Digit
import WorkspaceSync.Tool.Pattern

namespace WorkspaceSync.Tool

/-- What a tool did. -/
structure Result where
  output : Bytes
  errors : Bytes
  status : Nat
  /-- Whether the input was read to its end. -/
  consumed : Bool
  /-- The time taken, in milliseconds. -/
  elapsed : Nat

/-- A result with some output and nothing else to say. -/
def Result.wrote (output : Bytes) : Result := ⟨output, [], 0, false, 0⟩

/-- The result of a tool that only ended. -/
def Result.ended (status : Nat) : Result := ⟨[], [], status, false, 0⟩

/-- A time that no limit allows, in milliseconds. -/
def forever : Nat := 1000000000

/-! ### Lines of bytes -/

/-- The line feed. -/
def lineFeed : UInt8 := 0x0A

/-- The lines of some bytes; the last one may lack its line feed, and then says so. -/
def linesOf : Bytes → List (Bytes × Bool)
  | [] => []
  | byte :: rest =>
    if byte = lineFeed then ([], true) :: linesOf rest
    else
      match linesOf rest with
      | [] => [([byte], false)]
      | (line, ended) :: later => (byte :: line, ended) :: later

/-- A line with its line feed, if it has one. -/
def closeLine (line : Bytes) (ended : Bool) : Bytes :=
  if ended then line ++ [lineFeed] else line

/-- A number in decimal digits. -/
def numberBytes (value : Nat) : Bytes := bytesOf (Text.decimalText value)

/-- A number with blanks before it up to a width. -/
def padded (width value : Nat) : Bytes :=
  let digits := numberBytes value
  List.replicate (width - digits.length) 0x20 ++ digits

/-! ### Arguments and files -/

/-- Whether an argument is a row of option letters. -/
def isOption (argument : String) : Bool :=
  match argument.toList with
  | '-' :: _ :: _ => true
  | _ => false

/-- What the arguments of a tool say. -/
structure Call where
  /-- The letters of the options without a value. -/
  letters : List Char
  /-- The options with a value. -/
  values : List (Char × String)
  words : List String

namespace Call

/-- Adds letters. -/
def withLetters (call : Call) (letters : List Char) : Call :=
  { call with letters := letters ++ call.letters }

/-- Adds an option with a value. -/
def withValue (call : Call) (letter : Char) (value : String) : Call :=
  { call with values := (letter, value) :: call.values }

/-- Whether an option is among the letters. -/
def has (call : Call) (letter : Char) : Bool :=
  call.letters.contains letter

/-- The values of an option. -/
def valuesOf (call : Call) (letter : Char) : List String :=
  (call.values.filter fun entry => entry.1 = letter).map Prod.snd

/-- Reads arguments. The listed letters take a value, in the same word or as the next; one of them
may wait for it. Behind `--` there are no options. -/
def readFrom (valued : List Char) (pending : Option Char) : List String → Call
  | [] => ⟨[], [], []⟩
  | argument :: rest =>
    match pending with
    | some letter => (readFrom valued none rest).withValue letter argument
    | none =>
      if argument = "--" then ⟨[], [], rest⟩
      else if isOption argument then
        let letters := argument.toList.drop 1
        let flags := letters.takeWhile (!valued.contains ·)
        match letters.drop flags.length with
        | [] => (readFrom valued none rest).withLetters letters
        | [letter] => (readFrom valued (some letter) rest).withLetters flags
        | letter :: value =>
          ((readFrom valued none rest).withValue letter (String.ofList value)).withLetters flags
      else
        let others := readFrom valued none rest
        { others with words := argument :: others.words }

/-- Reads arguments. -/
def read (valued : List Char) (arguments : List String) : Call :=
  readFrom valued none arguments

end Call

/-- The bytes of a file seen from a directory, or why there are none. -/
def fileBytes (disk : Disk) (directory : Path) (name : String) : Except DiskError Bytes :=
  match disk.entry (directory.join ⟨name⟩) with
  | .ok (.file content) => .ok content.toList
  | .ok (.directory _) => .error .isADirectory
  | .ok (.link _) => .error .tooManyLinks
  | .error error => .error error

/-- What a tool complains when a file cannot be read. -/
def complaint (tool name : String) (error : DiskError) : Bytes :=
  let reason := (error.message.toList.takeWhile (· ≠ '('))
  bytesOf (tool ++ ": " ++ name ++ ": " ++ String.ofList (Text.trimEnd reason) ++ "\n")

/-- The inputs of a tool: the named files, or else its own input. Each is the name, the bytes and
whether they are the tool's own input. -/
def inputs (disk : Disk) (directory : Path) (names : List String) (input : Bytes) :
    List (String × Except DiskError Bytes × Bool) :=
  if names.isEmpty then [("-", .ok input, true)]
  else
    names.map fun name =>
      if name = "-" then (name, .ok input, true) else (name, fileBytes disk directory name, false)

/-- Runs a tool over its inputs one after the other. -/
def overInputs (tool : String) (disk : Disk) (directory : Path) (names : List String)
    (input : Bytes) (work : String → Bytes → Bytes) : Result :=
  (inputs disk directory names input).foldl
    (fun result (name, content, own) =>
      match content with
      | .ok bytes =>
        { result with
          output := result.output ++ work name bytes
          consumed := result.consumed || own }
      | .error error =>
        { result with errors := result.errors ++ complaint tool name error, status := 1 })
    (.wrote [])

/-! ### Escapes -/

/-- The value of up to three octal digits, and how many there are. -/
def octal? (text : List Char) : Option (Nat × Nat) :=
  let digits := (text.take 3).takeWhile fun character => '0' ≤ character && character ≤ '7'
  if digits.isEmpty then none
  else
    some (digits.foldl (fun value digit => 8 * value + (digit.toNat - '0'.toNat)) 0, digits.length)

/-- The byte for a letter that follows a backslash. -/
def escapeByte? : Char → Option UInt8
  | 'a' => some 0x07
  | 'b' => some 0x08
  | 'f' => some 0x0C
  | 'n' => some 0x0A
  | 'r' => some 0x0D
  | 't' => some 0x09
  | 'v' => some 0x0B
  | '\\' => some 0x5C
  | _ => none

end WorkspaceSync.Tool
