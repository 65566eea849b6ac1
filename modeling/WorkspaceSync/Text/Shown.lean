/-
This file shows a text inside an error message: between double quotes, with
escapes for quotes, backslashes and control characters.
-/

namespace WorkspaceSync.Text

/-- The lower-case hexadecimal digits of a number. -/
def hexText (number : Nat) : List Char :=
  Nat.toDigits 16 number

/-- A control character. -/
def isControl (character : Char) : Bool :=
  character.toNat < 0x20 || (0x7F ≤ character.toNat && character.toNat < 0xA0)

/-- A character as it is shown. -/
def shownCharacter (character : Char) : List Char :=
  match character with
  | '"' => ['\\', '"']
  | '\\' => ['\\', '\\']
  | '\n' => ['\\', 'n']
  | '\r' => ['\\', 'r']
  | '\t' => ['\\', 't']
  | other =>
    if other.toNat = 0 then ['\\', '0']
    else if isControl other then '\\' :: 'u' :: '\x7b' :: hexText other.toNat ++ ['\x7d']
    else [other]

/-- A text as it is shown. -/
def shown (text : String) : String :=
  String.ofList ('"' :: text.toList.flatMap shownCharacter ++ ['"'])

end WorkspaceSync.Text
