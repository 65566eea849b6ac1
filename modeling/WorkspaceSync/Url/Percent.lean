/-
This file writes characters as percent signs with two hexadecimal digits, and
reads them back.

Which characters are written that way depends on the place in the URL, so the
set of characters that stay is a parameter. Characters outside ASCII never
stay. Reading leaves a percent sign alone that two hexadecimal digits do not
follow.
-/
import WorkspaceSync.Text.Utf8

namespace WorkspaceSync.Percent

/-- The upper-case hexadecimal digit for a value below sixteen. -/
def hexDigit (value : Nat) : Char :=
  if value < 10 then Char.ofNat (0x30 + value) else Char.ofNat (0x37 + value)

/-- The value of a hexadecimal digit. -/
def hexValue? (code : Nat) : Option Nat :=
  if 0x30 ≤ code && code ≤ 0x39 then some (code - 0x30)
  else if 0x41 ≤ code && code ≤ 0x46 then some (code - 0x37)
  else if 0x61 ≤ code && code ≤ 0x66 then some (code - 0x57)
  else none

/-- The three characters for a byte. -/
def encodeByte (byte : UInt8) : List Char :=
  ['%', hexDigit (byte.toNat / 16), hexDigit (byte.toNat % 16)]

/-- The bytes of a text. -/
def bytesOf (characters : List Char) : List UInt8 :=
  (String.ofList characters).toUTF8.data.toList

/-- Writes a text; a character stays if it is ASCII, no control character, and not listed. -/
def encode (listed : List Char) (characters : List Char) : List Char :=
  characters.flatMap fun character =>
    if character.toNat < 0x20 || character.toNat ≥ 0x7F || listed.contains character then
      (bytesOf [character]).flatMap encodeByte
    else [character]

/-- Reads bytes back. -/
def decodeBytes : List UInt8 → List UInt8
  | 0x25 :: high :: low :: rest =>
    match hexValue? high.toNat, hexValue? low.toNat with
    | some first, some second => UInt8.ofNat (16 * first + second) :: decodeBytes rest
    | _, _ => 0x25 :: decodeBytes (high :: low :: rest)
  | byte :: rest => byte :: decodeBytes rest
  | [] => []

/-- Reads a text back. -/
def decode (characters : List Char) : List UInt8 :=
  decodeBytes (bytesOf characters)

end WorkspaceSync.Percent
