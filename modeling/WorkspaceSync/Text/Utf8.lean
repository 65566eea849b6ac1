/-
This file decodes bytes as UTF-8 and puts the replacement character where that
is not possible.

Of a sequence that breaks off or goes wrong, the longest part that could still
have become a character is replaced by one replacement character, and decoding
goes on behind it.
-/

namespace WorkspaceSync.Text

/-- What stands for bytes that are no text. -/
def replacement : Char := '\uFFFD'

/-- The number of bytes that must follow a first byte, and the range of the first of them. -/
def sequenceOf? (first : UInt8) : Option (Nat × UInt8 × UInt8) :=
  if first < 0x80 then some (0, 0, 0)
  else if 0xC2 ≤ first && first ≤ 0xDF then some (1, 0x80, 0xBF)
  else if first == 0xE0 then some (2, 0xA0, 0xBF)
  else if first == 0xED then some (2, 0x80, 0x9F)
  else if 0xE1 ≤ first && first ≤ 0xEF then some (2, 0x80, 0xBF)
  else if first == 0xF0 then some (3, 0x90, 0xBF)
  else if 0xF1 ≤ first && first ≤ 0xF3 then some (3, 0x80, 0xBF)
  else if first == 0xF4 then some (3, 0x80, 0x8F)
  else none

/-- The bits that a first byte contributes to its character. -/
def leadBits (first : UInt8) (following : Nat) : Nat :=
  match following with
  | 0 => first.toNat
  | 1 => first.toNat % 0x20
  | 2 => first.toNat % 0x10
  | _ => first.toNat % 0x08

/-- The code of a character from the bits gathered so far and the bytes that continue it. -/
def gather (bits : Nat) (bytes : List UInt8) : Nat :=
  bytes.foldl (fun value byte => value * 0x40 + byte.toNat % 0x40) bits

/-- The longest row of at most `count` bytes that continues a sequence whose second byte has to lie
in the given range. -/
def continuing (count : Nat) (low high : UInt8) : List UInt8 → List UInt8
  | [] => []
  | byte :: rest =>
    match count with
    | 0 => []
    | remaining + 1 =>
      if low ≤ byte && byte ≤ high then byte :: continuing remaining 0x80 0xBF rest else []

/-- Decodes bytes, with a replacement character for each part that is no text. -/
def decodeLossy (bytes : List UInt8) : List Char :=
  match bytes with
  | [] => []
  | first :: rest =>
    match sequenceOf? first with
    | none => replacement :: decodeLossy rest
    | some (following, low, high) =>
      let taken := continuing following low high rest
      let character :=
        if taken.length = following then Char.ofNat (gather (leadBits first following) taken)
        else replacement
      character :: decodeLossy (rest.drop taken.length)
termination_by bytes.length
decreasing_by all_goals (simp only [List.length_drop, List.length_cons]; omega)

end WorkspaceSync.Text
