/-
This file reads and writes numeric network addresses.

An IPv4 address has up to four parts, each in base ten, eight or sixteen; the
last part fills all the bytes that the others leave. An IPv6 address has eight
groups, of which one row of zeros may be left out, and may end in a dotted IPv4
address.
-/
import WorkspaceSync.Text.Digit
import WorkspaceSync.Url.Percent

namespace WorkspaceSync.Address

/-! ### Numbers in other bases -/

/-- The value of a row of digits below a base, if all of them are such digits. -/
def numberIn? (base : Nat) (digits : List Char) : Option Nat :=
  digits.foldlM
    (fun value digit =>
      (Percent.hexValue? digit.toNat).bind fun worth =>
        if worth < base then some (base * value + worth) else none)
    0

/-- The digits of a number in base sixteen, in lower case. -/
def hexText (value : Nat) : List Char :=
  Nat.toDigits 16 value

/-! ### IPv4 addresses -/

/-- The value of one part of an address: decimal, octal after a `0`, hexadecimal after `0x`. -/
def ipv4Part? : List Char → Option Nat
  | [] => none
  | '0' :: 'x' :: digits => numberIn? 16 digits
  | '0' :: 'X' :: digits => numberIn? 16 digits
  | '0' :: next :: digits => numberIn? 8 (next :: digits)
  | digits => numberIn? 10 digits

/-- The parts of a name, without an empty one at its end. -/
def partsOf (name : List Char) : List (List Char) :=
  match (List.splitOn '.' name).reverse with
  | [] :: rest => rest.reverse
  | parts => parts.reverse

/-- Whether a name has to be an IPv4 address. -/
def endsInNumber (name : List Char) : Bool :=
  match (partsOf name).getLast? with
  | none => false
  | some last => (!last.isEmpty && last.all Text.isAsciiDigit) || (ipv4Part? last).isSome

/-- Reads an IPv4 address. -/
def ipv4? (name : List Char) : Option Nat := do
  let numbers ← (partsOf name).mapM ipv4Part?
  let last ← numbers.getLast?
  let others := numbers.dropLast
  guard (others.length ≤ 3 ∧ others.all (· ≤ 255) ∧ last < Nat.pow 256 (4 - others.length))
  some (others.zipIdx.foldl
    (fun sum (number, index) => sum + number * Nat.pow 256 (3 - index)) last)

/-- The text of an IPv4 address. -/
def ipv4Text (address : Nat) : List Char :=
  List.intercalate ['.'] ([3, 2, 1, 0].map fun index =>
    (Text.decimalText (address / Nat.pow 256 index % 256)).toList)

/-! ### IPv6 addresses -/

/-- One group of an address: one to four hexadecimal digits. -/
def ipv6Group? (digits : List Char) : Option (List Nat) :=
  if digits.length = 0 ∨ digits.length > 4 then none else (numberIn? 16 digits).map ([·])

/-- The two groups that a dotted IPv4 address fills at the end of an IPv6 address. -/
def ipv6Tail? (text : List Char) : Option (List Nat) := do
  let parts := List.splitOn '.' text
  guard (parts.length = 4)
  let numbers ← parts.mapM fun part =>
    if part.isEmpty ∨ part.length > 3 ∨ (part.length > 1 ∧ part.head? = some '0') then none
    else numberIn? 10 part
  guard (numbers.all (· ≤ 255))
  match numbers with
  | [first, second, third, fourth] => some [256 * first + second, 256 * third + fourth]
  | _ => none

/-- A row of groups between colons; a dotted tail is allowed if `last` says so. -/
def ipv6Groups? (last : Bool) (text : List Char) : Option (List Nat) :=
  if text.isEmpty then some []
  else
    let parts := List.splitOn ':' text
    (parts.zipIdx.mapM fun ((part, index) : List Char × Nat) =>
      if last && index + 1 == parts.length && part.contains '.' then ipv6Tail? part
      else ipv6Group? part).map List.flatten

/-- Cuts a text at its first double colon. -/
def cutDoubleColon? (before : List Char) : List Char → Option (List Char × List Char)
  | ':' :: ':' :: rest => some (before.reverse, rest)
  | character :: rest => cutDoubleColon? (character :: before) rest
  | [] => none

/-- Reads an IPv6 address. -/
def ipv6? (text : List Char) : Option (List Nat) :=
  match cutDoubleColon? [] text with
  | none => do
    let groups ← ipv6Groups? true text
    guard (groups.length = 8)
    some groups
  | some (left, right) => do
    let before ← ipv6Groups? false left
    let after ← ipv6Groups? true right
    guard (before.length + after.length ≤ 7)
    some (before ++ List.replicate (8 - before.length - after.length) 0 ++ after)

/-- The length of the row of zeros that a list starts with. -/
def zeroRun (groups : List Nat) : Nat :=
  (groups.takeWhile (· = 0)).length

/-- The first of the longest rows of at least two zeros: where it starts and how long it is. -/
def longestZeroRun? (groups : List Nat) : Option (Nat × Nat) :=
  (List.range groups.length).foldl
    (fun best start =>
      let run := zeroRun (groups.drop start)
      if run ≥ 2 && run > (best.map Prod.snd).getD 0 then some (start, run) else best)
    none

/-- The text of an IPv6 address, with the longest row of zeros left out. -/
def ipv6Text (groups : List Nat) : List Char :=
  let write (part : List Nat) := List.intercalate [':'] (part.map hexText)
  match longestZeroRun? groups with
  | none => write groups
  | some (start, run) =>
    write (groups.take start) ++ [':', ':'] ++ write (groups.drop (start + run))

end WorkspaceSync.Address
