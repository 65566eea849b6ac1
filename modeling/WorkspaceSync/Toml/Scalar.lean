/-
This file recognises the values of a TOML document that are written without
quotes: truth values, numbers, dates and times.

Integers have to fit the widest machine words, and a float that is not written
as an infinity must not round to one. Dates have to exist, and the seconds of a
time may be left out.
-/
import WorkspaceSync.Text.Blank
import WorkspaceSync.Text.Digit
import WorkspaceSync.Url.Percent
import WorkspaceSync.Value

namespace WorkspaceSync.Toml

/-! ### Digits -/

/-- A digit of a base. -/
def isDigitOf (base : Nat) (character : Char) : Bool :=
  (Percent.hexValue? character.toNat).any (· < base)

/-- The digits of a row in which single underscores stand between digits; none if it is no such
row. -/
def digits? (base : Nat) (text : List Char) : Option (List Char) :=
  let groups := List.splitOn '_' text
  if groups.all fun group => !group.isEmpty && group.all (isDigitOf base) then some groups.flatten
  else none

/-- The value of a row of digits. -/
def valueOf (base : Nat) (digits : List Char) : Nat :=
  digits.foldl (fun value digit => base * value + (Percent.hexValue? digit.toNat).getD 0) 0

/-- Cuts an optional sign off. -/
def sign : List Char → Option Char × List Char
  | '+' :: rest => (some '+', rest)
  | '-' :: rest => (some '-', rest)
  | text => (none, text)

/-! ### Numbers -/

/-- The least number that an unsigned word of 128 bits cannot hold. -/
def wideBound : Nat := Nat.pow 2 128

/-- Whether a text writes an integer that fits a word of 128 bits. -/
def isInteger (text : List Char) : Bool :=
  match text with
  | '0' :: 'x' :: rest => (digits? 16 rest).any fun digits => valueOf 16 digits < wideBound
  | '0' :: 'o' :: rest => (digits? 8 rest).any fun digits => valueOf 8 digits < wideBound
  | '0' :: 'b' :: rest => (digits? 2 rest).any fun digits => valueOf 2 digits < wideBound
  | _ =>
    let (sign, body) := sign text
    match digits? 10 body with
    | none => false
    | some digits =>
      (digits.length = 1 || digits.head? != some '0') &&
        (if sign = some '-' then 2 * valueOf 10 digits ≤ wideBound
        else valueOf 10 digits < wideBound)

/-- Whether `mantissa * 10 ^ exponent` rounds to a finite double. -/
def isFinite (mantissa : Nat) (exponent : Int) : Bool :=
  let size := (Nat.toDigits 10 mantissa).length
  if mantissa = 0 then true
  else if exponent + size ≤ 300 then true
  else if exponent + size > 400 then false
  else
    let bound := Nat.pow 2 1024 - Nat.pow 2 970
    match exponent with
    | .ofNat power => mantissa * Nat.pow 10 power < bound
    | .negSucc power => mantissa < bound * Nat.pow 10 (power + 1)

/-- Cuts a text at the first character of a kind; the second part is none if there is no such
character. -/
def cut (isMark : Char → Bool) (text : List Char) : List Char × Option (List Char) :=
  match text.dropWhile (!isMark ·) with
  | _ :: rest => (text.takeWhile (!isMark ·), some rest)
  | [] => (text, none)

/-- Whether a text writes a float. -/
def isFloat (text : List Char) : Bool :=
  let (_, body) := sign text
  if body = "inf".toList ∨ body = "nan".toList then true
  else
    let (number, power) := cut (fun character => character == 'e' || character == 'E') body
    let (whole, fraction) := cut (· == '.') number
    let powerValue? : Option Int :=
      match power with
      | none => some 0
      | some written =>
        let (direction, amount) := sign written
        (digits? 10 amount).map fun digits =>
          if direction = some '-' then -(valueOf 10 digits : Int) else valueOf 10 digits
    let fraction? : Option (List Char) :=
      match fraction with
      | none => some []
      | some written => digits? 10 written
    match digits? 10 whole, fraction?, powerValue? with
    | some wholeDigits, some fractionDigits, some exponent =>
      (power.isSome || fraction.isSome) &&
        (wholeDigits.length = 1 || wholeDigits.head? != some '0') &&
        isFinite (valueOf 10 (wholeDigits ++ fractionDigits)) (exponent - fractionDigits.length)
    | _, _, _ => false

/-! ### Dates and times -/

/-- The value of a row of exactly so many ASCII digits. -/
def fixed? (count : Nat) (text : List Char) : Option Nat :=
  if text.length = count ∧ text.all Text.isAsciiDigit then some (Text.decimalValue text) else none

/-- The number of days of a month. -/
def daysIn (year month : Nat) : Nat :=
  if month = 2 then
    if (year % 4 = 0 ∧ year % 100 ≠ 0) ∨ year % 400 = 0 then 29 else 28
  else if month = 4 ∨ month = 6 ∨ month = 9 ∨ month = 11 then 30
  else 31

/-- Whether a text is a date that exists. -/
def isDate (text : List Char) : Bool :=
  match List.splitOn '-' text with
  | [year, month, day] =>
    match fixed? 4 year, fixed? 2 month, fixed? 2 day with
    | some year, some month, some day =>
      1 ≤ month && month ≤ 12 && 1 ≤ day && day ≤ daysIn year month
    | _, _, _ => false
  | _ => false

/-- Whether a text is a time of day, with or without seconds. -/
def isTime (text : List Char) : Bool :=
  let (clock, fraction) := cut (· == '.') text
  let fractionIsDigits := fraction.all fun digits => !digits.isEmpty && digits.all Text.isAsciiDigit
  match List.splitOn ':' clock with
  | [hour, minute] =>
    fraction.isNone && (fixed? 2 hour).any (· ≤ 23) && (fixed? 2 minute).any (· ≤ 59)
  | [hour, minute, second] =>
    fractionIsDigits && (fixed? 2 hour).any (· ≤ 23) && (fixed? 2 minute).any (· ≤ 59) &&
      (fixed? 2 second).any (· ≤ 60)
  | _ => false

/-- Whether a text is a time with an optional offset from universal time. -/
def isOffsetTime (text : List Char) : Bool :=
  match text.reverse with
  | 'Z' :: rest | 'z' :: rest => isTime rest.reverse
  | _ =>
    match cut (fun character => character == '+' || character == '-') text with
    | (time, some offset) =>
      isTime time &&
        (match List.splitOn ':' offset with
          | [hour, minute] => (fixed? 2 hour).any (· ≤ 23) && (fixed? 2 minute).any (· ≤ 59)
          | _ => false)
    | (time, none) => isTime time

/-- Whether a text is a date, a time, or both with a mark between them. -/
def isMoment (text : List Char) : Bool :=
  let date := text.take 10
  match text.drop 10 with
  | [] => isDate date || isTime text
  | mark :: time =>
    (isDate date && ['T', 't', ' '].contains mark && isOffsetTime time) || isTime text

/-- The value that is written by a text without quotes. -/
def scalar? (text : List Char) : Option Value :=
  if text = "true".toList then some (.bool true)
  else if text = "false".toList then some (.bool false)
  else if isInteger text || isFloat text then some (.number (String.ofList text))
  else if isMoment text then some (.moment (String.ofList text))
  else none

end WorkspaceSync.Toml
