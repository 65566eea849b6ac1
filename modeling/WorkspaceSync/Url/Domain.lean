/-
This file brings domain names to the form in which they are compared: lower
case, with labels outside ASCII written in their ASCII form.

Of the forms that a character may have for the sake of compatibility, those of
full width are brought to the plain one. The others are left as they are.

The ASCII form of a label lists its ASCII characters and then, in ascending
order of the others, how far each of them is from the one before. The distances
are written in base thirty-six with thresholds that adapt to their size.
-/
import WorkspaceSync.Text.Blank
import WorkspaceSync.Text.Utf8

namespace WorkspaceSync.Domain

/-! ### Labels -/

/-- The threshold of a digit in the ASCII form of a label. -/
def threshold (place bias : Nat) : Nat :=
  if place ≤ bias then 1 else if bias + 26 ≤ place then 26 else place - bias

/-- The bias once `delta` is written, after `count` characters. -/
def biasAfter (delta count : Nat) (first : Bool) : Nat :=
  let start := if first then delta / 700 else delta / 2
  reduce (start + start / count) 0
where
  /-- Divides until the rest is small. -/
  reduce (delta bias : Nat) : Nat :=
    if delta > 455 then reduce (delta / 35) (bias + 36) else bias + 36 * delta / (delta + 38)
  termination_by delta

/-- The character for a digit of the ASCII form. -/
def digit (value : Nat) : Char :=
  if value < 26 then Char.ofNat (0x61 + value) else Char.ofNat (0x16 + value)

/-- The value of a digit of the ASCII form. -/
def digitValue? (character : Char) : Option Nat :=
  let code := character.toNat
  if 0x61 ≤ code && code ≤ 0x7A then some (code - 0x61)
  else if 0x30 ≤ code && code ≤ 0x39 then some (code - 0x16)
  else none

/-- The digits of a number whose thresholds depend on the bias. -/
def digits (rest place bias : Nat) : List Char :=
  let limit := threshold place bias
  if rest < limit then [digit rest]
  else
    digit (limit + (rest - limit) % (36 - limit)) ::
      digits ((rest - limit) / (36 - limit)) (place + 36) bias
termination_by rest
decreasing_by
  rename_i notBelow
  have positive : 1 ≤ limit := by
    show 1 ≤ threshold place bias
    unfold threshold
    split
    · exact Nat.le_refl 1
    · split <;> omega
  exact Nat.lt_of_le_of_lt (Nat.div_le_self _ _) (by omega)

/-- What was written so far of the ASCII form of a label. -/
structure Coding where
  written : List Char
  delta : Nat
  bias : Nat
  count : Nat
  first : Bool

/-- Writes all occurrences of one character of the label. -/
def writeCode (label : List Nat) (previous code : Nat) (state : Coding) :
    Coding :=
  let start := { state with delta := state.delta + (code - previous) * (state.count + 1) }
  let after := label.foldl
    (fun state character =>
      if character < code then { state with delta := state.delta + 1 }
      else if character = code then
        { written := state.written ++ digits state.delta 36 state.bias
          delta := 0
          bias := biasAfter state.delta (state.count + 1) state.first
          count := state.count + 1
          first := false }
      else state)
    start
  { after with delta := after.delta + 1 }

/-- The ASCII form of a label, without its mark. -/
def coded (label : List Char) : List Char :=
  let codes := label.map Char.toNat
  let basic := label.filter (·.toNat < 0x80)
  let others := ((codes.filter (· ≥ 0x80)).mergeSort (· ≤ ·)).eraseDups
  let head := if basic.isEmpty then [] else basic ++ ['-']
  let (_, final) := others.foldl
    (fun (previous, state) code =>
      (code + 1, writeCode codes previous code state))
    (0x80,
      { written := head, delta := 0, bias := 72, count := basic.length, first := true : Coding })
  final.written

/-- Whether a text is the ASCII form of some label: a row of digits in which every number ends. -/
def isCoded (text : List Char) : Bool :=
  let digits := match (List.splitOn '-' text).reverse with
    | last :: _ => last
    | [] => []
  !digits.isEmpty && digits.all fun character => (digitValue? character).isSome

/-! ### Names -/

/-- A character of a domain name in the form in which names are compared; nothing for one that does
not count. -/
def mapDomainCharacter (character : Char) : List Char :=
  let code := character.toNat
  if 0x41 ≤ code && code ≤ 0x5A then [Char.ofNat (code + 0x20)]
  else if code == 0xAD || code == 0x200B || code == 0x2060 || code == 0xFEFF then []
  else if 0xFE00 ≤ code && code ≤ 0xFE0F then []
  else if code == 0x3002 || code == 0xFF0E || code == 0xFF61 then ['.']
  else if 0xFF21 ≤ code && code ≤ 0xFF3A then [Char.ofNat (code - 0xFEC0)]
  else if 0xFF01 ≤ code && code ≤ 0xFF5E then [Char.ofNat (code - 0xFEE0)]
  else if (0xC0 ≤ code && code ≤ 0xDE && code != 0xD7) then [Char.ofNat (code + 0x20)]
  else if 0x391 ≤ code && code ≤ 0x3AB then [Char.ofNat (code + 0x20)]
  else if 0x410 ≤ code && code ≤ 0x42F then [Char.ofNat (code + 0x20)]
  else if 0x400 ≤ code && code ≤ 0x40F then [Char.ofNat (code + 0x50)]
  else if code == 0x17F then ['s']
  else if code == 0x212A then ['k']
  else if 0x80 ≤ code && Text.isBlank character then [' ']
  else [character]

/-- A character that a domain name cannot have. -/
def isForbidden (character : Char) : Bool :=
  character.toNat ≤ 0x20 || character.toNat == 0x7F || character == Text.replacement ||
    ['#', '%', '/', ':', '<', '>', '?', '@', '[', '\\', ']', '^', '|'].contains character

/-- The ASCII form of a label. -/
def asciiLabel? (label : List Char) : Option (List Char) :=
  if label.all (·.toNat < 0x80) then
    match List.isPrefixOf? ['x', 'n', '-', '-'] label with
    | none => some label
    | some body => if isCoded body then some label else none
  else some (['x', 'n', '-', '-'] ++ coded label)

/-- The ASCII form of a domain name. -/
def ascii? (name : List Char) : Option (List Char) := do
  let mapped := name.flatMap mapDomainCharacter
  guard (!mapped.any isForbidden)
  let labels ← (List.splitOn '.' mapped).mapM asciiLabel?
  some (List.intercalate ['.'] labels)

end WorkspaceSync.Domain
