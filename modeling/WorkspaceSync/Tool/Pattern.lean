/-
This file matches the basic and extended regular expressions of text tools
against rows of bytes.

A pattern is first cut into tokens, which are the same for both dialects, and
then put together with a stack of open groups. Matching lists all the ways in
which a pattern can match from a place on; of the matches that start leftmost,
the longest is the one that counts.
-/
import WorkspaceSync.Text.Blank

namespace WorkspaceSync.Tool

/-- Rows of bytes, as they pass between tools. -/
abbrev Bytes := List UInt8

/-- The bytes of a text. -/
def bytesOf (text : String) : Bytes := text.toUTF8.toList

/-! ### Patterns -/

/-- A set of bytes: some ranges, or everything outside of them. -/
structure ByteSet where
  ranges : List (UInt8 × UInt8)
  negated : Bool
  deriving DecidableEq, Repr

/-- Whether a byte is in a set. -/
def ByteSet.contains (set : ByteSet) (byte : UInt8) : Bool :=
  (set.ranges.any fun (first, last) => first ≤ byte && byte ≤ last) != set.negated

/-- A letter in its other case; any other byte is its own. -/
def otherCase (byte : UInt8) : UInt8 :=
  if 0x41 ≤ byte && byte ≤ 0x5A then byte + 0x20
  else if 0x61 ≤ byte && byte ≤ 0x7A then byte - 0x20
  else byte

/-- The set with both cases of each of its letters. -/
def ByteSet.caseless (set : ByteSet) : ByteSet :=
  let bytes := (List.range 256).map UInt8.ofNat
  let members := bytes.filter fun byte => set.contains byte || set.contains (otherCase byte)
  ⟨members.map fun byte => (byte, byte), false⟩

/-- A regular expression. -/
inductive Pattern where
  | empty
  | one (set : ByteSet)
  | lineStart
  | lineEnd
  | sequence (first second : Pattern)
  | choice (first second : Pattern)
  | repeated (body : Pattern) (least : Nat) (most : Option Nat)
  | group (index : Nat) (body : Pattern)
  | reference (index : Nat)
  deriving Repr

namespace Pattern

/-- The pattern that does not tell capital letters from small ones. -/
def caseless : Pattern → Pattern
  | .one set => .one set.caseless
  | .sequence first second => .sequence first.caseless second.caseless
  | .choice first second => .choice first.caseless second.caseless
  | .repeated body least most => .repeated body.caseless least most
  | .group index body => .group index body.caseless
  | other => other

/-! ### Matching -/

/-- A way to match so far: how much was passed, what is left, and what the groups hold. -/
structure Place where
  passed : Nat
  rest : Bytes
  groups : List (Nat × Bytes)

/-- What a group holds; nothing if it did not take part. -/
def Place.group (place : Place) (index : Nat) : Bytes :=
  ((place.groups.find? fun entry => entry.1 = index).map Prod.snd).getD []

/-- All ways to repeat a step, the longest first. A repetition that passes nothing ends the row. -/
def repeatFrom (step : Place → List Place) (least : Nat) (most : Option Nat) :
    Nat → Place → List Place
  | 0, place => if least = 0 then [place] else []
  | bound + 1, place =>
    let further :=
      if most = some 0 then []
      else
        (step place).flatMap fun next =>
          if next.rest.length < place.rest.length ∨ least > 0 then
            repeatFrom step (least - 1) (most.map (· - 1)) bound next
          else []
    if least = 0 then further ++ [place] else further

/-- All ways to match a pattern from a place on. -/
def run : Pattern → Place → List Place
  | .empty, place => [place]
  | .one set, place =>
    match place.rest with
    | byte :: rest =>
      if set.contains byte then [{ place with passed := place.passed + 1, rest }] else []
    | [] => []
  | .lineStart, place => if place.passed = 0 then [place] else []
  | .lineEnd, place => if place.rest.isEmpty then [place] else []
  | .sequence first second, place => (first.run place).flatMap second.run
  | .choice first second, place => first.run place ++ second.run place
  | .repeated body least most, place =>
    repeatFrom body.run least most (place.rest.length + least + 1) place
  | .group index body, place =>
    (body.run place).map fun next =>
      let held := place.rest.take (next.passed - place.passed)
      { next with groups := (index, held) :: next.groups.filter (·.1 ≠ index) }
  | .reference index, place =>
    let held := place.group index
    if held.isPrefixOf place.rest then
      [{ place with passed := place.passed + held.length, rest := place.rest.drop held.length }]
    else []

/-- The longest of some ways to match, the first of those that are equally long. -/
def longest : List Place → Option Place
  | [] => none
  | place :: others =>
    match longest others with
    | none => some place
    | some best => if best.rest.length < place.rest.length then some best else some place

/-- A match within a line: what precedes it, the match, and the place after it. -/
structure Match where
  before : Bytes
  matched : Bytes
  after : Place

/-- The leftmost match from a place on; `skipped` is what was passed over, reversed. -/
def search (pattern : Pattern) (passed : Nat) (skipped : Bytes) (rest : Bytes) : Option Match :=
  match longest (pattern.run ⟨passed, rest, []⟩) with
  | some after => some ⟨skipped.reverse, rest.take (after.passed - passed), after⟩
  | none =>
    match rest with
    | [] => none
    | byte :: later => pattern.search (passed + 1) (byte :: skipped) later

/-- Whether a pattern matches somewhere in a line. -/
def isIn (pattern : Pattern) (line : Bytes) : Bool :=
  (pattern.search 0 [] line).isSome

/-! ### Reading patterns -/

/-- How groups, alternatives and repetitions are spelled. -/
inductive Dialect where
  | basic
  | extended
  deriving DecidableEq, Repr

/-- A piece of a pattern. -/
inductive Token where
  | atom (pattern : Pattern)
  | times (least : Nat) (most : Option Nat)
  | opening
  | closing
  | bar

/-- The set of one byte. -/
def exactly (byte : UInt8) : Pattern := .one ⟨[(byte, byte)], false⟩

/-- The pattern of a character, byte by byte. -/
def literal (character : Char) : Pattern :=
  (bytesOf (String.singleton character)).foldr
    (fun byte rest => .sequence (exactly byte) rest) .empty

/-- The pattern of any byte. -/
def anyByte : Pattern := .one ⟨[], true⟩

/-- The bytes of a named class. -/
def classRanges (name : List Char) : List (UInt8 × UInt8) :=
  match String.ofList name with
  | "digit" => [(0x30, 0x39)]
  | "upper" => [(0x41, 0x5A)]
  | "lower" => [(0x61, 0x7A)]
  | "alpha" => [(0x41, 0x5A), (0x61, 0x7A)]
  | "alnum" => [(0x30, 0x39), (0x41, 0x5A), (0x61, 0x7A)]
  | "space" => [(0x09, 0x0D), (0x20, 0x20)]
  | "blank" => [(0x09, 0x09), (0x20, 0x20)]
  | "punct" => [(0x21, 0x2F), (0x3A, 0x40), (0x5B, 0x60), (0x7B, 0x7E)]
  | "xdigit" => [(0x30, 0x39), (0x41, 0x46), (0x61, 0x66)]
  | _ => []

/-- The byte of an ASCII character. -/
def byteOf (character : Char) : UInt8 := UInt8.ofNat character.toNat

/-- The ranges between square brackets, from behind the opening one, and what follows the closing
one. A closing bracket right at the start is a member. -/
def bracket (start : Bool) : List Char → List (UInt8 × UInt8) × List Char
  | [] => ([], [])
  | ']' :: rest => if start then addRange ']' ']' (bracket false rest) else ([], rest)
  | '[' :: ':' :: rest =>
    let name := rest.takeWhile (· ≠ ':')
    let (ranges, after) := bracket false (rest.drop (name.length + 2))
    (classRanges name ++ ranges, after)
  | first :: '-' :: ']' :: rest =>
    addRange first first (addRange '-' '-' (bracket false (']' :: rest)))
  | first :: '-' :: last :: rest => addRange first last (bracket false rest)
  | first :: rest =>
    let (ranges, after) := bracket false rest
    ((bytesOf (String.singleton first)).map (fun byte => (byte, byte)) ++ ranges, after)
termination_by text => text.length
decreasing_by all_goals (simp only [List.length_drop, List.length_cons]; omega)
where
  /-- Adds a range in front. -/
  addRange (first last : Char) (others : List (UInt8 × UInt8) × List Char) :
      List (UInt8 × UInt8) × List Char :=
    ((byteOf first, byteOf last) :: others.1, others.2)

/-- Reads the bounds of a repetition up to its closing mark. -/
def bounds (text : List Char) : Token :=
  let parts := List.splitOn ',' text
  let value (digits : List Char) : Nat :=
    digits.foldl (fun value digit => 10 * value + (digit.toNat - '0'.toNat)) 0
  match parts with
  | [exact] => .times (value exact) (some (value exact))
  | [least, []] => .times (value least) none
  | least :: most :: _ => .times (value least) (some (value most))
  | [] => .times 1 (some 1)

/-- The token for a character that follows a backslash. -/
def escaped (dialect : Dialect) (character : Char) : Token :=
  match character with
  | 'n' => .atom (literal '\n')
  | 't' => .atom (literal '\t')
  | 's' => .atom (.one ⟨classRanges "space".toList, false⟩)
  | 'S' => .atom (.one ⟨classRanges "space".toList, true⟩)
  | 'w' => .atom (.one ⟨(0x5F, 0x5F) :: classRanges "alnum".toList, false⟩)
  | 'W' => .atom (.one ⟨(0x5F, 0x5F) :: classRanges "alnum".toList, true⟩)
  | other =>
    if '1' ≤ other ∧ other ≤ '9' then .atom (.reference (other.toNat - '0'.toNat))
    else
      match dialect, other with
      | .basic, '(' => .opening
      | .basic, ')' => .closing
      | .basic, '|' => .bar
      | .basic, '+' => .times 1 none
      | .basic, '?' => .times 0 (some 1)
      | _, _ => .atom (literal other)

/-- Whether nothing stands before the next token within its alternative. -/
def atAlternativeStart : Option Token → Bool
  | none | some .opening | some .bar => true
  | _ => false

/-- Whether nothing follows within the alternative. -/
def atAlternativeEnd (dialect : Dialect) : List Char → Bool
  | [] => true
  | '\\' :: next :: _ => dialect = .basic && (next == ')' || next == '|')
  | next :: _ => dialect = .extended && (next == ')' || next == '|')

/-- The token that a pattern starts with, given the token before it, and how many characters it
takes beyond the first. -/
def token (dialect : Dialect) (previous : Option Token) (first : Char) (rest : List Char) :
    Token × Nat :=
  match first, rest with
  | '\\', '\x7b' :: inner =>
    if dialect = .basic then
      let text := inner.takeWhile (· ≠ '\\')
      (bounds text, text.length + 3)
    else (.atom (literal '\x7b'), 1)
  | '\\', next :: _ => (escaped dialect next, 1)
  | '[', '^' :: inner =>
    let (ranges, after) := bracket true inner
    (.atom (.one ⟨ranges, true⟩), rest.length - after.length)
  | '[', _ =>
    let (ranges, after) := bracket true rest
    (.atom (.one ⟨ranges, false⟩), rest.length - after.length)
  | '.', _ => (.atom anyByte, 0)
  | '*', _ => (if atAlternativeStart previous then .atom (literal '*') else .times 0 none, 0)
  | '^', _ =>
    let anchors := dialect = .extended || atAlternativeStart previous
    (.atom (if anchors then .lineStart else literal '^'), 0)
  | '$', _ =>
    let anchors := dialect = .extended || atAlternativeEnd dialect rest
    (.atom (if anchors then .lineEnd else literal '$'), 0)
  | character, _ =>
    match dialect, character with
    | .extended, '(' => (.opening, 0)
    | .extended, ')' => (.closing, 0)
    | .extended, '|' => (.bar, 0)
    | .extended, '+' => (.times 1 none, 0)
    | .extended, '?' => (.times 0 (some 1), 0)
    | .extended, '\x7b' =>
      let text := rest.takeWhile (· ≠ '\x7d')
      (bounds text, text.length + 1)
    | _, _ => (.atom (literal character), 0)

/-- Cuts a pattern into tokens; `previous` is the last one before it. -/
def tokens (dialect : Dialect) (previous : Option Token) (text : List Char) : List Token :=
  match text with
  | [] => []
  | first :: rest =>
    let (token, extra) := token dialect previous first rest
    token :: tokens dialect (some token) (rest.drop extra)
termination_by text.length
decreasing_by all_goals (simp only [List.length_drop, List.length_cons]; omega)

/-- A group that is still open: its number, the alternatives before the current one, and the parts
of the current one, the last first. -/
structure Frame where
  index : Nat
  alternatives : List Pattern
  parts : List Pattern

/-- The pattern of a frame. -/
def Frame.pattern (frame : Frame) : Pattern :=
  let last := frame.parts.foldl (fun rest part => .sequence part rest) .empty
  frame.alternatives.foldl (fun rest alternative => .choice alternative rest) last

/-- Puts tokens together. -/
def assemble (count : Nat) (frame : Frame) (outer : List Frame) : List Token → Pattern
  | [] =>
    (outer.foldl
      (fun inner frame => { frame with parts := .group inner.index inner.pattern :: frame.parts })
      frame).pattern
  | .atom pattern :: rest =>
    assemble count { frame with parts := pattern :: frame.parts } outer rest
  | .times least most :: rest =>
    match frame.parts with
    | part :: parts =>
      assemble count { frame with parts := .repeated part least most :: parts } outer rest
    | [] => assemble count frame outer rest
  | .bar :: rest =>
    let closed := frame.parts.foldl (fun rest part => .sequence part rest) .empty
    assemble count { frame with alternatives := closed :: frame.alternatives, parts := [] } outer
      rest
  | .opening :: rest => assemble (count + 1) ⟨count + 1, [], []⟩ (frame :: outer) rest
  | .closing :: rest =>
    match outer with
    | enclosing :: others =>
      let group := .group frame.index frame.pattern
      assemble count { enclosing with parts := group :: enclosing.parts } others rest
    | [] => assemble count frame [] rest

/-- Reads a pattern. -/
def read (dialect : Dialect) (text : List Char) : Pattern :=
  assemble 0 ⟨0, [], []⟩ [] (tokens dialect none text)

end Pattern

end WorkspaceSync.Tool
