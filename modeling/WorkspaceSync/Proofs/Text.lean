/-
This file says how texts are trimmed, cut into lines, measured and read as
numbers.

Trimming the end of a text reaches into its left part only past a right part
that is blank, and so a carriage return, which may be lost at the end of a line,
makes no difference to a trimmed line. Every line takes up some of the text, so
that neither the number of lines nor the width of one of them exceeds the width
of the text. Positions in a line count code units: a part of a line is the slice
of the line's units that begins where the text before the part ends. The first
unit of a character tells whether it is blank, so that the start of an indented
line never reads as the trimmed line. The bytes of texts are in the order of
their characters.
-/
import Mathlib.Data.List.Basic
import Mathlib.Data.List.DropRight
import WorkspaceSync.Text.Blank
import WorkspaceSync.Text.Digit
import WorkspaceSync.Text.Units

namespace WorkspaceSync.Text

/-! ### Rows of characters -/

/-- A row of characters of one kind ends where a character of another kind follows. -/
theorem takeWhile_append_stop {isKind : Char → Bool} {row rest : List Char}
    (all : ∀ character ∈ row, isKind character = true)
    (stop : ∀ character, rest.head? = some character → isKind character = false) :
    (row ++ rest).takeWhile isKind = row := by
  rw [List.takeWhile_append_of_pos all]
  cases rest with
  | nil => simp
  | cons character later => simp [stop character rfl]

theorem dropWhile_append_stop {isKind : Char → Bool} {row rest : List Char}
    (all : ∀ character ∈ row, isKind character = true)
    (stop : ∀ character, rest.head? = some character → isKind character = false) :
    (row ++ rest).dropWhile isKind = rest := by
  rw [List.dropWhile_append_of_pos all]
  cases rest with
  | nil => rfl
  | cons character later => simp [stop character rfl]

/-! ### Trimming -/

theorem trimEnd_eq_nil_iff {characters : List Char} :
    trimEnd characters = [] ↔ ∀ character ∈ characters, isBlank character = true :=
  List.rdropWhile_eq_nil_iff

theorem trimEnd_trimEnd (characters : List Char) :
    trimEnd (trimEnd characters) = trimEnd characters :=
  List.rdropWhile_idempotent isBlank characters

theorem length_trimEnd_le (characters : List Char) :
    (trimEnd characters).length ≤ characters.length :=
  (List.rdropWhile_prefix isBlank characters).length_le

theorem length_trim_le (characters : List Char) : (trim characters).length ≤ characters.length :=
  (length_trimEnd_le _).trans (List.dropWhile_suffix isBlank).length_le

/-- Trimming reaches into the left part only past a right part that is blank. -/
theorem trimEnd_append (left right : List Char) :
    trimEnd (left ++ right) =
      if trimEnd right = [] then trimEnd left else left ++ trimEnd right := by
  simp only [trimEnd, List.reverse_append, List.dropWhile_append, List.isEmpty_iff,
    List.reverse_eq_nil_iff]
  split
  · rfl
  · rw [List.reverse_append, List.reverse_reverse]

theorem trim_eq_nil_iff {characters : List Char} :
    trim characters = [] ↔ ∀ character ∈ characters, isBlank character = true := by
  rw [trim, trimEnd_eq_nil_iff, trimStart]
  constructor
  · intro blank character member
    rw [← List.takeWhile_append_dropWhile (p := isBlank) (l := characters)] at member
    rcases List.mem_append.mp member with inFirst | inRest
    · exact List.mem_takeWhile_imp inFirst
    · exact blank character inRest
  · intro blank character member
    exact blank character ((List.dropWhile_suffix _).subset member)

/-- Blanks at the end do not count for a trimmed text. -/
theorem trim_trimEnd (characters : List Char) : trim (trimEnd characters) = trim characters := by
  have blank : ∀ character ∈ characters.rtakeWhile isBlank, isBlank character = true :=
    fun _ => List.mem_rtakeWhile_imp
  have cut : trimEnd characters ++ characters.rtakeWhile isBlank = characters :=
    List.rdropWhile_append_rtakeWhile
  conv_rhs => rw [← cut]
  simp only [trim, trimStart, List.dropWhile_append, List.isEmpty_iff]
  split
  · next empty => rw [empty, List.dropWhile_eq_nil_iff.mpr blank]
  · rw [trimEnd_append, if_pos (trimEnd_eq_nil_iff.mpr blank)]

/-- What stands at the end of a trimmed text is not blank. -/
theorem trim_ne_nil_of_trimEnd_eq {characters before rest : List Char}
    (shape : trimEnd characters = before ++ rest) (nonempty : rest ≠ []) : trim rest ≠ [] := by
  intro blank
  rw [trim_eq_nil_iff, ← trimEnd_eq_nil_iff] at blank
  have trimmed := trimEnd_trimEnd characters
  rw [shape, trimEnd_append, if_pos blank] at trimmed
  have shorter := length_trimEnd_le before
  rw [trimmed, List.length_append] at shorter
  exact nonempty (List.eq_nil_of_length_eq_zero (by omega))

/-- A text consists of the blanks at its start, of what trimming leaves, and of more blanks. -/
theorem exists_trim_append (characters : List Char) :
    ∃ after, characters = characters.takeWhile isBlank ++ trim characters ++ after := by
  have cut : trim characters ++ (trimStart characters).rtakeWhile isBlank = trimStart characters :=
    List.rdropWhile_append_rtakeWhile
  refine ⟨(trimStart characters).rtakeWhile isBlank, ?_⟩
  rw [List.append_assoc, cut, trimStart, List.takeWhile_append_dropWhile]

/-- Nothing is trimmed at the start of a text that no blank opens. -/
theorem trimStart_eq_self_iff {characters : List Char} :
    trimStart characters = characters ↔ characters.takeWhile isBlank = [] := by
  have cut : characters.takeWhile isBlank ++ trimStart characters = characters :=
    List.takeWhile_append_dropWhile
  constructor
  · intro unindented
    rw [unindented] at cut
    exact List.append_left_eq_self.mp cut
  · intro noBlank
    rwa [noBlank, List.nil_append] at cut

/-- The first character that trimming leaves is not blank. -/
theorem isBlank_of_trim_eq_cons {characters later : List Char} {first : Char}
    (trimmed : trim characters = first :: later) : isBlank first = false := by
  have cut : trim characters ++ (trimStart characters).rtakeWhile isBlank =
      characters.dropWhile isBlank := List.rdropWhile_append_rtakeWhile
  have head : (characters.dropWhile isBlank).head? = some first := by
    rw [← cut, trimmed, List.cons_append, List.head?_cons]
  have stops := List.head?_dropWhile_not isBlank characters
  rw [head] at stops
  simpa using stops

/-! ### Lines -/

/-- A character that takes no part in a line end opens the first line of the rest. -/
theorem lines_cons {character : Char} {rest : List Char} (noFeed : character ≠ '\n')
    (noReturn : ∀ others, character = '\r' → rest ≠ '\n' :: others) :
    lines (character :: rest) =
      match lines rest with
      | [] => [[character]]
      | line :: later => (character :: line) :: later :=
  lines.eq_4 character rest noFeed noReturn

/-- A text without a line feed is one line. -/
theorem lines_of_no_newline {character : Char} {rest : List Char}
    (oneLine : '\n' ∉ character :: rest) : lines (character :: rest) = [character :: rest] := by
  induction rest generalizing character with
  | nil =>
    rw [lines_cons (fun feed => oneLine (feed ▸ List.mem_cons_self)) (by simp)]
    rfl
  | cons next others inductionHypothesis =>
    rw [List.mem_cons, not_or] at oneLine
    obtain ⟨noFeed, restOneLine⟩ := oneLine
    have noReturn (after : List Char) (_ : character = '\r')
        (shape : next :: others = '\n' :: after) : False :=
      restOneLine (shape ▸ List.mem_cons_self)
    rw [lines_cons (Ne.symm noFeed) noReturn, inductionHypothesis restOneLine]

/-- A line feed ends a line. A carriage return before it is lost, but that one is blank. -/
theorem lines_append_newline {first : List Char} (oneLine : '\n' ∉ first) (later : List Char) :
    ∃ line, lines (first ++ '\n' :: later) = line :: lines later ∧
      trimEnd line = trimEnd first := by
  induction first with
  | nil => exact ⟨[], rfl, rfl⟩
  | cons character rest inductionHypothesis =>
    rw [List.mem_cons, not_or] at oneLine
    obtain ⟨line, cut, same⟩ := inductionHypothesis oneLine.2
    by_cases ended : character = '\r' ∧ rest = []
    · obtain ⟨rfl, rfl⟩ := ended
      exact ⟨[], rfl, rfl⟩
    · have noReturn (others : List Char) (isReturn : character = '\r')
          (shape : rest ++ '\n' :: later = '\n' :: others) : False := by
        cases rest with
        | nil => exact ended ⟨isReturn, rfl⟩
        | cons next _ =>
          obtain ⟨rfl, -⟩ := List.cons.inj shape
          exact oneLine.2 List.mem_cons_self
      refine ⟨character :: line, ?_, ?_⟩
      · rw [List.cons_append, lines_cons (Ne.symm oneLine.1) noReturn, cut]
      · rw [← List.singleton_append, trimEnd_append, same, ← trimEnd_append, List.singleton_append]

theorem unitWidth_pos (character : Char) : 0 < unitWidth character := by
  unfold unitWidth
  split <;> decide

/-- There are no more lines than code units. -/
theorem length_lines_le (characters : List Char) :
    (lines characters).length ≤ width characters := by
  fun_induction lines characters with
  | case1 => simp
  | case2 rest inductionHypothesis =>
    have := unitWidth_pos '\n'
    simp only [List.length_cons, width_cons]
    omega
  | case3 rest inductionHypothesis =>
    have := unitWidth_pos '\n'
    simp only [List.length_cons, width_cons]
    omega
  | case4 character rest _ _ none _ =>
    have := unitWidth_pos character
    simp only [List.length_cons, List.length_nil, width_cons]
    omega
  | case5 character rest _ _ line later equal inductionHypothesis =>
    rw [equal, List.length_cons] at inductionHypothesis
    simp only [List.length_cons, width_cons]
    omega

/-- Trimming makes no text wider. -/
theorem width_trim_le (characters : List Char) : width (trim characters) ≤ width characters := by
  obtain ⟨after, shape⟩ := exists_trim_append characters
  have whole := congrArg width shape
  rw [width_append, width_append] at whole
  omega

/-- A line is no wider than its text. -/
theorem width_le_of_mem_lines {characters line : List Char} (member : line ∈ lines characters) :
    width line ≤ width characters := by
  fun_induction lines characters generalizing line with
  | case1 => exact absurd member List.not_mem_nil
  | case2 rest inductionHypothesis =>
    rw [width_cons]
    rcases List.mem_cons.mp member with rfl | inRest
    · simp
    · have := inductionHypothesis inRest
      omega
  | case3 rest inductionHypothesis =>
    simp only [width_cons]
    rcases List.mem_cons.mp member with rfl | inRest
    · simp
    · have := inductionHypothesis inRest
      omega
  | case4 character rest _ _ none _ =>
    rw [List.mem_singleton.mp member, width_cons, width_cons, width_nil]
    omega
  | case5 character rest _ _ first later equal inductionHypothesis =>
    rw [equal] at inductionHypothesis
    rw [width_cons]
    rcases List.mem_cons.mp member with rfl | inLater
    · have := inductionHypothesis List.mem_cons_self
      rw [width_cons]
      omega
    · have := inductionHypothesis (List.mem_cons_of_mem _ inLater)
      omega

/-! ### Code units -/

/-- The UTF-16 code units of a character: its code, or a pair of surrogates outside the basic
plane. -/
def unitsOf (character : Char) : List UInt16 :=
  if character.toNat < 0x10000 then [UInt16.ofNat character.toNat]
  else
    [UInt16.ofNat (0xD800 + (character.toNat - 0x10000) / 0x400),
      UInt16.ofNat (0xDC00 + (character.toNat - 0x10000) % 0x400)]

/-- The UTF-16 code units of a text. -/
def units (characters : List Char) : List UInt16 :=
  characters.flatMap unitsOf

theorem units_append (left right : List Char) : units (left ++ right) = units left ++ units right :=
  List.flatMap_append

/-- The width of a text is the number of its code units. -/
theorem length_units (characters : List Char) : (units characters).length = width characters := by
  induction characters with
  | nil => rfl
  | cons character rest inductionHypothesis =>
    rw [units, List.flatMap_cons, List.length_append, ← units, inductionHypothesis, width_cons]
    unfold unitsOf unitWidth
    split <;> rfl

/-- The part of a text between two others is found by counting code units. -/
theorem units_slice (before part after : List Char) :
    ((units (before ++ part ++ after)).drop (width before)).take (width part) = units part := by
  rw [List.append_assoc, units_append, units_append, ← length_units, ← length_units,
    List.drop_left, List.take_left]

/-- A text of ASCII characters has as many code units as characters. -/
theorem width_eq_length {characters : List Char}
    (basic : ∀ character ∈ characters, character.toNat < 0x10000) :
    width characters = characters.length := by
  induction characters with
  | nil => rfl
  | cons character rest inductionHypothesis =>
    obtain ⟨here, restBasic⟩ := List.forall_mem_cons.mp basic
    rw [width_cons, List.length_cons, inductionHypothesis restBasic, unitWidth, if_pos here,
      Nat.add_comm]

/-- Blanks lie far below the surrogates. -/
theorem toNat_le_of_isBlank {character : Char} (blank : isBlank character = true) :
    character.toNat ≤ 0x3000 := by
  simp only [isBlank, Bool.or_eq_true, Bool.and_eq_true, decide_eq_true_eq, beq_iff_eq] at blank
  omega

theorem head?_units_cons (character : Char) (rest : List Char) :
    (units (character :: rest)).head? = (unitsOf character).head? := by
  rw [units, List.flatMap_cons, List.head?_append_of_ne_nil]
  unfold unitsOf
  split <;> simp

/-- The first code unit of a character tells whether the character is blank. -/
theorem isBlank_of_head?_unitsOf {left right : Char} (blank : isBlank left = true)
    (same : (unitsOf left).head? = (unitsOf right).head?) : isBlank right = true := by
  have leftLow := toNat_le_of_isBlank blank
  have rightBound : right.toNat < 0x110000 :=
    right.valid.elim (fun low => low.trans (by decide)) And.right
  have size : UInt16.size = 0x10000 := rfl
  unfold unitsOf at same
  rw [if_pos (by omega)] at same
  split at same
  · next basic =>
    have sameUnit := congrArg UInt16.toNat (Option.some.inj same)
    rw [UInt16.toNat_ofNat_of_lt' (by omega), UInt16.toNat_ofNat_of_lt' basic] at sameUnit
    unfold isBlank at blank ⊢
    rwa [← sameUnit]
  · -- The first unit of a pair is a surrogate.
    have sameUnit := congrArg UInt16.toNat (Option.some.inj same)
    rw [UInt16.toNat_ofNat_of_lt' (by omega), UInt16.toNat_ofNat_of_lt' (by omega)] at sameUnit
    omega

/-- The start of a line reads as the trimmed line if and only if nothing is trimmed there. -/
theorem take_units_eq_trim_iff {line : List Char} (said : trim line ≠ []) :
    (units line).take (width (trim line)) = units (trim line) ↔ trimStart line = line := by
  obtain ⟨after, shape⟩ := exists_trim_append line
  rw [trimStart_eq_self_iff]
  constructor
  · intro same
    cases indent : line.takeWhile isBlank with
    | nil => rfl
    | cons blank others =>
      -- A blank opens the line, and none opens the trimmed text.
      obtain ⟨first, later, trimmed⟩ := List.exists_cons_of_ne_nil said
      have opens : isBlank blank = true := List.mem_takeWhile_imp (indent ▸ List.mem_cons_self)
      have wide : width (trim line) ≠ 0 := by
        have := unitWidth_pos first
        rw [trimmed, width_cons]
        omega
      rw [indent, List.cons_append, List.cons_append] at shape
      have heads := congrArg List.head? same
      rw [List.head?_take, if_neg wide, trimmed, head?_units_cons, shape, head?_units_cons] at heads
      have alsoBlank := isBlank_of_head?_unitsOf opens heads
      rw [isBlank_of_trim_eq_cons trimmed] at alsoBlank
      exact absurd alsoBlank Bool.false_ne_true
  · intro unindented
    have slice := units_slice [] (trim line) after
    rw [unindented] at shape
    rwa [← shape] at slice

/-! ### Numbers -/

/-- A row of ASCII digits that writes a number of an unsigned 32-bit word. -/
structure IsWord (row : List Char) : Prop where
  digits : ∀ digit ∈ row, digit.isDigit = true
  fits : Nat.ofDigitChars 10 row 0 ≤ 4294967295

instance (row : List Char) : Decidable (IsWord row) :=
  decidable_of_iff (row.all Char.isDigit = true ∧ Nat.ofDigitChars 10 row 0 ≤ 4294967295)
    ⟨fun both => ⟨List.all_eq_true.mp both.1, both.2⟩,
      fun word => ⟨List.all_eq_true.mpr word.digits, word.fits⟩⟩

theorem word32?_eq_some_iff {row : List Char} {word : UInt32} :
    word32? row = some word ↔
      row ≠ [] ∧ IsWord row ∧ word = UInt32.ofNat (Nat.ofDigitChars 10 row 0) := by
  have value : decimalValue row = Nat.ofDigitChars 10 row 0 := rfl
  have isWord : (row.all isAsciiDigit = true ∧ decimalValue row < wordBound) ↔ IsWord row := by
    rw [List.all_eq_true, value, wordBound, Nat.lt_succ_iff]
    exact ⟨fun both => ⟨both.1, both.2⟩, fun word => ⟨word.digits, word.fits⟩⟩
  rw [word32?, Option.ite_none_right_eq_some, isWord, value, Option.some.injEq, and_assoc,
    @eq_comm _ word]

/-- The digits of a number that fits a word are a word. -/
theorem isWord_toDigits {number : Nat} (fits : number ≤ 4294967295) :
    IsWord (Nat.toDigits 10 number) := by
  refine ⟨fun _ => Nat.isDigit_of_mem_toDigits (by decide) (by decide), ?_⟩
  rwa [Nat.ofDigitChars_toDigits (by decide) (by decide)]

/-! ### Bytes -/

/-- The bytes of a text are those of its characters. -/
theorem data_toUTF8 (text : String) :
    text.toUTF8.data.toList = text.toList.flatMap String.utf8EncodeChar := by
  obtain ⟨characters, rfl⟩ : ∃ characters, text = String.ofList characters :=
    ⟨text.toList, String.ofList_toList.symm⟩
  rw [String.toUTF8_eq_toByteArray, String.toByteArray_ofList, List.utf8Encode,
    List.data_toByteArray, String.toList_ofList]

/-- The bytes of a lower character come before those of a higher one, whatever follows them. -/
theorem utf8EncodeChar_append_lt {left right : Char} (less : left < right)
    (before after : List UInt8) :
    String.utf8EncodeChar left ++ before < String.utf8EncodeChar right ++ after := by
  have codes : left.val.toNat < right.val.toNat := less
  have bound : right.val.toNat < 0x110000 := by
    rcases right.valid with low | high
    · exact Nat.lt_trans low (by decide)
    · exact high.2
  unfold String.utf8EncodeChar
  generalize left.val.toNat = low at codes ⊢
  generalize right.val.toNat = high at codes bound ⊢
  -- A longer row has a higher first byte. Rows of one length hold the digits of the codes to the
  -- base 64, the highest first.
  simp only
  split_ifs <;> try omega
  all_goals
    simp (disch := omega) only [List.cons_append, List.nil_append, List.cons_lt_cons_iff,
      UInt8.lt_iff_toNat_lt, ← UInt8.toNat_inj, UInt8.toNat_ofNat', Nat.mod_eq_of_lt,
      Nat.add_lt_add_iff_right, Nat.add_right_cancel_iff]
    omega

theorem flatMap_utf8EncodeChar_lt {left right : List Char} (less : left < right) :
    left.flatMap String.utf8EncodeChar < right.flatMap String.utf8EncodeChar := by
  induction left generalizing right with
  | nil =>
    cases right with
    | nil => exact absurd less (List.lt_irrefl [])
    | cons first later =>
      rw [List.flatMap_cons, List.flatMap_nil]
      cases bytes : String.utf8EncodeChar first with
      | nil => exact absurd bytes (by simp)
      | cons byte others => exact List.nil_lt_cons byte _
  | cons leftFirst leftLater inductionHypothesis =>
    cases right with
    | nil => exact absurd less (List.not_lt_nil _)
    | cons rightFirst rightLater =>
      rw [List.flatMap_cons, List.flatMap_cons]
      rcases List.cons_lt_cons_iff.mp less with lessFirst | ⟨rfl, lessLater⟩
      · exact utf8EncodeChar_append_lt lessFirst _ _
      · exact List.append_left_lt (inductionHypothesis lessLater)

/-- A text whose first byte is a slash begins with a slash. -/
theorem head?_of_data_toUTF8 {text : String} {later : List UInt8}
    (bytes : text.toUTF8.data.toList = 0x2F :: later) : text.toList.head? = some '/' := by
  have slash : String.utf8EncodeChar '/' ++ later = 0x2F :: later := rfl
  rw [data_toUTF8] at bytes
  cases shape : text.toList with
  | nil =>
    rw [shape, List.flatMap_nil] at bytes
    exact nomatch bytes
  | cons first rest =>
    rw [shape, List.flatMap_cons, ← slash] at bytes
    rw [List.head?_cons, Option.some_inj]
    -- Any other character would put the bytes into an order.
    rcases Nat.lt_trichotomy first.val.toNat '/'.val.toNat with below | equal | above
    · have less := utf8EncodeChar_append_lt below (rest.flatMap String.utf8EncodeChar) later
      rw [bytes] at less
      exact absurd less (List.lt_irrefl _)
    · exact Char.ext (UInt32.toNat.inj equal)
    · have less := utf8EncodeChar_append_lt above later (rest.flatMap String.utf8EncodeChar)
      rw [bytes] at less
      exact absurd less (List.lt_irrefl _)

end WorkspaceSync.Text
