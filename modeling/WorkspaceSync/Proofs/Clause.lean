/-
This file proves that reading a header accepts exactly the clause grammar and
points at the name.

A clause line has five parts around its keyword: an indentation, a gap, a name,
some space and a comment. Each part ends where a character of another kind
begins, so that a line has these parts in at most one way, and the dissection
of a line finds them whenever they are there. The first significant line of a
text is the one that the search over the numbered lines stops at. The positions
that are reported fit their words, since neither the number of a line nor a
column on it exceeds the width of the whole text.
-/
import Mathlib.Data.List.Basic
import Mathlib.Data.List.TakeWhile
import Mathlib.Tactic.Tauto
import WorkspaceSync.Clause
import WorkspaceSync.Proofs.Text

namespace WorkspaceSync

namespace Clause

/-! ### The grammar -/

/-- The parts of a clause line around its keyword. -/
structure Parts where
  /-- The blanks before the keyword. -/
  indent : List Char
  /-- The blanks between the keyword and the name. -/
  gap : List Char
  name : List Char
  /-- The blanks after the name. -/
  space : List Char
  comment : List Char
  deriving DecidableEq

/-- A letter or an underscore, then letters, digits and underscores, all of them ASCII. -/
def IsIdentifier : List Char → Prop
  | [] => False
  | first :: later =>
    (first.isAlpha ∨ first = '_') ∧ ∀ character ∈ later, character.isAlphanum ∨ character = '_'

namespace Parts

/-- What stands before the name. -/
def before (parts : Parts) : List Char :=
  parts.indent ++ keyword ++ parts.gap

/-- The line that consists of the parts. -/
def line (parts : Parts) : List Char :=
  parts.before ++ parts.name ++ (parts.space ++ parts.comment)

/-- The parts are of the kinds that the grammar asks for. -/
structure Valid (parts : Parts) : Prop where
  indent : ∀ character ∈ parts.indent, Text.isBlank character = true
  gap : ∀ character ∈ parts.gap, Text.isBlank character = true
  parted : parts.gap ≠ []
  name : IsIdentifier parts.name
  space : ∀ character ∈ parts.space, Text.isBlank character = true
  comment : parts.comment = [] ∨ ['/', '/'] <+: parts.comment

end Parts

/-! ### Kinds of characters -/

theorem isNameStart_iff (character : Char) :
    isNameStart character = true ↔ character.isAlpha = true ∨ character = '_' := by
  have letter : character.isAlpha = (decide ('A' ≤ character ∧ character ≤ 'Z') ||
      decide ('a' ≤ character) && decide (character ≤ 'z')) := rfl
  simp only [isNameStart, letter, Bool.or_eq_true, Bool.and_eq_true, decide_eq_true_eq,
    beq_iff_eq]

theorem isNamePart_iff (character : Char) :
    isNamePart character = true ↔ character.isAlphanum = true ∨ character = '_' := by
  have digit : Text.isAsciiDigit character = character.isDigit := rfl
  have either : character.isAlphanum = (character.isAlpha || character.isDigit) := rfl
  simp only [isNamePart, either, Bool.or_eq_true, isNameStart_iff, digit]
  tauto

theorem isNamePart_of_isNameStart {character : Char} (start : isNameStart character = true) :
    isNamePart character = true := by
  rw [isNamePart, start, Bool.true_or]

/-- The characters of names lie between the digits and the small letters. -/
theorem toNat_of_isNamePart {character : Char} (part : isNamePart character = true) :
    0x30 ≤ character.toNat ∧ character.toNat ≤ 0x7A := by
  simp only [isNamePart, isNameStart, Text.isAsciiDigit, Bool.or_eq_true, Bool.and_eq_true,
    decide_eq_true_eq, Char.le_def, UInt32.le_iff_toNat_le, beq_iff_eq] at part
  rcases part with ((capital | small) | rfl) | digit
  · change 0x41 ≤ character.toNat ∧ character.toNat ≤ 0x5A at capital
    omega
  · change 0x61 ≤ character.toNat ∧ character.toNat ≤ 0x7A at small
    omega
  · decide
  · change 0x30 ≤ character.toNat ∧ character.toNat ≤ 0x39 at digit
    omega

theorem isBlank_of_isNamePart {character : Char} (part : isNamePart character = true) :
    Text.isBlank character = false := by
  obtain ⟨low, high⟩ := toNat_of_isNamePart part
  simp only [Text.isBlank, Bool.or_eq_false_iff, Bool.and_eq_false_iff, decide_eq_false_iff_not,
    beq_eq_false_iff_ne]
  omega

theorem isNamePart_of_isBlank {character : Char} (blank : Text.isBlank character = true) :
    isNamePart character = false := by
  cases part : isNamePart character with
  | false => rfl
  | true =>
    rw [isBlank_of_isNamePart part] at blank
    exact absurd blank Bool.false_ne_true

/-- An identifier opens with a name's first character and goes on with the others. -/
theorem isIdentifier_iff (name : List Char) :
    IsIdentifier name ↔
      name.head?.any isNameStart = true ∧ ∀ character ∈ name, isNamePart character = true := by
  cases name with
  | nil => simp [IsIdentifier]
  | cons first later =>
    simp only [IsIdentifier, List.head?_cons, Option.any_some, List.forall_mem_cons,
      isNameStart_iff, isNamePart_iff]
    constructor
    · rintro ⟨start, others⟩
      exact ⟨start, (isNamePart_iff first).mp
        (isNamePart_of_isNameStart ((isNameStart_iff first).mpr start)), others⟩
    · rintro ⟨start, -, others⟩
      exact ⟨start, others⟩

theorem startsComment_iff (characters : List Char) :
    startsComment characters = true ↔ ['/', '/'] <+: characters :=
  List.isPrefixOf_iff_prefix

/-! ### One way to take a line apart -/

namespace Parts

variable {parts : Parts}

/-- The first character of a comment is neither blank nor part of a name. -/
theorem Valid.head?_comment (valid : parts.Valid) {character : Char}
    (first : parts.comment.head? = some character) : character = '/' := by
  rcases valid.comment with none | ⟨later, equal⟩
  · rw [none] at first
    exact absurd first (by simp)
  · rw [← equal] at first
    exact (Option.some.inj first).symm

/-- What follows the name does not go on with it. -/
theorem Valid.name_ends (valid : parts.Valid) {character : Char}
    (first : (parts.space ++ parts.comment).head? = some character) :
    isNamePart character = false := by
  cases space : parts.space with
  | nil =>
    rw [space, List.nil_append] at first
    rw [valid.head?_comment first]
    decide
  | cons blank later =>
    rw [space] at first
    obtain rfl : blank = character := Option.some.inj first
    exact isNamePart_of_isBlank (valid.space blank (space ▸ List.mem_cons_self))

/-- What follows the blanks after the name is not blank. -/
theorem Valid.space_ends (valid : parts.Valid) {character : Char}
    (first : parts.comment.head? = some character) : Text.isBlank character = false := by
  rw [valid.head?_comment first]
  decide

/-- What follows the gap is not blank. -/
theorem Valid.gap_ends (valid : parts.Valid) {later : List Char} {character : Char}
    (first : (parts.name ++ later).head? = some character) : Text.isBlank character = false := by
  obtain ⟨start, others⟩ := (isIdentifier_iff parts.name).mp valid.name
  cases name : parts.name with
  | nil =>
    rw [name] at start
    exact absurd start (by simp)
  | cons initial rest =>
    rw [name] at first
    obtain rfl : initial = character := Option.some.inj first
    exact isBlank_of_isNamePart (others initial (name ▸ List.mem_cons_self))

/-- The keyword ends the indentation. -/
theorem indent_ends {later : List Char} {character : Char}
    (first : (keyword ++ later).head? = some character) : Text.isBlank character = false := by
  obtain rfl : 'p' = character := Option.some.inj first
  decide

/-- The dissection of a clause line finds its parts. -/
theorem Valid.dissect?_line (valid : parts.Valid) :
    dissect? parts.line = some (parts.before, parts.name, parts.space ++ parts.comment) := by
  obtain ⟨start, others⟩ := (isIdentifier_iff parts.name).mp valid.name
  have shape : parts.line = parts.indent ++
      (keyword ++ (parts.gap ++ (parts.name ++ (parts.space ++ parts.comment)))) := by
    simp only [line, before, List.append_assoc]
  have ending : parts.comment = [] ∨ startsComment parts.comment = true := by
    rw [startsComment_iff]
    exact valid.comment
  have afterKeyword : List.isPrefixOf? keyword
      (keyword ++ (parts.gap ++ (parts.name ++ (parts.space ++ parts.comment)))) =
        some (parts.gap ++ (parts.name ++ (parts.space ++ parts.comment))) :=
    List.isPrefixOf?_eq_some_iff_append_eq.mpr rfl
  unfold dissect?
  rw [shape, Text.takeWhile_append_stop valid.indent fun _ => indent_ends,
    Text.dropWhile_append_stop valid.indent fun _ => indent_ends, afterKeyword]
  simp only [Option.bind_eq_bind, Option.bind_some]
  rw [Text.takeWhile_append_stop valid.gap fun _ => valid.gap_ends,
    Text.dropWhile_append_stop valid.gap fun _ => valid.gap_ends,
    Text.takeWhile_append_stop others fun _ => valid.name_ends,
    Text.dropWhile_append_stop others fun _ => valid.name_ends,
    Text.dropWhile_append_stop valid.space fun _ => valid.space_ends,
    if_pos ⟨valid.parted, start, ending⟩]
  rfl

/-- A line is a clause in at most one way. -/
theorem Valid.eq_of_line_eq {other : Parts} (valid : parts.Valid) (otherValid : other.Valid)
    (sameLine : parts.line = other.line) : parts = other := by
  have same := congrArg dissect? sameLine
  rw [valid.dissect?_line, otherValid.dissect?_line, Option.some.injEq, Prod.mk.injEq,
    Prod.mk.injEq] at same
  obtain ⟨sameBefore, sameName, sameRest⟩ := same
  have sameIndent : parts.indent = other.indent := by
    have taken := congrArg (List.takeWhile Text.isBlank) sameBefore
    rwa [before, before, List.append_assoc, List.append_assoc,
      Text.takeWhile_append_stop valid.indent fun _ => indent_ends,
      Text.takeWhile_append_stop otherValid.indent fun _ => indent_ends] at taken
  have sameGap : parts.gap = other.gap := by
    rw [before, before, sameIndent] at sameBefore
    exact List.append_cancel_left sameBefore
  have sameSpace : parts.space = other.space := by
    have taken := congrArg (List.takeWhile Text.isBlank) sameRest
    rwa [Text.takeWhile_append_stop valid.space fun _ => valid.space_ends,
      Text.takeWhile_append_stop otherValid.space fun _ => otherValid.space_ends] at taken
  have sameComment : parts.comment = other.comment := by
    rw [sameSpace] at sameRest
    exact List.append_cancel_left sameRest
  obtain ⟨indent, gap, name, space, comment⟩ := parts
  simp_all

theorem Valid.name_ne_nil (valid : parts.Valid) : parts.name ≠ [] := by
  intro empty
  have start := ((isIdentifier_iff parts.name).mp valid.name).1
  rw [empty] at start
  exact absurd start (by simp)

/-- A name is as wide as it is long. -/
theorem Valid.width_name (valid : parts.Valid) : Text.width parts.name = parts.name.length := by
  obtain ⟨-, others⟩ := (isIdentifier_iff parts.name).mp valid.name
  refine Text.width_eq_length fun character member => ?_
  have := toNat_of_isNamePart (others character member)
  omega

end Parts

/-- A line that can be dissected is a clause line. -/
theorem exists_parts_of_dissect? {line before name rest : List Char}
    (dissected : dissect? line = some (before, name, rest)) :
    ∃ parts : Parts, parts.Valid ∧ parts.line = line := by
  unfold dissect? at dissected
  simp only [Option.bind_eq_bind, Option.bind_eq_some_iff] at dissected
  obtain ⟨afterKeyword, found, dissected⟩ := dissected
  split at dissected
  · next conditions =>
    obtain ⟨parted, start, ending⟩ := conditions
    rw [startsComment_iff] at ending
    let fromName := afterKeyword.dropWhile Text.isBlank
    let after := fromName.dropWhile isNamePart
    refine ⟨⟨line.takeWhile Text.isBlank, afterKeyword.takeWhile Text.isBlank,
      fromName.takeWhile isNamePart, after.takeWhile Text.isBlank, after.dropWhile Text.isBlank⟩,
      ⟨fun _ => List.mem_takeWhile_imp, fun _ => List.mem_takeWhile_imp, parted,
        (isIdentifier_iff _).mpr ⟨start, fun _ => List.mem_takeWhile_imp⟩,
        fun _ => List.mem_takeWhile_imp, ending⟩, ?_⟩
    have keywordFollows := List.append_eq_of_isPrefixOf?_eq_some found
    calc Parts.line _
        = line.takeWhile Text.isBlank ++ (keyword ++ afterKeyword) := by
          simp only [Parts.line, Parts.before, List.append_assoc, List.takeWhile_append_dropWhile,
            after, fromName]
      _ = line := by rw [keywordFollows, List.takeWhile_append_dropWhile]
  · exact absurd dissected (by simp)

/-- A line that is no clause cannot be dissected. -/
theorem dissect?_eq_none {line : List Char}
    (none : ¬ ∃ parts : Parts, parts.Valid ∧ parts.line = line) : dissect? line = .none := by
  cases dissected : dissect? line with
  | none => rfl
  | some found => exact absurd (exists_parts_of_dissect? dissected) none

end Clause

namespace Span

/-! ### Places on a line -/

/-- A span lies on one line, between two columns. -/
structure Covers (span : Span) (number first last : Nat) : Prop where
  startLine : span.startLine.toNat = number
  startColumn : span.startColumn.toNat = first
  endLine : span.endLine.toNat = number
  endColumn : span.endColumn.toNat = last

/-- The code units of a line between the columns of a span. -/
def unitsOn (span : Span) (line : List Char) : List UInt16 :=
  ((Text.units line).drop span.startColumn.toNat).take
    (span.endColumn.toNat - span.startColumn.toNat)

theorem Covers.unitsOn_eq {span : Span} {number first last : Nat}
    (covers : span.Covers number first last) (line : List Char) :
    span.unitsOn line = ((Text.units line).drop first).take (last - first) := by
  rw [unitsOn, covers.startColumn, covers.endColumn]

/-- Where the line and the last column fit their words, so does the whole range. -/
theorem covers_onLine {number column length : Nat} (numberFits : number < UInt32.size)
    (columnsFit : column + length < UInt32.size) :
    (onLine (UInt32.ofNat number) (UInt32.ofNat column) (UInt32.ofNat length)).Covers number column
      (column + length) := by
  have numberIs : (UInt32.ofNat number).toNat = number := UInt32.toNat_ofNat_of_lt' numberFits
  have columnIs : (UInt32.ofNat column).toNat = column :=
    UInt32.toNat_ofNat_of_lt' (Nat.lt_of_le_of_lt (Nat.le_add_right _ _) columnsFit)
  have lengthIs : (UInt32.ofNat length).toNat = length :=
    UInt32.toNat_ofNat_of_lt' (Nat.lt_of_le_of_lt (Nat.le_add_left _ _) columnsFit)
  refine ⟨numberIs, columnIs, numberIs, ?_⟩
  rw [onLine, UInt32.toNat_add, columnIs, lengthIs, Nat.mod_eq_of_lt columnsFit]

end Span

namespace Header

/-! ### The first significant line -/

/-- A line that says something: not blank, and not only a comment. -/
def Significant (line : List Char) : Prop :=
  Text.trim line ≠ [] ∧ ¬ ['/', '/'] <+: Text.trim line

instance (line : List Char) : Decidable (Significant line) :=
  inferInstanceAs (Decidable (_ ∧ _))

/-- The line with the given number is the first significant line of a text. -/
structure FirstSignificant (text : String) (number : Nat) (line : List Char) : Prop where
  there : (Text.lines text.toList)[number]? = some line
  significant : Significant line
  earlier : ∀ other ∈ (Text.lines text.toList).take number, ¬ Significant other

theorem isSignificant_iff (line : List Char) : isSignificant line = true ↔ Significant line := by
  simp only [isSignificant, Significant, Bool.and_eq_true, Bool.not_eq_true',
    List.isEmpty_eq_false_iff, ← Clause.startsComment_iff, Bool.not_eq_true, ne_eq]

/-- The search passes over every line that says nothing. -/
theorem ofLines_append {skipped : List (List Char)} (none : ∀ line ∈ skipped, ¬ Significant line)
    (number : Nat) (later : List (List Char)) :
    ofLines number (skipped ++ later) = ofLines (number + skipped.length) later := by
  induction skipped generalizing number with
  | nil => rfl
  | cons line others inductionHypothesis =>
    obtain ⟨here, further⟩ := List.forall_mem_cons.mp none
    have passed : ¬ isSignificant line = true := fun significant =>
      here ((isSignificant_iff line).mp significant)
    rw [List.cons_append, ofLines, if_neg passed, inductionHypothesis further, List.length_cons,
      Nat.add_assoc, Nat.add_comm 1]

/-- A text without significant lines has no header. -/
theorem scan_eq_missing {text : String}
    (none : ∀ line ∈ Text.lines text.toList, ¬ Significant line) : scan text = .missing := by
  have passed := ofLines_append none 0 []
  rwa [List.append_nil] at passed

/-- The header of a text is what its first significant line says. -/
theorem FirstSignificant.scan_eq {text : String} {number : Nat} {line : List Char}
    (first : FirstSignificant text number line) : scan text = ofLine number line := by
  obtain ⟨inside, equal⟩ := List.getElem?_eq_some_iff.mp first.there
  have cut : Text.lines text.toList = (Text.lines text.toList).take number ++
      line :: (Text.lines text.toList).drop (number + 1) := by
    rw [← equal, ← List.drop_eq_getElem_cons, List.take_append_drop]
  have counted : ((Text.lines text.toList).take number).length = number := by
    rw [List.length_take, Nat.min_eq_left (Nat.le_of_lt inside)]
  rw [scan, cut, ofLines_append first.earlier, counted, Nat.zero_add, ofLines,
    if_pos ((isSignificant_iff line).mpr first.significant)]

/-- A text with a header has a first significant line. -/
theorem exists_firstSignificant {text : String} (said : scan text ≠ .missing) :
    ∃ number line, FirstSignificant text number line := by
  let isSaid (line : List Char) : Bool := decide (Significant line)
  have someSaid : ∃ line ∈ Text.lines text.toList, isSaid line = true := by
    by_contra none
    refine said (scan_eq_missing fun line member significant => none ⟨line, member, ?_⟩)
    exact decide_eq_true significant
  have inside := List.findIdx_lt_length_of_exists someSaid
  refine ⟨_, _, List.getElem?_eq_getElem inside,
    of_decide_eq_true (List.findIdx_getElem (w := inside)), fun other member significant => ?_⟩
  obtain ⟨index, bound, rfl⟩ := List.mem_take_iff_getElem.mp member
  have silent := List.not_of_lt_findIdx (p := isSaid) (Nat.lt_min.mp bound).1
  exact absurd (decide_eq_true significant) (Bool.eq_false_iff.mp silent)

/-- There are fewer lines before the first significant one than the text is wide. -/
theorem FirstSignificant.number_lt {text : String} {number : Nat} {line : List Char}
    (first : FirstSignificant text number line) : number < Text.width text.toList := by
  obtain ⟨inside, -⟩ := List.getElem?_eq_some_iff.mp first.there
  exact Nat.lt_of_lt_of_le inside (Text.length_lines_le text.toList)

/-- The first significant line is no wider than the text. -/
theorem FirstSignificant.width_le {text : String} {number : Nat} {line : List Char}
    (first : FirstSignificant text number line) : Text.width line ≤ Text.width text.toList :=
  Text.width_le_of_mem_lines (List.mem_of_getElem? first.there)

/-! ### What a header says -/

/-- A text whose first significant line is a clause is found to declare the name, at the place
of the name. -/
theorem FirstSignificant.scan_of_parts {text : String} {number : Nat} {parts : Clause.Parts}
    (first : FirstSignificant text number parts.line) (valid : parts.Valid)
    (short : Text.width text.toList < UInt32.size) :
    ∃ span, scan text = .found ⟨String.ofList parts.name, span⟩ ∧
      span.Covers number (Text.width parts.before)
        (Text.width parts.before + Text.width parts.name) := by
  have numberShort := first.number_lt
  have lineShort := first.width_le
  rw [Clause.Parts.line, Text.width_append, Text.width_append] at lineShort
  have numberFits : number < UInt32.size := by omega
  have columnsFit : Text.width parts.before + Text.width parts.name < UInt32.size := by omega
  refine ⟨_, ?_, Span.covers_onLine numberFits columnsFit⟩
  rw [first.scan_eq, ofLine, valid.dissect?_line]

/-- A header is read off the first significant line: a clause line declares its name, at the
place where the name stands; any other line is malformed. -/
theorem scan_follows_grammar (text : String) (short : Text.width text.toList < UInt32.size) :
    ((∀ line ∈ Text.lines text.toList, ¬ Significant line) → scan text = .missing) ∧
    ∀ number line, FirstSignificant text number line →
      (∀ parts : Clause.Parts, parts.Valid → parts.line = line →
        (∀ other : Clause.Parts, other.Valid → other.line = line → other = parts) ∧
        ∃ span, scan text = .found ⟨String.ofList parts.name, span⟩ ∧
          span.Covers number (Text.width parts.before)
            (Text.width parts.before + parts.name.length) ∧
          span.unitsOn line = Text.units parts.name) ∧
      ((¬ ∃ parts : Clause.Parts, parts.Valid ∧ parts.line = line) →
        ∃ reported : UInt32, reported.toNat = number ∧
          scan text = .malformed reported (String.ofList (Text.trim line))) := by
  refine ⟨scan_eq_missing, fun number line first => ⟨?clause, ?other⟩⟩
  case clause =>
    rintro parts valid rfl
    obtain ⟨span, found, covers⟩ := first.scan_of_parts valid short
    refine ⟨fun other otherValid sameLine => otherValid.eq_of_line_eq valid sameLine,
      span, found, valid.width_name ▸ covers, ?_⟩
    rw [covers.unitsOn_eq, Nat.add_sub_cancel_left]
    exact Text.units_slice parts.before parts.name _
  case other =>
    intro noClause
    have numberShort := first.number_lt
    refine ⟨UInt32.ofNat number, UInt32.toNat_ofNat_of_lt' (by omega), ?_⟩
    rw [first.scan_eq, ofLine, Clause.dissect?_eq_none noClause]

/-- A comment with a surrogate pair, a line ended by a carriage return, exotic blanks around the
keyword and a comment glued to the name. -/
def glued : String := "// 😀\r\n\u3000package\t\u00a0api// x"

theorem scan_follows_grammar_glued :
    Text.width glued.toList < UInt32.size ∧
      ∃ line, FirstSignificant glued 1 line ∧
        ∃ span, scan glued = .found ⟨"api", span⟩ ∧ span.Covers 1 10 13 ∧
          span.unitsOn line = Text.units ['a', 'p', 'i'] := by
  have short : Text.width glued.toList < UInt32.size := by decide +kernel
  let parts : Clause.Parts :=
    ⟨['\u3000'], ['\t', '\u00a0'], ['a', 'p', 'i'], [], ['/', '/', ' ', 'x']⟩
  have identifier : Clause.IsIdentifier ['a', 'p', 'i'] :=
    (Clause.isIdentifier_iff _).mpr ⟨by decide, List.all_eq_true.mp (by decide)⟩
  have valid : parts.Valid :=
    ⟨List.all_eq_true.mp (by decide), List.all_eq_true.mp (by decide), by decide, identifier,
      List.all_eq_true.mp (by decide), .inr (by decide)⟩
  have first : FirstSignificant glued 1 parts.line :=
    ⟨by decide +kernel, by decide +kernel, by decide +kernel⟩
  obtain ⟨-, span, found, covers, exact⟩ :=
    ((scan_follows_grammar glued short).2 1 parts.line first).1 parts valid rfl
  exact ⟨short, parts.line, first, span, found, covers, exact⟩

end Header

end WorkspaceSync
