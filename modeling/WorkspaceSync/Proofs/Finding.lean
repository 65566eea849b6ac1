/-
This file proves that a lint tool's output is read by the format of findings,
with the shortest path that leaves a complete place behind it.

A place is two rows of digits, each with a colon behind it, and a rest. The
digits end at their colons, so that a text is a place in at most one way, and
the reader finds it whenever it is there. A line is cut at the first colon that
is not its first character and has a place behind it; the search over the line
passes exactly the positions at which it cannot be cut.
-/
import Mathlib.Data.List.Basic
import Mathlib.Data.Option.Basic
import WorkspaceSync.Lint.Finding
import WorkspaceSync.Proofs.Clause
import WorkspaceSync.Proofs.Text

namespace WorkspaceSync.Lint

/-! ### Places -/

namespace Place

/-- The text of a place. -/
def text (place : Place) : List Char :=
  place.line ++ ':' :: (place.column ++ ':' :: place.rest)

/-- A place has two numbers, in the digits of any script, and something behind them. -/
structure Valid (place : Place) : Prop where
  line : place.line ≠ [] ∧ ∀ digit ∈ place.line, Text.isDecimal digit = true
  column : place.column ≠ [] ∧ ∀ digit ∈ place.column, Text.isDecimal digit = true
  rest : place.rest ≠ []

/-- A number is a row of digits up to a colon. -/
theorem number?_eq_some_iff {characters digits rest : List Char} :
    number? characters = some (digits, rest) ↔
      (digits ≠ [] ∧ ∀ digit ∈ digits, Text.isDecimal digit = true) ∧
        characters = digits ++ ':' :: rest := by
  constructor
  · intro read
    have cut := List.takeWhile_append_dropWhile (p := Text.isDecimal) (l := characters)
    unfold number? at read
    split at read
    · exact absurd read (by simp)
    · next after nonempty =>
      obtain ⟨rfl, rfl⟩ := Prod.mk.inj (Option.some.inj read)
      rw [after] at cut
      exact ⟨⟨nonempty, fun _ => List.mem_takeWhile_imp⟩, cut.symm⟩
    · exact absurd read (by simp)
  · rintro ⟨⟨nonempty, decimal⟩, rfl⟩
    have stop : ∀ character, (':' :: rest).head? = some character →
        Text.isDecimal character = false := by
      rintro character first
      obtain rfl : ':' = character := Option.some.inj first
      decide
    rw [number?, Text.takeWhile_append_stop decimal stop, Text.dropWhile_append_stop decimal stop]
    cases digits with
    | nil => exact absurd rfl nonempty
    | cons digit others => rfl

/-- A text is read as a place if and only if it is the text of that place. -/
theorem read?_eq_some_iff {characters : List Char} {place : Place} :
    read? characters = some place ↔ place.Valid ∧ characters = place.text := by
  constructor
  · intro read
    unfold read? at read
    simp only [Option.bind_eq_bind, Option.bind_eq_some_iff, Prod.exists,
      number?_eq_some_iff] at read
    obtain ⟨line, _, ⟨lineValid, rfl⟩, column, rest, ⟨columnValid, rfl⟩, read⟩ := read
    split at read
    · exact absurd read (by simp)
    · next nonempty =>
      obtain rfl := Option.some.inj read
      exact ⟨⟨lineValid, columnValid, nonempty⟩, rfl⟩
  · rintro ⟨valid, rfl⟩
    have line := number?_eq_some_iff.mpr
      ⟨valid.line, (rfl : place.text = place.line ++ ':' :: (place.column ++ ':' :: place.rest))⟩
    have column := number?_eq_some_iff.mpr
      ⟨valid.column, (rfl : place.column ++ ':' :: place.rest = _)⟩
    simp only [read?, line, column, Option.bind_eq_bind, Option.bind_some, if_neg valid.rest]

end Place

/-! ### Cutting a line -/

/-- A colon stands at the index, and a place behind it. -/
structure PlaceBehind (line : List Char) (index : Nat) (place : Place) : Prop where
  valid : place.Valid
  shape : line.drop index = ':' :: place.text

/-- The line can be cut at the index into a path and a place. -/
structure SplitsAt (line : List Char) (index : Nat) (place : Place) : Prop
    extends PlaceBehind line index place where
  pathNonempty : 1 ≤ index

theorem placeBehind_zero {character : Char} {rest : List Char} {place : Place} :
    PlaceBehind (character :: rest) 0 place ↔ character = ':' ∧ Place.read? rest = some place := by
  rw [Place.read?_eq_some_iff]
  constructor
  · rintro ⟨valid, shape⟩
    obtain ⟨colon, text⟩ := List.cons.inj shape
    exact ⟨colon, valid, text⟩
  · rintro ⟨rfl, valid, rfl⟩
    exact ⟨valid, rfl⟩

/-- A character that has no place behind it as a colon is passed. -/
theorem PlaceBehind.of_cons {character : Char} {rest : List Char} {index : Nat} {place : Place}
    (behind : PlaceBehind (character :: rest) index place)
    (unread : character = ':' → Place.read? rest = none) :
    ∃ further, index = further + 1 ∧ PlaceBehind rest further place := by
  cases index with
  | zero =>
    obtain ⟨colon, read⟩ := placeBehind_zero.mp behind
    exact absurd read (by simp [unread colon])
  | succ further => exact ⟨further, rfl, behind.valid, behind.shape⟩

/-- A row without colons is passed. -/
theorem PlaceBehind.of_append {row rest : List Char} {index : Nat} {place : Place}
    (noColon : ':' ∉ row) (behind : PlaceBehind (row ++ rest) index place) :
    ∃ further, index = row.length + further ∧ PlaceBehind rest further place := by
  induction row generalizing index with
  | nil => exact ⟨index, (Nat.zero_add index).symm, behind⟩
  | cons character later inductionHypothesis =>
    rw [List.mem_cons, not_or] at noColon
    obtain ⟨passed, rfl, laterBehind⟩ := behind.of_cons fun colon => absurd colon.symm noColon.1
    obtain ⟨further, rfl, restBehind⟩ := inductionHypothesis noColon.2 laterBehind
    exact ⟨further, by rw [List.length_cons]; omega, restBehind⟩

/-- A place behind one colon is the only one. -/
theorem PlaceBehind.unique {line : List Char} {index : Nat} {place other : Place}
    (behind : PlaceBehind line index place) (otherBehind : PlaceBehind line index other) :
    place = other := by
  have sameText : place.text = other.text :=
    (List.cons.inj (behind.shape.symm.trans otherBehind.shape)).2
  have read := Place.read?_eq_some_iff.mpr ⟨behind.valid, rfl⟩
  have otherRead := Place.read?_eq_some_iff.mpr ⟨otherBehind.valid, rfl⟩
  rw [sameText] at read
  exact Option.some.inj (read.symm.trans otherRead)

theorem placeBehind_append (before rest : List Char) (index : Nat) (place : Place) :
    PlaceBehind (before ++ rest) (before.length + index) place ↔ PlaceBehind rest index place := by
  have same : (before ++ rest).drop (before.length + index) = rest.drop index := by
    rw [← List.drop_drop, List.drop_left]
  exact ⟨fun ⟨valid, shape⟩ => ⟨valid, same ▸ shape⟩, fun ⟨valid, shape⟩ => ⟨valid, same ▸ shape⟩⟩

/-- The line can be cut where the search stands if a colon is there that has a place behind it and
is not the first character. -/
theorem splitsAt_length_iff {before rest : List Char} {character : Char} {place : Place} :
    SplitsAt (before.reverse ++ character :: rest) before.length place ↔
      (character = ':' ∧ before ≠ []) ∧ Place.read? rest = some place := by
  have here : PlaceBehind (before.reverse ++ character :: rest) before.length place ↔
      character = ':' ∧ Place.read? rest = some place := by
    have appended := placeBehind_append before.reverse (character :: rest) 0 place
    rw [List.length_reverse, Nat.add_zero] at appended
    exact appended.trans placeBehind_zero
  constructor
  · intro splits
    obtain ⟨colon, read⟩ := here.mp splits.toPlaceBehind
    exact ⟨⟨colon, List.length_pos_iff.mp splits.pathNonempty⟩, read⟩
  · rintro ⟨⟨colon, nonempty⟩, read⟩
    exact ⟨here.mpr ⟨colon, read⟩, List.length_pos_iff.mpr nonempty⟩

/-- The search stops at the first index, from where it stands on, at which the line can be cut. -/
theorem split?_cases (before rest : List Char) :
    (split? before rest = none ∧
      ∀ index place, before.length ≤ index → ¬ SplitsAt (before.reverse ++ rest) index place) ∨
    ∃ index place, split? before rest = some ((before.reverse ++ rest).take index, place) ∧
      SplitsAt (before.reverse ++ rest) index place ∧
      ∀ earlier < index, before.length ≤ earlier →
        ∀ other, ¬ SplitsAt (before.reverse ++ rest) earlier other := by
  induction rest generalizing before with
  | nil =>
    refine .inl ⟨rfl, fun index place passed splits => ?_⟩
    have shape := splits.shape
    rw [List.append_nil, List.drop_of_length_le (by rwa [List.length_reverse])] at shape
    exact absurd shape (by simp)
  | cons character rest inductionHypothesis =>
    by_cases here : ∃ place, SplitsAt (before.reverse ++ character :: rest) before.length place
    · obtain ⟨place, splits⟩ := here
      obtain ⟨colon, read⟩ := splitsAt_length_iff.mp splits
      refine .inr ⟨before.length, place, ?_, splits, fun earlier less passed => by omega⟩
      rw [split?, if_pos colon, read, ← List.length_reverse, List.take_left]
    · have step : split? before (character :: rest) = split? (character :: before) rest := by
        rw [split?]
        split
        · next colon =>
          cases read : Place.read? rest with
          | none => rfl
          | some place => exact absurd ⟨place, splitsAt_length_iff.mpr ⟨colon, read⟩⟩ here
        · rfl
      have whole : before.reverse ++ character :: rest = (character :: before).reverse ++ rest := by
        rw [List.reverse_cons, List.append_assoc, List.singleton_append]
      -- No cut was possible here, so that what holds from the next index on holds from this one.
      have passes {index : Nat} (passed : before.length ≤ index) {place : Place}
          (splits : SplitsAt (before.reverse ++ character :: rest) index place) :
          (character :: before).length ≤ index := by
        rcases Nat.lt_or_eq_of_le passed with further | rfl
        · exact further
        · exact absurd ⟨place, splits⟩ here
      rw [step]
      rcases inductionHypothesis (character :: before) with ⟨none, never⟩ | found
      · refine .inl ⟨none, fun index place passed splits => ?_⟩
        exact never index place (passes passed splits) (whole ▸ splits)
      · obtain ⟨index, place, found, splits, first⟩ := found
        rw [← whole] at found splits first
        refine .inr ⟨index, place, found, splits, fun earlier less passed other otherSplits => ?_⟩
        exact first earlier less (passes passed otherSplits) other otherSplits

theorem isSome_split?_iff (line : List Char) :
    (split? [] line).isSome = true ↔ ∃ index place, SplitsAt line index place := by
  rcases split?_cases [] line with ⟨none, never⟩ | ⟨index, place, split, splits, -⟩
  · rw [none]
    refine ⟨fun impossible => absurd impossible (by simp), ?_⟩
    rintro ⟨index, place, splits⟩
    exact absurd splits (never index place (Nat.zero_le index))
  · rw [split]
    exact ⟨fun _ => ⟨index, place, splits⟩, fun _ => rfl⟩

instance (line : List Char) : Decidable (∃ index place, SplitsAt line index place) :=
  decidable_of_iff _ (isSome_split?_iff line)

/-! ### Reading a line -/

/-- How a line is read: with the shortest path that leaves a place behind it, and only if there is
none, without a path. -/
inductive Reads (line : List Char) : Option (List Char) → Place → Prop
  | named {index : Nat} {place : Place} (splits : SplitsAt line index place)
      (shortest : ∀ earlier < index, ∀ other, ¬ SplitsAt line earlier other) :
      Reads line (some (line.take index)) place
  | bare {place : Place} (whole : ∀ index other, ¬ SplitsAt line index other)
      (valid : place.Valid) (shape : line = place.text) : Reads line none place

theorem readLine?_eq_some_iff {line : List Char} {path : Option (List Char)} {place : Place} :
    readLine? line = some (path, place) ↔ Reads line path place := by
  unfold readLine?
  rcases split?_cases [] line with ⟨none, never⟩ | ⟨index, found, split, splits, first⟩
  · have whole : ∀ index other, ¬ SplitsAt line index other := fun index other =>
      never index other (Nat.zero_le index)
    rw [none]
    simp only [Option.map_eq_some_iff, Prod.mk.injEq]
    constructor
    · rintro ⟨_, read, rfl, rfl⟩
      obtain ⟨valid, shape⟩ := Place.read?_eq_some_iff.mp read
      exact .bare whole valid shape
    · intro reads
      cases reads with
      | named splits shortest => exact absurd splits (whole _ _)
      | bare _ valid shape => exact ⟨place, Place.read?_eq_some_iff.mpr ⟨valid, shape⟩, rfl, rfl⟩
  · rw [split]
    simp only [Option.some.injEq, Prod.mk.injEq, List.reverse_nil, List.nil_append]
      at splits first ⊢
    have shortest : ∀ earlier < index, ∀ other, ¬ SplitsAt line earlier other :=
      fun earlier less => first earlier less (Nat.zero_le earlier)
    constructor
    · rintro ⟨rfl, rfl⟩
      exact .named splits shortest
    · intro reads
      cases reads with
      | @named otherIndex _ otherSplits otherShortest =>
        have same : index = otherIndex := by
          rcases Nat.lt_trichotomy index otherIndex with less | equal | more
          · exact absurd splits (otherShortest index less found)
          · exact equal
          · exact absurd otherSplits (shortest otherIndex more place)
        subst same
        exact ⟨rfl, splits.unique otherSplits.toPlaceBehind⟩
      | bare whole _ _ => exact absurd splits (whole index found)

/-- A line is read in at most one way. -/
theorem Reads.unique {line : List Char} {path otherPath : Option (List Char)}
    {place otherPlace : Place} (reads : Reads line path place)
    (otherReads : Reads line otherPath otherPlace) : path = otherPath ∧ place = otherPlace := by
  have read := readLine?_eq_some_iff.mpr reads
  have otherRead := readLine?_eq_some_iff.mpr otherReads
  exact Prod.mk.inj (Option.some.inj (read.symm.trans otherRead))

theorem Reads.valid {line : List Char} {path : Option (List Char)} {place : Place}
    (reads : Reads line path place) : place.Valid := by
  cases reads with
  | named splits _ => exact splits.valid
  | bare _ valid _ => exact valid

/-- What is read off a line reaches to its end. -/
theorem Reads.rest_suffix {line : List Char} {path : Option (List Char)} {place : Place}
    (reads : Reads line path place) : place.rest <:+ line := by
  have ofText : place.rest <:+ place.text :=
    ⟨place.line ++ ':' :: (place.column ++ [':']), by simp [Place.text]⟩
  cases reads with
  | @named index _ splits _ =>
    have ofDrop : place.text <:+ line.drop index := splits.shape ▸ List.suffix_cons ':' place.text
    exact (ofText.trans ofDrop).trans (List.drop_suffix index line)
  | bare _ _ shape => rwa [shape]

/-! ### Findings -/

/-- A path in front of a finding points at the linted file. Tools call their standard input `-` or
`<stdin>`; any other path is seen from the root, unless it is absolute. -/
def PointsAt (root file : Path) (named : List Char) : Prop :=
  named = ['-'] ∨ named = "<stdin>".toList ∨
    if (Path.mk (String.ofList named)).isAbsolute then (Path.mk (String.ofList named)).Same file
    else (root.join ⟨String.ofList named⟩).Same file

theorem concerns_iff (root file : Path) (named : List Char) :
    concerns root file named = true ↔ PointsAt root file named := by
  simp only [concerns, PointsAt, Bool.or_eq_true, beq_iff_eq, decide_eq_true_eq, or_assoc]
  split
  · next absolute => rw [Path.join, if_pos absolute]
  · rfl

/-- The remark that a place makes on the linted file. -/
def remark (file : Path) (place : Place) : Diagnostic :=
  { file
    message := String.ofList (Text.trim place.rest)
    severity := .warning
    span := .onLine (UInt32.ofNat (Nat.ofDigitChars 10 place.line 0 - 1))
      (UInt32.ofNat (Nat.ofDigitChars 10 place.column 0 - 1)) 1
    source := some findingSource }

/-- Positions count from zero, the numbers of a report from one. -/
theorem position_ofNat {number : Nat} (fits : number ≤ 4294967295) :
    position (UInt32.ofNat number) = UInt32.ofNat (number - 1) := by
  have numberIs : (UInt32.ofNat number).toNat = number :=
    UInt32.toNat_ofNat_of_lt' (Nat.lt_succ_of_le fits)
  have beforeIs : (UInt32.ofNat (number - 1)).toNat = number - 1 :=
    UInt32.toNat_ofNat_of_lt' (Nat.lt_succ_of_le (Nat.le_trans (Nat.sub_le _ _) fits))
  unfold position
  rw [← UInt32.toNat_inj, beforeIs]
  split
  · next zero =>
    rw [← UInt32.toNat_inj, numberIs] at zero
    rw [zero]
    rfl
  · next positive =>
    have one : (1 : UInt32) ≤ UInt32.ofNat number := by
      rw [UInt32.le_iff_toNat_le, numberIs]
      rw [← UInt32.toNat_inj, numberIs] at positive
      exact Nat.one_le_iff_ne_zero.mpr positive
    rw [UInt32.toNat_sub_of_le _ _ one, numberIs]
    rfl

/-- A line that cannot be read makes no remark. -/
theorem finding?_eq_none {root file : Path} {line : List Char}
    (unread : ¬ ∃ path place, Reads (Text.trimEnd line) path place) :
    finding? root file line = none := by
  have noReading : readLine? (Text.trimEnd line) = none := by
    rw [Option.eq_none_iff_forall_ne_some]
    rintro ⟨path, place⟩ read
    exact unread ⟨path, place, readLine?_eq_some_iff.mp read⟩
  rw [finding?, noReading]
  rfl

/-- A line that can be read makes a remark if and only if its path points at the linted file and
its numbers fit their words. -/
theorem Reads.finding?_eq_some_iff {root file : Path} {line : List Char}
    {path : Option (List Char)} {place : Place} {diagnostic : Diagnostic}
    (reads : Reads (Text.trimEnd line) path place) :
    finding? root file line = some diagnostic ↔
      (∀ named, path = some named → PointsAt root file named) ∧
        (Text.IsWord place.line ∧ Text.IsWord place.column) ∧ diagnostic = remark file place := by
  have concerned : path.all (concerns root file) = true ↔
      ∀ named, path = some named → PointsAt root file named := by
    cases path with
    | none => simp
    | some named => simp [concerns_iff]
  rw [finding?, readLine?_eq_some_iff.mpr reads]
  simp only [Option.bind_eq_bind, Option.bind_some, Option.bind_eq_some_iff,
    Option.guard_eq_some', exists_const, concerned, Text.word32?_eq_some_iff]
  refine and_congr_right fun _ => ?_
  constructor
  · rintro ⟨_, ⟨-, lineWord, rfl⟩, _, ⟨-, columnWord, rfl⟩, made⟩
    refine ⟨⟨lineWord, columnWord⟩, ?_⟩
    rw [← Option.some.inj made, remark, position_ofNat lineWord.fits,
      position_ofNat columnWord.fits]
  · rintro ⟨⟨lineWord, columnWord⟩, rfl⟩
    refine ⟨_, ⟨reads.valid.line.1, lineWord, rfl⟩, _, ⟨reads.valid.column.1, columnWord, rfl⟩, ?_⟩
    rw [remark, position_ofNat lineWord.fits, position_ofNat columnWord.fits]

/-- A line that can be read makes no remark on a file that its path does not point at, and none
if one of its numbers does not fit. -/
theorem Reads.finding?_eq_none {root file : Path} {line : List Char}
    {path : Option (List Char)} {place : Place} (reads : Reads (Text.trimEnd line) path place)
    (unfit : ¬ ((∀ named, path = some named → PointsAt root file named) ∧
      Text.IsWord place.line ∧ Text.IsWord place.column)) :
    finding? root file line = none := by
  rw [Option.eq_none_iff_forall_ne_some]
  intro diagnostic found
  obtain ⟨points, words, -⟩ := reads.finding?_eq_some_iff.mp found
  exact unfit ⟨points, words⟩

/-- A remark covers one column, at the position that the numbers of its place count to. -/
theorem covers_remark (file : Path) (place : Place) (lineWord : Text.IsWord place.line)
    (columnWord : Text.IsWord place.column) :
    (remark file place).span.Covers (Nat.ofDigitChars 10 place.line 0 - 1)
      (Nat.ofDigitChars 10 place.column 0 - 1) (Nat.ofDigitChars 10 place.column 0 - 1 + 1) := by
  have lineFits := lineWord.fits
  have columnFits := columnWord.fits
  have bound : UInt32.size = 4294967296 := rfl
  have ends : Nat.ofDigitChars 10 place.column 0 - 1 + 1 < UInt32.size := by omega
  exact Span.covers_onLine (by omega) ends

/-- The findings of a tool's output are those of its lines, each of which makes at most one: the
one that the format reads off it, if its path points at the linted file and its numbers fit. -/
theorem findings_follow_format (root file : Path) (output : String) :
    findings root file output =
      ((Text.lines output.toList).map fun line => (finding? root file line).toList).flatten ∧
    ∀ line ∈ Text.lines output.toList,
      ((¬ ∃ path place, Reads (Text.trimEnd line) path place) → finding? root file line = none) ∧
      ∀ path place, Reads (Text.trimEnd line) path place →
        (∀ otherPath otherPlace, Reads (Text.trimEnd line) otherPath otherPlace →
          otherPath = path ∧ otherPlace = place) ∧
        (∀ named, path = some named → ¬ PointsAt root file named →
          finding? root file line = none) ∧
        (¬ Text.IsWord place.line ∨ ¬ Text.IsWord place.column → finding? root file line = none) ∧
        ((∀ named, path = some named → PointsAt root file named) →
          Text.IsWord place.line → Text.IsWord place.column →
          Text.trim place.rest ≠ [] ∧
          ∃ span, finding? root file line =
              some ⟨file, String.ofList (Text.trim place.rest), .warning, span, some "gunk-lint"⟩ ∧
            span.Covers (Nat.ofDigitChars 10 place.line 0 - 1)
              (Nat.ofDigitChars 10 place.column 0 - 1)
              (Nat.ofDigitChars 10 place.column 0 - 1 + 1)) := by
  refine ⟨?lines, fun line _ => ⟨finding?_eq_none, fun path place reads =>
    ⟨fun _ _ otherReads => otherReads.unique reads, ?foreign, ?wide, ?made⟩⟩⟩
  case lines => rw [findings, List.filterMap_eq_flatMap_toList, List.flatMap]
  case foreign =>
    intro named isNamed foreign
    exact reads.finding?_eq_none fun fit => foreign (fit.1 named isNamed)
  case wide =>
    intro wide
    refine reads.finding?_eq_none ?_
    rintro ⟨-, lineWord, columnWord⟩
    exact wide.elim (fun noWord => noWord lineWord) fun noWord => noWord columnWord
  case made =>
    intro points lineWord columnWord
    obtain ⟨before, shape⟩ := reads.rest_suffix
    have found := reads.finding?_eq_some_iff.mpr ⟨points, ⟨lineWord, columnWord⟩, rfl⟩
    exact ⟨Text.trim_ne_nil_of_trimEnd_eq shape.symm reads.valid.rest, (remark file place).span,
      found, covers_remark file place lineWord columnWord⟩

/-- A line that is a finding without a path, and one with the path `1` as well. -/
theorem findings_follow_format_ambiguous :
    Reads (Text.trimEnd "1:2:3:4: m".toList) (some ['1']) ⟨['2'], ['3'], "4: m".toList⟩ ∧
      ∃ span, findings ⟨"/ws"⟩ ⟨"/ws/./1"⟩ "1:2:3:4: m" =
          [⟨⟨"/ws/./1"⟩, "4: m", .warning, span, some "gunk-lint"⟩] ∧
        span.Covers 1 2 3 := by
  have reads : Reads (Text.trimEnd "1:2:3:4: m".toList) (some ['1'])
      ⟨['2'], ['3'], "4: m".toList⟩ := readLine?_eq_some_iff.mp (by decide +kernel)
  have points : ∀ named, some ['1'] = some named → PointsAt ⟨"/ws"⟩ ⟨"/ws/./1"⟩ named := by
    intro named isOne
    obtain rfl := Option.some.inj isOne
    exact (concerns_iff _ _ _).mp (by decide +kernel)
  obtain ⟨whole, each⟩ := findings_follow_format ⟨"/ws"⟩ ⟨"/ws/./1"⟩ "1:2:3:4: m"
  have oneLine : Text.lines "1:2:3:4: m".toList = ["1:2:3:4: m".toList] := by decide +kernel
  obtain ⟨-, readable⟩ := each _ (oneLine ▸ List.mem_singleton_self _)
  obtain ⟨-, -, -, made⟩ := readable _ _ reads
  obtain ⟨-, span, found, covers⟩ := made points (by decide) (by decide)
  refine ⟨reads, span, ?_, covers⟩
  rw [whole, oneLine, List.map_singleton, found]
  rfl

end WorkspaceSync.Lint
