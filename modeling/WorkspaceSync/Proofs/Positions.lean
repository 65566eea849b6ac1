/-
This file says where the remarks of an analysis and the findings of a lint tool
lie.

Positions are words of 32 bits that whole numbers are put into: the number of a
line, the width of a text in code units, a number that a tool wrote. For a text
that is less wide than a word can count, none of them is cut off, no sum of two
of them wraps, and there is room for counting from one in a report. A tool may
write what it likes, since a number that does not fit makes no finding.

The error of a line that is no clause quotes the line without the blanks around
it. Its range is as wide as the quoted text but begins at the start of the line,
and so it marks the quoted text only where the line is not indented.
-/
import WorkspaceSync.Proofs.Analysis
import WorkspaceSync.Proofs.Clause
import WorkspaceSync.Proofs.Finding

namespace WorkspaceSync

/-! ### Headers -/

namespace Header

/-- A malformed header quotes the first significant line, which is no clause. -/
theorem FirstSignificant.of_malformed {text quoted : String} {reported : UInt32} {number : Nat}
    {line : List Char} (first : FirstSignificant text number line)
    (malformed : scan text = .malformed reported quoted) :
    (¬ ∃ parts : Clause.Parts, parts.Valid ∧ parts.line = line) ∧
      reported = UInt32.ofNat number ∧ quoted = String.ofList (Text.trim line) := by
  rw [first.scan_eq, ofLine] at malformed
  cases dissected : Clause.dissect? line with
  | none =>
    rw [dissected, Header.malformed.injEq] at malformed
    refine ⟨?_, malformed.1.symm, malformed.2.symm⟩
    rintro ⟨parts, valid, rfl⟩
    rw [valid.dissect?_line] at dissected
    exact absurd dissected (by simp)
  | some found =>
    rw [dissected] at malformed
    exact absurd malformed (by simp)

/-- A header that is found is a clause line, and its range is that of the name. -/
theorem exists_parts_of_found {text : String} {clause : Clause} (found : scan text = .found clause)
    (short : Text.width text.toList < UInt32.size) :
    ∃ number, ∃ parts : Clause.Parts, FirstSignificant text number parts.line ∧ parts.Valid ∧
      clause.name = String.ofList parts.name ∧
      clause.span.Covers number (Text.width parts.before)
        (Text.width parts.before + Text.width parts.name) := by
  have said : scan text ≠ .missing := by simp [found]
  obtain ⟨number, line, first⟩ := exists_firstSignificant said
  have isClause : ∃ parts : Clause.Parts, parts.Valid ∧ parts.line = line := by
    by_contra noClause
    rw [first.scan_eq, ofLine, Clause.dissect?_eq_none noClause] at found
    exact absurd found (by simp)
  obtain ⟨parts, valid, rfl⟩ := isClause
  obtain ⟨span, isFound, covers⟩ := first.scan_of_parts valid short
  rw [found, Header.found.injEq] at isFound
  rw [isFound]
  exact ⟨number, parts, first, valid, rfl, covers⟩

end Header

/-! ### The text that is marked -/

/-- A range from the start of a line, as wide as the trimmed line, marks the trimmed line if and
only if the line is not indented and the width was not cut off. -/
theorem Span.unitsOn_onLine_zero_iff {line : List Char} (said : Text.trim line ≠ [])
    (number : UInt32) :
    (onLine number 0 (UInt32.ofNat (Text.width (Text.trim line)))).unitsOn line =
        Text.units (Text.trim line) ↔
      Text.trimStart line = line ∧ Text.width (Text.trim line) < UInt32.size := by
  have marked : (onLine number 0 (UInt32.ofNat (Text.width (Text.trim line)))).unitsOn line =
      (Text.units line).take (Text.width (Text.trim line) % UInt32.size) := by
    simp only [unitsOn, onLine, UInt32.zero_add, UInt32.toNat_ofNat]
    rfl
  rw [marked]
  by_cases fits : Text.width (Text.trim line) < UInt32.size
  · rw [Nat.mod_eq_of_lt fits, Text.take_units_eq_trim_iff said, and_iff_left fits]
  · refine iff_of_false (fun same => fits ?_) fun both => fits both.2
    have lengths := congrArg List.length same
    rw [List.length_take, Text.length_units, Text.length_units] at lengths
    have cut : Text.width (Text.trim line) % UInt32.size < UInt32.size :=
      Nat.mod_lt _ (by decide)
    omega

namespace Package

open Analysis

/-- The error of a file whose first significant line is no clause quotes this line without the
blanks around it. Its range lies on the line and is as wide as the quoted text, but it begins with
the line: it marks the quoted text if and only if no blank opens the line and the width fits its
word. -/
theorem malformed_marked_iff {package : Package} {entry : Path × SourceFile}
    (member : entry ∈ package.files.entries) (readable : entry.2.readError = none)
    {reported : UInt32} {quoted : String}
    (malformed : Header.scan entry.2.text = .malformed reported quoted) :
    ∃ error ∈ package.analyzed.errors, error.file = entry.1 ∧
      (∀ other ∈ package.analyzed.errors, other.file = entry.1 → other = error) ∧
      error.message = "expected package clause, found `" ++ quoted ++ "`" ∧
      (∃ number line, Header.FirstSignificant entry.2.text number line) ∧
      ∀ number line, Header.FirstSignificant entry.2.text number line →
        quoted = String.ofList (Text.trim line) ∧
        error.span = .onLine (UInt32.ofNat number) 0 (UInt32.ofNat (Text.width quoted.toList)) ∧
        (error.span.unitsOn line = Text.units quoted.toList ↔
          Text.trimStart line = line ∧ Text.width quoted.toList < UInt32.size) := by
  have judged : verdict? (first? package.files.entries) entry =
      some (errorAt entry.1 (.onLine reported 0 (UInt32.ofNat (Text.width quoted.toList)))
        ("expected package clause, found `" ++ quoted ++ "`")) := by
    rw [verdict?, SourceFile.reading, readable]
    simp only [malformed]
  have said : Header.scan entry.2.text ≠ .missing := by simp [malformed]
  refine ⟨_, mem_errors_analyzed.mpr ⟨entry, member, judged⟩, rfl, ?_, rfl,
    Header.exists_firstSignificant said, ?_⟩
  · intro other inErrors onFile
    have otherJudged := verdict?_of_mem_errors member inErrors onFile
    rw [judged, Option.some.injEq] at otherJudged
    exact otherJudged.symm
  · intro number line first
    obtain ⟨-, rfl, rfl⟩ := first.of_malformed malformed
    refine ⟨rfl, rfl, ?_⟩
    rw [String.toList_ofList]
    exact Span.unitsOn_onLine_zero_iff first.significant.1 _

/-- A package with a single file. -/
def single (text : String) : Package :=
  { Package.new ⟨"p"⟩ ⟨"/ws/p"⟩ with
    files := PathMap.empty.insert ⟨"/ws/p/a.gunk"⟩ (.ofDisk text) }

/-- A surrogate pair counts twice, and the blank at the end of the line is not marked. -/
theorem malformed_marked_iff_rocket :
    ∃ error ∈ (single "\nmessage 🚀 \r\n").analyzed.errors, error.span = .onLine 1 0 10 ∧
      error.span.unitsOn "message 🚀 ".toList = Text.units "message 🚀".toList := by
  have member : (⟨"/ws/p/a.gunk"⟩, .ofDisk "\nmessage 🚀 \r\n") ∈
      (single "\nmessage 🚀 \r\n").files.entries := List.mem_cons_self
  have malformed : Header.scan "\nmessage 🚀 \r\n" = .malformed 1 "message 🚀" := by
    decide +kernel
  have first : Header.FirstSignificant "\nmessage 🚀 \r\n" 1 "message 🚀 ".toList :=
    ⟨by decide +kernel, by decide +kernel, by decide +kernel⟩
  obtain ⟨error, reported, -, -, -, -, marked⟩ := malformed_marked_iff member rfl malformed
  obtain ⟨-, span, iff⟩ := marked 1 _ first
  exact ⟨error, reported, span, iff.mpr ⟨by decide +kernel, by decide +kernel⟩⟩

/-- The error of an indented line quotes `import x`, but what it marks is `  import`. -/
theorem malformed_indent_unmarked :
    Header.scan "  import x" = .malformed 0 "import x" ∧
      ∃ error, (single "  import x").analyzed.errors = [error] ∧
        error.file = ⟨"/ws/p/a.gunk"⟩ ∧
        error.message = "expected package clause, found `import x`" ∧
        error.span.Covers 0 0 8 ∧
        error.span.unitsOn "  import x".toList = Text.units "  import".toList ∧
        error.span.unitsOn "  import x".toList ≠ Text.units "import x".toList :=
  ⟨by decide +kernel, _, rfl, rfl, by decide +kernel, ⟨by decide +kernel, by decide +kernel,
    by decide +kernel, by decide +kernel⟩, by decide +kernel, by decide +kernel⟩

end Package

/-! ### Whole numbers in words -/

/-- The range of a remark, in whole numbers: it lies on one line between two columns, and counting
from one in a report stays within the words. -/
structure Diagnostic.PlacedAt (diagnostic : Diagnostic) (number first last : Nat) : Prop
    extends diagnostic.span.Covers number first last where
  ordered : first ≤ last
  lineCounted : (diagnostic.span.startLine + 1).toNat = number + 1
  columnCounted : (diagnostic.span.startColumn + 1).toNat = first + 1

/-- A range that leaves room for counting from one is placed as it is. -/
theorem Diagnostic.placedAt {diagnostic : Diagnostic} {number first last : Nat}
    (covers : diagnostic.span.Covers number first last) (ordered : first ≤ last)
    (lineFits : number + 1 < UInt32.size) (columnFits : first + 1 < UInt32.size) :
    diagnostic.PlacedAt number first last where
  toCovers := covers
  ordered := ordered
  lineCounted := by
    rw [UInt32.toNat_add, covers.startLine]
    exact Nat.mod_eq_of_lt lineFits
  columnCounted := by
    rw [UInt32.toNat_add, covers.startColumn]
    exact Nat.mod_eq_of_lt columnFits

namespace Analysis

/-- Where the error of a file lies, in whole numbers: the number of a line, its first column and its
last. -/
inductive Position (file : SourceFile) : Nat → Nat → Nat → Prop
  /-- A file without a line to point at is marked at its start. -/
  | start (silent : file.readError ≠ none ∨ Header.scan file.text = .missing) : Position file 0 0 0
  /-- A line that is no clause is marked over the width of its text. -/
  | line {number : Nat} {line : List Char} (readable : file.readError = none)
      (first : Header.FirstSignificant file.text number line)
      (noClause : ¬ ∃ parts : Clause.Parts, parts.Valid ∧ parts.line = line) :
      Position file number 0 (Text.width (Text.trim line))
  /-- A clause is marked at its name. -/
  | name {number : Nat} {parts : Clause.Parts} (readable : file.readError = none)
      (first : Header.FirstSignificant file.text number parts.line) (valid : parts.Valid) :
      Position file number (Text.width parts.before)
        (Text.width parts.before + Text.width parts.name)

/-- The error of a file covers its position. -/
theorem covers_of_verdict? {declared : Option Declaration} {entry : Path × SourceFile}
    {error : Diagnostic} (judged : verdict? declared entry = some error)
    (short : Text.width entry.2.text.toList < UInt32.size) :
    ∃ number first last, Position entry.2 number first last ∧
      error.span.Covers number first last := by
  unfold verdict? SourceFile.reading at judged
  cases reason : entry.2.readError with
  | some text =>
    simp only [reason, Option.some.injEq] at judged
    rw [← judged]
    exact ⟨0, 0, 0, .start (.inl (by simp [reason])), ⟨rfl, rfl, rfl, rfl⟩⟩
  | none =>
    cases header : Header.scan entry.2.text with
    | missing =>
      simp only [reason, header, Option.some.injEq] at judged
      rw [← judged]
      exact ⟨0, 0, 0, .start (.inr header), ⟨rfl, rfl, rfl, rfl⟩⟩
    | malformed reported quoted =>
      simp only [reason, header, Option.some.injEq] at judged
      have said : Header.scan entry.2.text ≠ .missing := by simp [header]
      obtain ⟨number, line, first⟩ := Header.exists_firstSignificant said
      obtain ⟨noClause, rfl, rfl⟩ := first.of_malformed header
      refine ⟨number, 0, _, .line reason first noClause, ?_⟩
      have numberShort := first.number_lt
      have lineShort := first.width_le
      have trimmedShort := Text.width_trim_le line
      have covers : (Span.onLine (UInt32.ofNat number) (UInt32.ofNat 0)
          (UInt32.ofNat (Text.width (Text.trim line)))).Covers number 0
            (0 + Text.width (Text.trim line)) := Span.covers_onLine (by omega) (by omega)
      rw [Nat.zero_add] at covers
      rw [← judged, String.toList_ofList]
      exact covers
    | found clause =>
      simp only [reason, header] at judged
      obtain ⟨declaration, -, judged⟩ := Option.bind_eq_some_iff.mp judged
      split at judged
      · exact absurd judged (by simp)
      · obtain ⟨number, parts, first, valid, -, covers⟩ :=
          Header.exists_parts_of_found header short
        rw [← Option.some.inj judged]
        exact ⟨number, _, _, .name reason first valid, covers⟩

/-- The position of an error leaves room for counting from one. -/
theorem Position.fits {file : SourceFile} {number first last : Nat}
    (position : Position file number first last)
    (short : Text.width file.text.toList < UInt32.size) :
    first ≤ last ∧ number + 1 < UInt32.size ∧ first + 1 < UInt32.size := by
  cases position with
  | start silent => decide
  | line readable first noClause =>
    have numberShort := first.number_lt
    exact ⟨Nat.zero_le _, by omega, by decide⟩
  | @name _ parts readable first valid =>
    have numberShort := first.number_lt
    have lineShort := first.width_le
    have nameWide : 0 < Text.width parts.name := by
      rw [valid.width_name]
      exact List.length_pos_iff.mpr valid.name_ne_nil
    rw [Clause.Parts.line, Text.width_append, Text.width_append] at lineShort
    exact ⟨Nat.le_add_right _ _, by omega, by omega⟩

end Analysis

/-- For a file whose text is less wide than a word can count, the error of an analysis lies where
the file says, in whole numbers: nothing is cut off and nothing wraps, neither in the range nor when
a report counts from one. The range of a clause ends within its line. Whatever a tool writes, its
findings lie at the numbers of their lines, each less one. -/
theorem positions_exact :
    (∀ package : Package, ∀ error ∈ package.analyzed.errors,
      ∃ entry ∈ package.files.entries, error.file = entry.1 ∧
        (Text.width entry.2.text.toList < UInt32.size →
          ∃ number first last, Analysis.Position entry.2 number first last ∧
            error.PlacedAt number first last)) ∧
    (∀ text : String, Text.width text.toList < UInt32.size →
      ∀ clause, Header.scan text = .found clause →
        ∃ number line first, (Text.lines text.toList)[number]? = some line ∧
          clause.span.Covers number first (first + Text.width clause.name.toList) ∧
          first + Text.width clause.name.toList ≤ Text.width line) ∧
    ∀ root file output, ∀ finding ∈ Lint.findings root file output,
      ∃ line ∈ Text.lines output.toList, ∃ path place,
        Lint.Reads (Text.trimEnd line) path place ∧
          finding.PlacedAt (Nat.ofDigitChars 10 place.line 0 - 1)
            (Nat.ofDigitChars 10 place.column 0 - 1)
            (Nat.ofDigitChars 10 place.column 0 - 1 + 1) := by
  refine ⟨?errors, ?clauses, ?findings⟩
  case errors =>
    intro package error reported
    obtain ⟨entry, member, judged⟩ := Package.mem_errors_analyzed.mp reported
    refine ⟨entry, member, (Analysis.verdict?_eq_some judged).1, fun short => ?_⟩
    obtain ⟨number, first, last, position, covers⟩ := Analysis.covers_of_verdict? judged short
    obtain ⟨ordered, lineFits, columnFits⟩ := position.fits short
    exact ⟨number, first, last, position,
      Diagnostic.placedAt covers ordered lineFits columnFits⟩
  case clauses =>
    intro text short clause found
    obtain ⟨number, parts, first, valid, named, covers⟩ := Header.exists_parts_of_found found short
    rw [named, String.toList_ofList]
    refine ⟨number, parts.line, _, first.there, covers, ?_⟩
    rw [Clause.Parts.line, Text.width_append, Text.width_append]
    exact Nat.le_add_right _ _
  case findings =>
    intro root file output finding member
    obtain ⟨line, inOutput, found⟩ := List.mem_filterMap.mp member
    have isRead : ∃ path place, Lint.Reads (Text.trimEnd line) path place := by
      by_contra unread
      rw [Lint.finding?_eq_none unread] at found
      exact absurd found (by simp)
    obtain ⟨path, place, reads⟩ := isRead
    obtain ⟨-, ⟨lineWord, columnWord⟩, rfl⟩ := reads.finding?_eq_some_iff.mp found
    have lineFits := lineWord.fits
    have columnFits := columnWord.fits
    have size : UInt32.size = 4294967296 := rfl
    refine ⟨line, inOutput, path, place, reads, Diagnostic.placedAt
      (Lint.covers_remark file place lineWord columnWord) (Nat.le_add_right _ _) ?_ ?_⟩
    · omega
    · omega

/-- The edges: an error on an indented line, a name that ends with its line, and a finding with the
greatest numbers that fit. -/
theorem positions_exact_edges :
    (∃ error ∈ (Package.single "\u3000/x").analyzed.errors, error.PlacedAt 0 0 2) ∧
      (∃ number line first, (Text.lines "\tpackage bc".toList)[number]? = some line ∧
        (Span.onLine 0 9 2).Covers number first (first + 2) ∧ first + 2 ≤ Text.width line) ∧
      ∃ finding, Lint.findings ⟨"/ws"⟩ ⟨"/ws/a.gunk"⟩ "4294967295:4294967295: m" = [finding] ∧
        finding.PlacedAt 4294967294 4294967294 4294967295 := by
  refine ⟨?error, ?clause, ?finding⟩
  case error =>
    have reported : Analysis.errorAt ⟨"/ws/p/a.gunk"⟩ (.onLine 0 0 2)
        "expected package clause, found `/x`" ∈ (Package.single "\u3000/x").analyzed.errors := by
      decide +kernel
    obtain ⟨entry, member, -, placed⟩ := positions_exact.1 _ _ reported
    obtain rfl := List.mem_singleton.mp member
    obtain ⟨number, first, last, -, placedAt⟩ := placed (by decide +kernel)
    obtain rfl : 0 = number := placedAt.startLine
    obtain rfl : 0 = first := placedAt.startColumn
    obtain rfl : 2 = last := placedAt.endColumn
    exact ⟨_, reported, placedAt⟩
  case clause =>
    exact positions_exact.2.1 "\tpackage bc" (by decide +kernel) ⟨"bc", .onLine 0 9 2⟩
      (by decide +kernel)
  case finding =>
    have found : Lint.findings ⟨"/ws"⟩ ⟨"/ws/a.gunk"⟩ "4294967295:4294967295: m" =
        [⟨⟨"/ws/a.gunk"⟩, "m", .warning, .onLine 4294967294 4294967294 1, some "gunk-lint"⟩] := by
      decide +kernel
    obtain ⟨line, -, path, place, -, placedAt⟩ :=
      positions_exact.2.2 _ _ _ _ (found ▸ List.mem_singleton_self _)
    have lineIs : Nat.ofDigitChars 10 place.line 0 - 1 = 4294967294 := placedAt.startLine.symm
    have columnIs : Nat.ofDigitChars 10 place.column 0 - 1 = 4294967294 :=
      placedAt.startColumn.symm
    rw [lineIs, columnIs] at placedAt
    exact ⟨_, found, placedAt⟩

end WorkspaceSync
