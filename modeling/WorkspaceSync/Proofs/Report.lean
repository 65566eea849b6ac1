/-
This file proves what becomes of a finding that is written in the format by
which findings are read.

With a path in front that has no colon, a finding is read as it was written: the
colon behind the path is the first one, and it has a place behind it, so that
nothing in the message matters. Without a path there is no such guard. The line
is read as it was written if and only if no colon of the message has a place
behind it; else everything up to that colon is taken for a path.
-/
import WorkspaceSync.Proofs.Finding

namespace WorkspaceSync.Lint

/-! ### Writing a place -/

/-- The digits of a number are a row of digits. -/
theorem decimal_toDigits (number : Nat) :
    Nat.toDigits 10 number ≠ [] ∧
      ∀ digit ∈ Nat.toDigits 10 number, Text.isDecimal digit = true := by
  refine ⟨Nat.toDigits_ne_nil, fun digit member => Text.isDecimal_of_isAsciiDigit digit ?_⟩
  exact Nat.isDigit_of_mem_toDigits (by decide) (by decide) member

/-- A word that is written counted from one is read as the word. -/
theorem ofDigitChars_succ {word : UInt32} (fits : word.toNat < 4294967295) :
    Nat.ofDigitChars 10 (Nat.toDigits 10 (word + 1).toNat) 0 = word.toNat + 1 := by
  rw [Nat.ofDigitChars_toDigits (by decide) (by decide), UInt32.toNat_add]
  exact Nat.mod_eq_of_lt (Nat.succ_lt_succ fits)

theorem not_mem_toDigits {character : Char} (noDigit : character.isDigit = false) (number : Nat) :
    character ∉ Nat.toDigits 10 number := by
  intro member
  rw [Nat.isDigit_of_mem_toDigits (by decide) (by decide) member] at noDigit
  exact Bool.noConfusion noDigit

/-- The place of a finding with a message. -/
def written (number column : Nat) (message : List Char) : Place :=
  ⟨Nat.toDigits 10 number, Nat.toDigits 10 column, ' ' :: message⟩

theorem valid_written (number column : Nat) (message : List Char) :
    (written number column message).Valid :=
  ⟨decimal_toDigits number, decimal_toDigits column, List.cons_ne_nil _ _⟩

/-! ### One line -/

theorem finding?_congr {line other : List Char} (same : Text.trimEnd line = Text.trimEnd other)
    (root file : Path) : finding? root file line = finding? root file other := by
  rw [finding?, finding?, same]

/-- A text of one line has the findings of that line. -/
theorem findings_of_no_newline {text : String} (oneLine : '\n' ∉ text.toList) (root file : Path) :
    findings root file text = (finding? root file text.toList).toList := by
  rw [findings]
  cases shape : text.toList with
  | nil => rfl
  | cons character rest =>
    rw [shape] at oneLine
    rw [Text.lines_of_no_newline oneLine, List.filterMap_eq_flatMap_toList, List.flatMap_singleton]

/-- The findings of a first line come before those of the rest. -/
theorem findings_append_newline {first : String} (oneLine : '\n' ∉ first.toList) (later : String)
    (root file : Path) :
    findings root file (first ++ "\n" ++ later) =
      (finding? root file first.toList).toList ++ findings root file later := by
  obtain ⟨line, cut, same⟩ := Text.lines_append_newline oneLine later.toList
  have joined : (first ++ "\n" ++ later).toList = first.toList ++ '\n' :: later.toList := by
    simp [String.toList_append]
  rw [findings, joined, cut, ← finding?_congr same root file]
  cases made : finding? root file line with
  | none =>
    rw [List.filterMap_cons_none made, Option.toList_none, List.nil_append]
    rfl
  | some diagnostic =>
    rw [List.filterMap_cons_some made, Option.toList_some, List.singleton_append]
    rfl

/-! ### Findings with a path -/

/-- The part of a finding before its rest is not touched by trimming. -/
theorem trimEnd_append_text (before : List Char) {place : Place}
    (nonblank : Text.trimEnd place.rest ≠ []) :
    Text.trimEnd (before ++ place.text) =
      before ++ Place.text { place with rest := Text.trimEnd place.rest } := by
  have cut (rest : List Char) : before ++ Place.text { place with rest := rest } =
      (before ++ place.line ++ ':' :: (place.column ++ [':'])) ++ rest := by
    simp [Place.text]
  rw [cut place.rest, Text.trimEnd_append, if_neg nonblank, cut]

/-- A path without colons in front of a place is read as the path. -/
theorem reads_append {path : List Char} {place : Place} (nonempty : path ≠ [])
    (noColon : ':' ∉ path) (valid : place.Valid) :
    Reads (path ++ ':' :: place.text) (some path) place := by
  have splits : SplitsAt (path ++ ':' :: place.text) path.length place :=
    ⟨⟨valid, List.drop_left⟩, List.length_pos_iff.mpr nonempty⟩
  have shortest : ∀ earlier < path.length, ∀ other,
      ¬ SplitsAt (path ++ ':' :: place.text) earlier other := by
    intro earlier less other otherSplits
    obtain ⟨further, rfl, -⟩ := otherSplits.of_append noColon
    omega
  have reads := Reads.named splits shortest
  rwa [List.take_left] at reads

theorem pointsAt_iff_of_absolute {path : Path} (absolute : path.isAbsolute = true)
    (root file : Path) : PointsAt root file path.text.toList ↔ path.Same file := by
  have start : path.text.toList.head? = some '/' := by simpa [Path.isAbsolute] using absolute
  have notDash : path.text.toList ≠ ['-'] := by
    intro dash
    rw [dash] at start
    exact absurd start (by decide)
  have notInput : path.text.toList ≠ "<stdin>".toList := by
    intro input
    rw [input] at start
    exact absurd start (by decide)
  rw [PointsAt, String.ofList_toList, if_pos absolute]
  simp only [notDash, notInput, false_or]

/-- A remark that fits one line of a report: the line can be told apart into its parts, and the
numbers in it do not overflow. -/
structure Reportable (diagnostic : Diagnostic) : Prop where
  absolute : diagnostic.file.isAbsolute = true
  noColon : ':' ∉ diagnostic.file.text.toList
  fileOneLine : '\n' ∉ diagnostic.file.text.toList
  messageOneLine : '\n' ∉ diagnostic.message.toList
  line : diagnostic.span.startLine.toNat < 4294967295
  column : diagnostic.span.startColumn.toNat < 4294967295

/-- What a report says behind its positions. -/
def said (diagnostic : Diagnostic) : String :=
  diagnostic.severity.word ++ ": " ++ diagnostic.message

/-- The place that a report gives. -/
def reported (diagnostic : Diagnostic) : Place :=
  written (diagnostic.span.startLine + 1).toNat (diagnostic.span.startColumn + 1).toNat
    (said diagnostic).toList

theorem toList_report (diagnostic : Diagnostic) :
    diagnostic.report.toList =
      diagnostic.file.text.toList ++ ':' :: (reported diagnostic).text := by
  simp [Diagnostic.report, reported, written, said, Place.text, Text.decimalText,
    String.toList_append]

/-- The remark that a report is read back as. -/
def readBack (file : Path) (diagnostic : Diagnostic) : Diagnostic :=
  { file
    message := String.ofList (Text.trim (said diagnostic).toList)
    severity := .warning
    span := .onLine diagnostic.span.startLine diagnostic.span.startColumn 1
    source := some findingSource }

/-- The word for the severity keeps a report from being blank behind its positions. -/
theorem trimEnd_reported_ne_nil (diagnostic : Diagnostic) :
    Text.trimEnd (reported diagnostic).rest ≠ [] := by
  have spoken : ¬ diagnostic.severity.word.toList.all Text.isBlank = true := by
    cases diagnostic.severity <;> decide
  intro blank
  refine spoken (List.all_eq_true.mpr fun letter member => ?_)
  refine Text.trimEnd_eq_nil_iff.mp blank letter ?_
  simp [reported, written, said, String.toList_append, member]

/-- A report is read as a finding with the path of the file in front. -/
theorem Reportable.reads {diagnostic : Diagnostic} (reportable : Reportable diagnostic) :
    Reads (Text.trimEnd diagnostic.report.toList) (some diagnostic.file.text.toList)
      { reported diagnostic with rest := Text.trimEnd (reported diagnostic).rest } := by
  have spoken := trimEnd_reported_ne_nil diagnostic
  have nonempty : diagnostic.file.text.toList ≠ [] := by
    intro empty
    have absolute := reportable.absolute
    rw [Path.isAbsolute, empty] at absolute
    exact Bool.noConfusion absolute
  rw [toList_report, List.append_cons, trimEnd_append_text _ spoken, ← List.append_cons]
  exact reads_append nonempty reportable.noColon
    ⟨decimal_toDigits _, decimal_toDigits _, spoken⟩

theorem Reportable.remark_eq {diagnostic : Diagnostic} (reportable : Reportable diagnostic)
    (file : Path) :
    remark file { reported diagnostic with rest := Text.trimEnd (reported diagnostic).rest } =
      readBack file diagnostic := by
  have trimmed : Text.trim (Text.trimEnd (reported diagnostic).rest) =
      Text.trim (said diagnostic).toList := by
    rw [Text.trim_trimEnd]
    rfl
  have line : UInt32.ofNat (Nat.ofDigitChars 10 (reported diagnostic).line 0 - 1) =
      diagnostic.span.startLine := by
    rw [reported, written, ofDigitChars_succ reportable.line, Nat.add_sub_cancel,
      UInt32.ofNat_toNat]
  have column : UInt32.ofNat (Nat.ofDigitChars 10 (reported diagnostic).column 0 - 1) =
      diagnostic.span.startColumn := by
    rw [reported, written, ofDigitChars_succ reportable.column, Nat.add_sub_cancel,
      UInt32.ofNat_toNat]
  rw [remark, readBack, trimmed, line, column]

/-- A report makes a remark on its own file and none on any other. -/
theorem Reportable.finding?_report {diagnostic : Diagnostic} (reportable : Reportable diagnostic)
    (root file : Path) :
    finding? root file diagnostic.report.toList =
      if diagnostic.file.Same file then some (readBack file diagnostic) else none := by
  have points : (∀ named, some diagnostic.file.text.toList = some named →
      PointsAt root file named) ↔ diagnostic.file.Same file := by
    simp only [Option.some.injEq, forall_eq', pointsAt_iff_of_absolute reportable.absolute]
  have isWord (word : UInt32) : Text.IsWord (Nat.toDigits 10 word.toNat) :=
    Text.isWord_toDigits (Nat.le_of_lt_succ word.toNat_lt)
  split
  · next same =>
    exact reportable.reads.finding?_eq_some_iff.mpr
      ⟨points.mpr same, ⟨isWord _, isWord _⟩, (reportable.remark_eq file).symm⟩
  · next different =>
    exact reportable.reads.finding?_eq_none fun fit => different (points.mp fit.1)

theorem Reportable.oneLine {diagnostic : Diagnostic} (reportable : Reportable diagnostic) :
    '\n' ∉ diagnostic.report.toList := by
  have word : '\n' ∉ diagnostic.severity.word.toList := by
    cases diagnostic.severity <;> decide
  have digits (number : Nat) : '\n' ∉ Nat.toDigits 10 number := not_mem_toDigits (by decide) number
  rw [toList_report]
  simp [reported, written, said, Place.text, String.toList_append, word, digits,
    reportable.fileOneLine, reportable.messageOneLine]

/-- Reports of remarks, one a line, are read back as one remark for each of those on the linted
file, in their order and at their positions, and as nothing for the others. -/
theorem findings_read_back_reports (root file : Path) (diagnostics : List Diagnostic)
    (reportable : ∀ diagnostic ∈ diagnostics, Reportable diagnostic) :
    findings root file ("\n".intercalate (diagnostics.map Diagnostic.report)) =
      (diagnostics.filter fun diagnostic => diagnostic.file.Same file).map fun diagnostic =>
        { file
          message := String.ofList
            (Text.trim (diagnostic.severity.word ++ ": " ++ diagnostic.message).toList)
          severity := .warning
          span := .onLine diagnostic.span.startLine diagnostic.span.startColumn 1
          source := some "gunk-lint" } := by
  change _ = (diagnostics.filter fun diagnostic => diagnostic.file.Same file).map (readBack file)
  induction diagnostics with
  | nil => rfl
  | cons first later inductionHypothesis =>
    obtain ⟨firstReportable, laterReportable⟩ := List.forall_mem_cons.mp reportable
    have split : ((first :: later).filter fun diagnostic => diagnostic.file.Same file).map
          (readBack file) =
        (finding? root file first.report.toList).toList ++
          (later.filter fun diagnostic => diagnostic.file.Same file).map (readBack file) := by
      rw [firstReportable.finding?_report, List.filter_cons]
      by_cases same : first.file.Same file
      · simp [same]
      · simp [same]
    rw [split, ← inductionHypothesis laterReportable]
    cases later with
    | nil =>
      have nothing : findings root file "" = [] := rfl
      rw [List.map_singleton, String.intercalate_singleton, List.map_nil, String.intercalate_nil,
        nothing, List.append_nil]
      exact findings_of_no_newline firstReportable.oneLine root file
    | cons next others =>
      rw [List.map_cons, List.map_cons, String.intercalate_cons_cons]
      exact findings_append_newline firstReportable.oneLine _ root file

/-- Two remarks on one file in two spellings, with a message that looks like a place and with no
message, around a remark on another file at the last position. -/
def threeRemarks : List Diagnostic :=
  [⟨⟨"/ws//a.gunk"⟩, "see b:1:2: c\r", .error, ⟨2, 4, 2, 7⟩, none⟩,
    ⟨⟨"/ws/b.gunk"⟩, "x", .info, ⟨4294967294, 4294967294, 0, 0⟩, none⟩,
    ⟨⟨"/ws/a.gunk"⟩, "", .hint, ⟨0, 0, 0, 0⟩, some "gunk"⟩]

theorem findings_read_back_reports_respelled :
    (∀ diagnostic ∈ threeRemarks, Reportable diagnostic) ∧
      findings ⟨"/ws"⟩ ⟨"/ws/./a.gunk"⟩ ("\n".intercalate (threeRemarks.map Diagnostic.report)) =
        [⟨⟨"/ws/./a.gunk"⟩, "error: see b:1:2: c", .warning, .onLine 2 4 1, some "gunk-lint"⟩,
          ⟨⟨"/ws/./a.gunk"⟩, "hint:", .warning, .onLine 0 0 1, some "gunk-lint"⟩] := by
  have reportable : ∀ diagnostic ∈ threeRemarks, Reportable diagnostic := by
    intro diagnostic member
    simp only [threeRemarks, List.mem_cons, List.not_mem_nil, or_false] at member
    rcases member with rfl | rfl | rfl
    · exact ⟨by decide, by decide, by decide, by decide, by decide, by decide⟩
    · exact ⟨by decide, by decide, by decide, by decide, by decide, by decide⟩
    · exact ⟨by decide, by decide, by decide, by decide, by decide, by decide⟩
  refine ⟨reportable, (findings_read_back_reports _ _ _ reportable).trans ?_⟩
  decide +kernel

/-! ### Findings without a path -/

/-- What stands before the message of a finding that is written without a path. -/
def heading (number column : Nat) : List Char :=
  Nat.toDigits 10 number ++ ':' :: (Nat.toDigits 10 column ++ [':', ' '])

theorem text_written (number column : Nat) (message : List Char) :
    (written number column message).text = heading number column ++ message := by
  simp [written, heading, Place.text]

/-- A finding without a path has only the one line. -/
theorem findings_heading {message : String} (oneLine : '\n' ∉ message.toList)
    (root file : Path) (number column : Nat) :
    findings root file
        (Text.decimalText number ++ ":" ++ Text.decimalText column ++ ": " ++ message) =
      (finding? root file (heading number column ++ message.toList)).toList := by
  have output : (Text.decimalText number ++ ":" ++ Text.decimalText column ++ ": " ++
      message).toList = heading number column ++ message.toList := by
    simp [Text.decimalText, heading, String.toList_append]
  have digits (value : Nat) : '\n' ∉ Nat.toDigits 10 value := not_mem_toDigits (by decide) value
  rw [findings_of_no_newline, output]
  rw [output]
  simp [heading, digits, oneLine]

/-- No number starts at the space before a message. -/
theorem number?_space (message : List Char) : Place.number? (' ' :: message) = none := by
  have noDigit : ¬ Text.isDecimal ' ' = true := by decide
  rw [Place.number?, List.takeWhile_cons_of_neg noDigit]

/-- The colons of the heading have no place behind them, so that the line can be cut only within
the message. -/
theorem splitsAt_heading_iff {number column index : Nat} {message : List Char} {place : Place} :
    SplitsAt (heading number column ++ message) index place ↔
      ∃ further, index = (heading number column).length + further ∧
        PlaceBehind message further place := by
  constructor
  · intro splits
    have behind := splits.toPlaceBehind
    have noColon (value : Nat) : ':' ∉ Nat.toDigits 10 value := not_mem_toDigits (by decide) value
    have afterColumn : Place.read? (' ' :: message) = none := by
      rw [Place.read?, number?_space]
      rfl
    have afterNumber : Place.read? (Nat.toDigits 10 column ++ ':' :: ' ' :: message) = none := by
      rw [Place.read?, Place.number?_eq_some_iff.mpr ⟨decimal_toDigits column, rfl⟩]
      simp only [Option.bind_eq_bind, Option.bind_some, number?_space, Option.bind_none]
    -- The search passes the heading part by part: digits, colon, digits, colon, space.
    rw [heading, List.append_assoc, List.cons_append, List.append_assoc] at behind
    obtain ⟨_, rfl, fromColon⟩ := behind.of_append (noColon number)
    obtain ⟨_, rfl, fromColumn⟩ := fromColon.of_cons fun _ => afterNumber
    obtain ⟨_, rfl, fromSecond⟩ := fromColumn.of_append (noColon column)
    obtain ⟨_, rfl, fromSpace⟩ := fromSecond.of_cons fun _ => afterColumn
    obtain ⟨further, rfl, fromMessage⟩ := fromSpace.of_cons fun colon => absurd colon (by decide)
    refine ⟨further, ?_, fromMessage⟩
    simp only [heading, List.length_append, List.length_cons, List.length_nil]
    omega
  · rintro ⟨further, rfl, behind⟩
    refine ⟨(placeBehind_append _ _ _ _).mpr behind, ?_⟩
    simp only [heading, List.length_append, List.length_cons]
    omega

/-- A line that is cut within its message leaves less than the message behind the cut. -/
theorem Reads.length_rest_lt {number column : Nat} {message : List Char}
    {path : Option (List Char)} {place : Place}
    (reads : Reads (heading number column ++ message) path place)
    (cut : ∃ index other, PlaceBehind message index other) :
    place.rest.length < message.length := by
  cases reads with
  | named splits _ =>
    obtain ⟨further, -, behind⟩ := splitsAt_heading_iff.mp splits
    have lengths := congrArg List.length behind.shape
    rw [List.length_drop, List.length_cons, Place.text, List.length_append, List.length_cons,
      List.length_append, List.length_cons] at lengths
    omega
  | bare whole _ _ =>
    obtain ⟨index, other, behind⟩ := cut
    exact absurd (splitsAt_heading_iff.mpr ⟨index, rfl, behind⟩) (whole _ other)

/-- A message that does not begin with a colon is cut wherever a place stands behind a colon. -/
theorem splitsAt_iff_of_head {message : List Char} {first : Char}
    (begins : message.head? = some first) (noColon : first ≠ ':') {index : Nat} {place : Place} :
    SplitsAt message index place ↔ PlaceBehind message index place := by
  refine ⟨SplitsAt.toPlaceBehind, fun behind => ⟨behind, ?_⟩⟩
  obtain ⟨rest, rfl⟩ := List.head?_eq_some_iff.mp begins
  obtain ⟨further, rfl, -⟩ := behind.of_cons fun colon => absurd colon noColon
  exact Nat.le_add_left 1 further

section Bare

variable {number column : Nat} {message : List Char}

theorem trimEnd_heading (trimmed : Text.trim message = message) (nonempty : message ≠ []) :
    Text.trimEnd (heading number column ++ message) = heading number column ++ message := by
  have ends : Text.trimEnd message = message := by
    rw [← trimmed, Text.trim, Text.trimEnd_trimEnd]
  rw [Text.trimEnd_append, ends, if_neg nonempty]

/-- What is made of a line that is cut within its message does not have the message. -/
theorem message_ne_of_cut (trimmed : Text.trim message = message) (nonempty : message ≠ [])
    (cut : ∃ index other, PlaceBehind message index other) {root file : Path}
    {diagnostic : Diagnostic}
    (found : finding? root file (heading number column ++ message) = some diagnostic) :
    diagnostic.message ≠ String.ofList message := by
  by_cases read : ∃ path place,
      Reads (Text.trimEnd (heading number column ++ message)) path place
  · obtain ⟨path, place, reads⟩ := read
    obtain ⟨-, -, rfl⟩ := reads.finding?_eq_some_iff.mp found
    rw [trimEnd_heading trimmed nonempty] at reads
    have shorter := reads.length_rest_lt cut
    intro same
    have trimmedRest : Text.trim place.rest = message := String.ofList_inj.mp same
    have least := Text.length_trim_le place.rest
    rw [trimmedRest] at least
    omega
  · rw [finding?_eq_none read] at found
    exact absurd found (by simp)

/-- A line that cannot be cut within its message makes the remark that was written. -/
theorem finding?_of_whole (trimmed : Text.trim message = message) (nonempty : message ≠ [])
    (numberFits : 1 ≤ number ∧ number ≤ 4294967295) (columnFits : 1 ≤ column ∧ column ≤ 4294967295)
    (whole : ¬ ∃ index other, PlaceBehind message index other) (root file : Path) :
    ∃ span, finding? root file (heading number column ++ message) =
        some ⟨file, String.ofList message, .warning, span, some findingSource⟩ ∧
      span.Covers (number - 1) (column - 1) column := by
  have reads : Reads (Text.trimEnd (heading number column ++ message)) none
      (written number column message) := by
    rw [trimEnd_heading trimmed nonempty]
    refine .bare ?_ (valid_written number column message) (text_written number column message).symm
    intro index other splits
    obtain ⟨further, -, behind⟩ := splitsAt_heading_iff.mp splits
    exact whole ⟨further, other, behind⟩
  have numberWord : Text.IsWord (written number column message).line :=
    Text.isWord_toDigits numberFits.2
  have columnWord : Text.IsWord (written number column message).column :=
    Text.isWord_toDigits columnFits.2
  have reread (value : Nat) : Nat.ofDigitChars 10 (Nat.toDigits 10 value) 0 = value :=
    Nat.ofDigitChars_toDigits (by decide) (by decide)
  have covers := covers_remark file (written number column message) numberWord columnWord
  simp only [written, reread, Nat.sub_add_cancel columnFits.1] at covers
  have unspaced : Text.trim (' ' :: message) = message := trimmed
  refine ⟨_, ?_, covers⟩
  refine reads.finding?_eq_some_iff.mpr
    ⟨fun named isNamed => absurd isNamed (by simp), ⟨numberWord, columnWord⟩, ?_⟩
  simp only [remark, written, unspaced]

end Bare

/-- A finding without a path is read as it was written if and only if no colon of its message has a
place behind it. The message may say anything else; it only has to fit a line, to have no blanks
around it, and to begin, as with a letter, with no colon. -/
theorem bare_finding_kept_iff (root file : Path) (number column : Nat) (message : String)
    (numberFits : 1 ≤ number ∧ number ≤ 4294967295) (columnFits : 1 ≤ column ∧ column ≤ 4294967295)
    (oneLine : '\n' ∉ message.toList) (trimmed : Text.trim message.toList = message.toList)
    (start : ∃ first, message.toList.head? = some first ∧ first ≠ ':') :
    (∃ span,
        findings root file
            (Text.decimalText number ++ ":" ++ Text.decimalText column ++ ": " ++ message) =
          [⟨file, message, .warning, span, some "gunk-lint"⟩] ∧
        span.Covers (number - 1) (column - 1) column) ↔
      ¬ ∃ index place, SplitsAt message.toList index place := by
  obtain ⟨first, begins, noColon⟩ := start
  have nonempty : message.toList ≠ [] := by
    intro empty
    rw [empty] at begins
    exact absurd begins (by simp)
  simp only [findings_heading oneLine, splitsAt_iff_of_head begins noColon]
  constructor
  · rintro ⟨span, kept, -⟩ cut
    have found := Option.toList_eq_singleton_iff.mp kept
    exact message_ne_of_cut trimmed nonempty cut found String.ofList_toList.symm
  · intro whole
    obtain ⟨span, found, covers⟩ :=
      finding?_of_whole trimmed nonempty numberFits columnFits whole root file
    rw [String.ofList_toList] at found
    refine ⟨span, ?_, covers⟩
    rw [found]
    rfl

/-- A message with colons and numbers, but without two numbers in a row, at the last position. -/
theorem bare_finding_kept_iff_colons :
    ∃ span, findings ⟨"/ws"⟩ ⟨"/ws/a.gunk"⟩ "4294967295:4294967295: see b.gunk:3: ratio 1:2" =
        [⟨⟨"/ws/a.gunk"⟩, "see b.gunk:3: ratio 1:2", .warning, span, some "gunk-lint"⟩] ∧
      span.Covers 4294967294 4294967294 4294967295 :=
  (bare_finding_kept_iff ⟨"/ws"⟩ ⟨"/ws/a.gunk"⟩ 4294967295 4294967295 "see b.gunk:3: ratio 1:2"
    (by decide) (by decide) (by decide) (by decide +kernel) ⟨'s', by decide, by decide⟩).mpr
    (by decide +kernel)

/-- A message that mentions a position of another file: the finding is lost. -/
theorem bare_finding_lost :
    let message := "see b.gunk:3:4: first use"
    ('\n' ∉ message.toList ∧ Text.trim message.toList = message.toList ∧
      message.toList.head?.any Char.isAlpha = true) ∧
    findings ⟨"/ws"⟩ ⟨"/ws/a.gunk"⟩ ("1:2: " ++ message) = [] := by
  decide +kernel

end WorkspaceSync.Lint
