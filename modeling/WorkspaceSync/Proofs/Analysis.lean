/-
This file proves which files an analysis reports on.

The analysis walks over the files of a package with the declaration in force,
so that what it says of a file seems to hang on all files before it. It does
not: before the first clause no verdict needs a declaration, the file with that
clause agrees with itself, and from there on the declaration stays as it is. So
every file is judged by the first clause of the whole package (`run_eq`), and
what is said of the errors as a list follows from what is said of one verdict.
-/
import Mathlib.Data.List.Basic
import WorkspaceSync.Analysis
import WorkspaceSync.Proofs.PathMap

namespace WorkspaceSync

/-! ### What a file says -/

namespace SourceFile

/-- What a file is read as: its text, or the reason why there is none. -/
def reading (file : SourceFile) : Except String String :=
  match file.readError with
  | some reason => .error reason
  | none => .ok file.text

/-- The clause of a file that can be read and has one. -/
def clause? (file : SourceFile) : Option Clause :=
  match file.reading with
  | .error _ => none
  | .ok text =>
    match Header.scan text with
    | .found clause => some clause
    | _ => none

theorem clause?_eq_some_iff (file : SourceFile) (clause : Clause) :
    file.clause? = some clause ↔
      file.readError = none ∧ Header.scan file.text = .found clause := by
  unfold clause? reading
  cases file.readError with
  | some reason => simp
  | none =>
    cases header : Header.scan file.text with
    | missing => simp [header]
    | malformed line text => simp [header]
    | found other => simp [header]

end SourceFile

namespace Analysis

/-- What a file declares. -/
def declares? (entry : Path × SourceFile) : Option Declaration :=
  entry.2.clause?.map fun clause => ⟨clause.name, entry.1⟩

/-- The first declaration of a row of files. -/
def first? (entries : List (Path × SourceFile)) : Option Declaration :=
  entries.findSome? declares?

theorem declares?_congr {left right : Path × SourceFile} (samePath : left.1 = right.1)
    (sameReading : left.2.reading = right.2.reading) : declares? left = declares? right := by
  rw [declares?, declares?, SourceFile.clause?, SourceFile.clause?, samePath, sameReading]

theorem first?_cons (entry : Path × SourceFile) (later : List (Path × SourceFile)) :
    first? (entry :: later) = (declares? entry).or (first? later) := by
  rw [first?, List.findSome?_cons]
  cases declares? entry <;> rfl

/-- A row with a clause in it has a first one. -/
theorem exists_first? {entries : List (Path × SourceFile)} {entry : Path × SourceFile}
    {clause : Clause} (member : entry ∈ entries) (declaring : entry.2.clause? = some clause) :
    ∃ declaration, first? entries = some declaration := by
  rw [← Option.isSome_iff_exists, first?, List.isSome_findSome?, List.any_eq_true]
  exact ⟨entry, member, by rw [declares?, declaring]; rfl⟩

/-- The first declaration is one that some file makes. -/
theorem exists_of_first? {entries : List (Path × SourceFile)} {declaration : Declaration}
    (first : first? entries = some declaration) :
    ∃ entry ∈ entries, ∃ clause, entry.2.clause? = some clause ∧
      declaration = ⟨clause.name, entry.1⟩ := by
  obtain ⟨entry, member, declares⟩ := List.exists_of_findSome?_eq_some first
  obtain ⟨clause, declaring, rfl⟩ := Option.map_eq_some_iff.mp declares
  exact ⟨entry, member, clause, declaring, rfl⟩

/-! ### The verdict on a file -/

/-- The error of a file, if it has one, where a declaration is in force. -/
def verdict? (declared : Option Declaration) (entry : Path × SourceFile) : Option Diagnostic :=
  match entry.2.reading with
  | .error reason => some (errorAt entry.1 .start ("could not read file: " ++ reason))
  | .ok text =>
    match Header.scan text with
    | .missing => some (errorAt entry.1 .start "missing package clause")
    | .malformed line found =>
      some (errorAt entry.1 (.onLine line 0 (UInt32.ofNat (Text.width found.toList)))
        ("expected package clause, found `" ++ found ++ "`"))
    | .found clause =>
      declared.bind fun declaration =>
        if clause.name = declaration.name then none
        else some (mismatch declaration entry.1 clause)

theorem verdict?_of_clause {entry : Path × SourceFile} {clause : Clause}
    (declaring : entry.2.clause? = some clause) (declared : Option Declaration) :
    verdict? declared entry = declared.bind fun declaration =>
      if clause.name = declaration.name then none
      else some (mismatch declaration entry.1 clause) := by
  obtain ⟨readable, found⟩ := (entry.2.clause?_eq_some_iff clause).mp declaring
  rw [verdict?, SourceFile.reading, readable]
  simp only [found]

/-- A file without a clause has an error, whatever is declared. -/
theorem verdict?_of_no_clause {entry : Path × SourceFile} (silent : entry.2.clause? = none) :
    ∃ error, ∀ declared, verdict? declared entry = some error := by
  unfold SourceFile.clause? at silent
  unfold verdict?
  cases reading : entry.2.reading with
  | error reason => exact ⟨_, fun _ => rfl⟩
  | ok text =>
    rw [reading] at silent
    cases header : Header.scan text with
    | missing =>
      simp only [header]
      exact ⟨_, fun _ => rfl⟩
    | malformed line found =>
      simp only [header]
      exact ⟨_, fun _ => rfl⟩
    | found clause => simp [header] at silent

/-- The declaration that a file itself would set in force is the last one that counts for its
verdict. -/
theorem verdict?_or (declared later : Option Declaration) (entry : Path × SourceFile) :
    verdict? ((declared.or (declares? entry)).or later) entry =
      verdict? (declared.or (declares? entry)) entry := by
  cases declaring : entry.2.clause? with
  | none =>
    obtain ⟨error, always⟩ := verdict?_of_no_clause declaring
    rw [always, always]
  | some clause =>
    have declares : declares? entry = some ⟨clause.name, entry.1⟩ := by
      rw [declares?, declaring]
      rfl
    rw [declares, Option.or_assoc, Option.some_or]

/-- A verdict is an error of the analysis on the file itself. -/
theorem verdict?_eq_some {declared : Option Declaration} {entry : Path × SourceFile}
    {error : Diagnostic} (judged : verdict? declared entry = some error) :
    error.file = entry.1 ∧ error.severity = .error ∧ error.source = some source := by
  unfold verdict? at judged
  split at judged
  · rw [← Option.some.inj judged]
    exact ⟨rfl, rfl, rfl⟩
  · split at judged
    · rw [← Option.some.inj judged]
      exact ⟨rfl, rfl, rfl⟩
    · rw [← Option.some.inj judged]
      exact ⟨rfl, rfl, rfl⟩
    · obtain ⟨declaration, -, judged⟩ := Option.bind_eq_some_iff.mp judged
      split at judged
      · exact absurd judged (by simp)
      · rw [← Option.some.inj judged]
        exact ⟨rfl, rfl, rfl⟩

/-- A verdict depends on the path of a file and on what it is read as. -/
theorem verdict?_congr {left right : Path × SourceFile} (samePath : left.1 = right.1)
    (sameReading : left.2.reading = right.2.reading) (declared : Option Declaration) :
    verdict? declared left = verdict? declared right := by
  rw [verdict?, verdict?, samePath, sameReading]

/-! ### A row of files -/

/-- One file adds its verdict, under the declaration that is in force once the file is read. -/
theorem run_cons (declared : Option Declaration) (entry : Path × SourceFile)
    (later : List (Path × SourceFile)) :
    run declared (entry :: later) =
      ((run (declared.or (declares? entry)) later).1,
        (verdict? (declared.or (declares? entry)) entry).toList ++
          (run (declared.or (declares? entry)) later).2) := by
  obtain ⟨path, file⟩ := entry
  rw [run, verdict?, declares?, SourceFile.clause?, SourceFile.reading]
  cases file.readError with
  | some reason => simp
  | none =>
    cases header : Header.scan file.text with
    | missing => simp [header]
    | malformed line text => simp [header]
    | found clause =>
      cases declared with
      | none => simp [header]
      | some declaration =>
        by_cases agrees : clause.name = declaration.name
        · simp [header, agrees]
        · simp [header, agrees]

/-- Every file is judged by the first declaration of the whole row. -/
theorem run_eq (declared : Option Declaration) (entries : List (Path × SourceFile)) :
    run declared entries =
      (declared.or (first? entries),
        entries.filterMap (verdict? (declared.or (first? entries)))) := by
  induction entries generalizing declared with
  | nil => rw [run, first?, List.findSome?_nil, Option.or_none, List.filterMap_nil]
  | cons entry later inductionHypothesis =>
    rw [run_cons, inductionHypothesis, first?_cons, ← Option.or_assoc]
    -- The later files may declare something else, which comes too late for this one.
    have own := verdict?_or declared (first? later) entry
    cases judged : verdict? (declared.or (declares? entry)) entry with
    | none => rw [List.filterMap_cons_none (own.trans judged), Option.toList_none, List.nil_append]
    | some error => rw [List.filterMap_cons_some (own.trans judged), Option.toList_some,
        List.singleton_append]

/-- The analysis reports only on the files it is given. -/
theorem exists_of_mem_run {declared : Option Declaration} {entries : List (Path × SourceFile)}
    {diagnostic : Diagnostic} (member : diagnostic ∈ (run declared entries).2) :
    ∃ entry ∈ entries, diagnostic.file = entry.1 := by
  rw [run_eq] at member
  obtain ⟨entry, inEntries, judged⟩ := List.mem_filterMap.mp member
  exact ⟨entry, inEntries, (verdict?_eq_some judged).1⟩

/-- The analysis sees of a file only its path and what it is read as. -/
theorem run_congr (declared : Option Declaration) {left right : List (Path × SourceFile)}
    (same : (left.map fun entry => (entry.1, entry.2.reading)) =
      right.map fun entry => (entry.1, entry.2.reading)) :
    run declared left = run declared right := by
  induction left generalizing right declared with
  | nil =>
    rw [List.map_nil, eq_comm, List.map_eq_nil_iff] at same
    rw [same]
  | cons entry later inductionHypothesis =>
    cases right with
    | nil => exact absurd same (by simp)
    | cons other others =>
      rw [List.map_cons, List.map_cons, List.cons.injEq, Prod.mk.injEq] at same
      obtain ⟨⟨samePath, sameReading⟩, sameLater⟩ := same
      rw [run_cons, run_cons, declares?_congr samePath sameReading,
        verdict?_congr samePath sameReading, inductionHypothesis _ sameLater]

end Analysis

namespace Package

open Analysis

/-- A file that does not agree with the name of its package: it cannot be read, it has no clause,
or its clause gives another name. -/
def Disagrees (name : Option String) (file : SourceFile) : Prop :=
  file.readError ≠ none ∨ Header.scan file.text = .missing ∨
    (∃ line text, Header.scan file.text = .malformed line text) ∨
      ∃ clause, Header.scan file.text = .found clause ∧ name ≠ some clause.name

theorem disagrees_of_no_clause {name : Option String} {file : SourceFile}
    (silent : file.clause? = none) : Disagrees name file := by
  unfold SourceFile.clause? SourceFile.reading at silent
  cases readable : file.readError with
  | some reason => exact .inl (by rw [readable]; simp)
  | none =>
    rw [readable] at silent
    cases header : Header.scan file.text with
    | missing => exact .inr (.inl header)
    | malformed line text => exact .inr (.inr (.inl ⟨line, text, header⟩))
    | found clause => simp [header] at silent

/-- A file with a clause disagrees if and only if its clause gives another name. -/
theorem disagrees_iff_of_clause {name : Option String} {file : SourceFile} {clause : Clause}
    (declaring : file.clause? = some clause) : Disagrees name file ↔ name ≠ some clause.name := by
  obtain ⟨readable, found⟩ := (file.clause?_eq_some_iff clause).mp declaring
  simp [Disagrees, readable, found]

/-- The errors of an analysis are the verdicts on the files under the first declaration. -/
theorem analyzed_eq (package : Package) :
    package.analyzed =
      { package with
        name := (first? package.files.entries).map Declaration.name
        errors := package.files.entries.filterMap (verdict? (first? package.files.entries)) } := by
  rw [analyzed, run_eq, Option.none_or]

theorem mem_errors_analyzed {package : Package} {error : Diagnostic} :
    error ∈ package.analyzed.errors ↔
      ∃ entry ∈ package.files.entries,
        verdict? (first? package.files.entries) entry = some error := by
  rw [analyzed_eq, List.mem_filterMap]

/-- A file has a verdict if and only if it disagrees with the name of the package. -/
theorem exists_verdict?_iff {entries : List (Path × SourceFile)} {entry : Path × SourceFile}
    (member : entry ∈ entries) :
    (∃ error, verdict? (first? entries) entry = some error) ↔
      Disagrees ((first? entries).map Declaration.name) entry.2 := by
  cases declaring : entry.2.clause? with
  | none =>
    obtain ⟨error, always⟩ := verdict?_of_no_clause declaring
    exact ⟨fun _ => disagrees_of_no_clause declaring, fun _ => ⟨error, always _⟩⟩
  | some clause =>
    obtain ⟨declaration, first⟩ := exists_first? member declaring
    rw [disagrees_iff_of_clause declaring, verdict?_of_clause declaring, first, Option.bind_some,
      Option.map_some, ne_eq, Option.some.injEq]
    by_cases agrees : clause.name = declaration.name
    · simp [agrees]
    · simp [agrees, Ne.symm agrees]

/-- The error on a file is the verdict on it. -/
theorem verdict?_of_mem_errors {package : Package} {entry : Path × SourceFile}
    {error : Diagnostic} (member : entry ∈ package.files.entries)
    (reported : error ∈ package.analyzed.errors) (onFile : error.file = entry.1) :
    verdict? (first? package.files.entries) entry = some error := by
  obtain ⟨other, otherMember, judged⟩ := mem_errors_analyzed.mp reported
  have samePath : other.1 = entry.1 := (verdict?_eq_some judged).1.symm.trans onFile
  have same : other = entry :=
    package.files.entry_unique otherMember member (congrArg Path.key samePath)
  rwa [← same]

/-- The errors stand in strictly ascending order of their files. -/
theorem ascending_errors_analyzed (package : Package) :
    package.analyzed.errors.Pairwise fun left right => left.file.Before right.file := by
  rw [analyzed_eq]
  refine List.pairwise_filterMap.mpr (package.files.ascending.imp ?_)
  intro first second before left leftJudged right rightJudged
  rw [(verdict?_eq_some leftJudged).1, (verdict?_eq_some rightJudged).1]
  exact before

/-- There is an error on a file if and only if the file disagrees with the package. -/
theorem exists_error_iff {package : Package} {entry : Path × SourceFile}
    (member : entry ∈ package.files.entries) :
    (∃ error ∈ package.analyzed.errors, error.file = entry.1) ↔
      Disagrees package.analyzed.name entry.2 := by
  rw [analyzed_eq, ← exists_verdict?_iff member]
  constructor
  · rintro ⟨error, reported, onFile⟩
    rw [← analyzed_eq] at reported
    exact ⟨error, verdict?_of_mem_errors member reported onFile⟩
  · rintro ⟨error, judged⟩
    exact ⟨error, List.mem_filterMap.mpr ⟨entry, member, judged⟩, (verdict?_eq_some judged).1⟩

/-- There are no errors if and only if all files have clauses that give one name. -/
theorem errors_analyzed_eq_nil_iff (package : Package) :
    package.analyzed.errors = [] ↔
      ∃ name, ∀ entry ∈ package.files.entries,
        ∃ clause, entry.2.clause? = some clause ∧ clause.name = name := by
  constructor
  · intro noErrors
    refine ⟨package.analyzed.name.getD "", fun entry member => ?_⟩
    have agrees : ¬ Disagrees package.analyzed.name entry.2 := by
      rw [← exists_error_iff member, noErrors]
      simp
    cases declaring : entry.2.clause? with
    | none => exact absurd (disagrees_of_no_clause declaring) agrees
    | some clause =>
      rw [disagrees_iff_of_clause declaring, not_not] at agrees
      exact ⟨clause, rfl, by rw [agrees, Option.getD_some]⟩
  · rintro ⟨name, allDeclare⟩
    rw [List.eq_nil_iff_forall_not_mem]
    intro error reported
    obtain ⟨entry, member, judged⟩ := mem_errors_analyzed.mp reported
    obtain ⟨clause, declaring, named⟩ := allDeclare entry member
    obtain ⟨declaration, first⟩ := exists_first? member declaring
    obtain ⟨other, otherMember, otherClause, otherDeclaring, rfl⟩ := exists_of_first? first
    obtain ⟨_, again, otherNamed⟩ := allDeclare other otherMember
    obtain rfl := Option.some.inj (otherDeclaring.symm.trans again)
    rw [verdict?_of_clause declaring, first, Option.bind_some,
      if_pos (named.trans otherNamed.symm)] at judged
    exact absurd judged (by simp)

/-- An analysis reports exactly the files that disagree with the first clause of the package, each
of them once and in the order of their paths; what it says depends on nothing but the paths and
what the files are read as. -/
theorem analyzed_reports_disagreeing (package : Package) :
    let entries := package.files.entries
    let result := package.analyzed
    result.name = (first? entries).map Declaration.name ∧
    (result.errors.Pairwise fun left right => left.file.Before right.file) ∧
    (∀ error ∈ result.errors, error.file ∈ package.files.paths ∧ error.severity = .error ∧
      error.source = some "gunk") ∧
    (∀ entry ∈ entries, (∃ error ∈ result.errors, error.file = entry.1) ↔
      Disagrees result.name entry.2) ∧
    (∀ entry ∈ entries, ∀ clause, entry.2.clause? = some clause →
      ∀ error ∈ result.errors, error.file = entry.1 →
        ∃ declared, first? entries = some declared ∧ error.span = clause.span ∧
          error.message = "package " ++ clause.name ++ " does not match package " ++
            declared.name ++ " declared in " ++ shortName declared.file) ∧
    (result.errors = [] ↔ ∃ name, ∀ entry ∈ entries,
      ∃ clause, entry.2.clause? = some clause ∧ clause.name = name) ∧
    ∀ other : Package,
      (other.files.entries.map fun entry => (entry.1, entry.2.reading)) =
        (entries.map fun entry => (entry.1, entry.2.reading)) →
      other.analyzed.name = result.name ∧ other.analyzed.errors = result.errors := by
  intro entries result
  refine ⟨congrArg Package.name package.analyzed_eq, package.ascending_errors_analyzed, ?members,
    fun entry member => exists_error_iff member, ?mismatches, package.errors_analyzed_eq_nil_iff,
    ?congruence⟩
  case members =>
    intro error reported
    obtain ⟨entry, member, judged⟩ := mem_errors_analyzed.mp reported
    obtain ⟨onFile, severity, source⟩ := verdict?_eq_some judged
    rw [onFile]
    exact ⟨List.mem_map_of_mem member, severity, source⟩
  case mismatches =>
    intro entry member clause declaring error reported onFile
    have judged := verdict?_of_mem_errors member reported onFile
    rw [verdict?_of_clause declaring] at judged
    obtain ⟨declared, first, judged⟩ := Option.bind_eq_some_iff.mp judged
    split at judged
    · exact absurd judged (by simp)
    · rw [← Option.some.inj judged]
      exact ⟨declared, first, rfl, rfl⟩
  case congruence =>
    intro other same
    have sameRun := run_congr none same
    exact ⟨congrArg (fun outcome => outcome.1.map Declaration.name) sameRun,
      congrArg Prod.snd sameRun⟩

/-- A file that cannot be read, one without a clause, two that agree and one that does not, with
errors of an earlier analysis. -/
def quarrel : Package :=
  { Package.new ⟨"p"⟩ ⟨"/ws/p"⟩ with
    files :=
      { entries :=
          [(⟨"/ws/p/a.gunk"⟩, .unreadable "Permission denied"), (⟨"/ws/p/b.gunk"⟩, .ofDisk "// b"),
            (⟨"/ws/p/c.gunk"⟩, .ofEditor "package one"), (⟨"/ws/p/d.gunk"⟩, .ofDisk "package two"),
            (⟨"/ws/p/e.gunk"⟩, .ofDisk "package one")]
        ascending := by
          unfold Ascending
          decide +kernel }
    name := some "old"
    errors := [errorAt ⟨"/ws/p/e.gunk"⟩ .start "old"] }

theorem analyzed_reports_disagreeing_quarrel :
    quarrel.analyzed.name = some "one" ∧
      (∃ error ∈ quarrel.analyzed.errors, error.file = ⟨"/ws/p/d.gunk"⟩ ∧
        error.span = .onLine 0 8 3 ∧
        error.message = "package two does not match package one declared in c.gunk") ∧
      ¬ ∃ error ∈ quarrel.analyzed.errors, error.file = ⟨"/ws/p/e.gunk"⟩ := by
  have first : first? quarrel.files.entries = some ⟨"one", ⟨"/ws/p/c.gunk"⟩⟩ := by decide +kernel
  have two : SourceFile.clause? (.ofDisk "package two") = some ⟨"two", .onLine 0 8 3⟩ := by
    decide +kernel
  have one : SourceFile.clause? (.ofDisk "package one") = some ⟨"one", .onLine 0 8 3⟩ := by
    decide +kernel
  obtain ⟨name, -, -, reported, mismatched, -⟩ := analyzed_reports_disagreeing quarrel
  rw [first, Option.map_some] at name
  refine ⟨name, ?_, ?_⟩
  · have member : (⟨"/ws/p/d.gunk"⟩, .ofDisk "package two") ∈ quarrel.files.entries := by
      simp [quarrel]
    obtain ⟨error, inErrors, onFile⟩ := (reported _ member).mpr
      ((disagrees_iff_of_clause two).mpr (by rw [name]; decide))
    obtain ⟨declared, isFirst, span, message⟩ := mismatched _ member _ two error inErrors onFile
    obtain rfl := Option.some.inj (first.symm.trans isFirst)
    exact ⟨error, inErrors, onFile, span, message.trans (by decide +kernel)⟩
  · have member : (⟨"/ws/p/e.gunk"⟩, .ofDisk "package one") ∈ quarrel.files.entries := by
      simp [quarrel]
    rw [reported _ member, disagrees_iff_of_clause one, name, not_not]

end Package

end WorkspaceSync
