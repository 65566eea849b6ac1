/-
This file says what a round of a lint tool over the files of a package does.

A file that cannot be read is passed over. On the others the tool is run in the
order of their paths, until a run fails or takes too long. So the runs are made
on a first part of the readable files, and whatever is found is on those of
them whose runs came to their end (`Round.ofFiles_eq`). A path that a tool writes
in front of a finding cannot lead elsewhere, since a finding is always on the
file of its run.

Every file of a package is published anyway. Adding the findings of a tool to
what is published for a package therefore adds no file.
-/
import Mathlib.Data.List.TakeWhile
import WorkspaceSync.Proofs.Publication

namespace WorkspaceSync

/-- A linter that reports only on files of the package it is given. -/
def Linter.Confined (linter : Linter) : Prop :=
  ∀ set package file, (linter set package).contains file = true →
    package.files.contains file = true

namespace Lint

/-! ### One run -/

/-- Whether a run came to its end. -/
def Run.isFinished : Run → Bool
  | .finished _ _ => true
  | .failed | .timedOut => false

/-- What a run on a file found, on one channel and then on the other. -/
def Run.found (root file : Path) : Run → List Diagnostic
  | .finished output errors => findingsIn root file output ++ findingsIn root file errors
  | .failed | .timedOut => []

/-- A finding is on the file that was linted. -/
theorem file_of_mem_findings {root file : Path} {output : String} {diagnostic : Diagnostic}
    (member : diagnostic ∈ findings root file output) : diagnostic.file = file := by
  obtain ⟨line, _, found⟩ := List.mem_filterMap.mp member
  obtain ⟨_, _, found⟩ := Option.bind_eq_some_iff.mp found
  obtain ⟨_, _, found⟩ := Option.bind_eq_some_iff.mp found
  obtain ⟨number, _, found⟩ := Option.bind_eq_some_iff.mp found
  obtain ⟨column, _, found⟩ := Option.bind_eq_some_iff.mp found
  rw [← Option.some.inj found]

theorem Run.file_of_mem_found {root file : Path} {run : Run} {diagnostic : Diagnostic}
    (member : diagnostic ∈ run.found root file) : diagnostic.file = file := by
  cases run with
  | finished output errors =>
    rcases List.mem_append.mp member with inOutput | inErrors
    · exact file_of_mem_findings inOutput
    · exact file_of_mem_findings inErrors
  | failed => exact absurd member List.not_mem_nil
  | timedOut => exact absurd member List.not_mem_nil

/-! ### One round -/

/-- The files that a tool can be run on, in order. -/
def readable (files : List (Path × SourceFile)) : List (Path × SourceFile) :=
  files.filter fun entry => entry.2.readError.isNone

/-- Whether the run of a tool on a file comes to its end. -/
def ends (tool : Path → String → Run) (entry : Path × SourceFile) : Bool :=
  (tool entry.1 entry.2.text).isFinished

/-- The files that a tool has its say on: the readable ones before the first run that does not come
to its end. -/
def linted (tool : Path → String → Run) (files : List (Path × SourceFile)) :
    List (Path × SourceFile) :=
  (readable files).takeWhile (ends tool)

/-- A round makes the runs on the linted files and on the one readable file after them, if there is
one, and finds what the runs on the linted files find. -/
theorem Round.ofFiles_eq (root : Path) (tool : Path → String → Run)
    (files : List (Path × SourceFile)) :
    Round.ofFiles root tool files =
      { runs := ((readable files).take ((linted tool files).length + 1)).map fun entry =>
          (entry.1, entry.2.text)
        findings := (linted tool files).flatMap fun entry =>
          (tool entry.1 entry.2.text).found root entry.1 } := by
  unfold linted
  induction files with
  | nil => rfl
  | cons entry later inductionHypothesis =>
    obtain ⟨path, file⟩ := entry
    unfold ofFiles
    cases reason : file.readError with
    | some text =>
      have passed : readable ((path, file) :: later) = readable later := by
        simp [readable, reason]
      rw [passed, ← inductionHypothesis]
      rfl
    | none =>
      have taken : readable ((path, file) :: later) = (path, file) :: readable later := by
        simp [readable, reason]
      rw [taken]
      cases outcome : tool path file.text with
      | finished output errors =>
        have ended : ends tool (path, file) = true := by rw [ends, outcome]; rfl
        simp [ended, outcome, inductionHypothesis, Run.found]
      | failed =>
        have cutShort : ends tool (path, file) = false := by rw [ends, outcome]; rfl
        simp [cutShort]
      | timedOut =>
        have cutShort : ends tool (path, file) = false := by rw [ends, outcome]; rfl
        simp [cutShort]

theorem linted_sublist (tool : Path → String → Run) (files : List (Path × SourceFile)) :
    (linted tool files).Sublist files :=
  (List.takeWhile_sublist _).trans List.filter_sublist

variable {root : Path} {tool : Path → String → Run}

/-- What is found in a round is on the linted files. -/
theorem Round.exists_of_mem_findings {files : List (Path × SourceFile)} {diagnostic : Diagnostic}
    (member : diagnostic ∈ (Round.ofFiles root tool files).findings) :
    ∃ entry ∈ linted tool files, diagnostic.file = entry.1 := by
  rw [ofFiles_eq] at member
  obtain ⟨entry, inLinted, found⟩ := List.mem_flatMap.mp member
  exact ⟨entry, inLinted, Run.file_of_mem_found found⟩

/-- What is found in a round on a linted file is what the run on it found. -/
theorem Round.findings_on {files : PathMap SourceFile} {entry : Path × SourceFile}
    (member : entry ∈ linted tool files.entries) :
    ((Round.ofFiles root tool files.entries).findings.filter fun diagnostic =>
        diagnostic.file.Same entry.1) =
      (tool entry.1 entry.2.text).found root entry.1 := by
  let deliver (other : Path × SourceFile) : Path × List Diagnostic :=
    (other.1, (tool other.1 other.2.text).found root other.1)
  -- The runs deliver to distinct files, in order, and so make up a collection.
  let collection : FileDiagnostics :=
    ⟨(linted tool files.entries).map deliver,
      List.pairwise_map.mpr (files.ascending.sublist (linted_sublist tool files.entries))⟩
  have own : ∀ delivery ∈ collection.entries, ∀ diagnostic ∈ delivery.2,
      diagnostic.file = delivery.1 := by
    intro delivery delivered diagnostic found
    obtain ⟨other, _, rfl⟩ := List.mem_map.mp delivered
    exact Run.file_of_mem_found found
  have found : collection.find? entry.1 = some ((tool entry.1 entry.2.text).found root entry.1) :=
    (collection.find?_eq_some_iff _ _).mpr
      ⟨deliver entry, List.mem_map_of_mem member, Path.Same.refl _, rfl⟩
  have delivered := FileDiagnostics.deliveredTo_eq_filter own entry.1
  rw [FileDiagnostics.deliveredTo_entries, found, Option.getD_some, List.flatMap_map] at delivered
  rw [ofFiles_eq, delivered]

/-! ### The linter of a tool -/

/-- The linter of a tool has for a linted file what the run on it found, and does not have the file
if that is nothing. -/
theorem find?_ofTool {set : PackageSet} {package : Package} {entry : Path × SourceFile}
    (member : entry ∈ linted tool package.files.entries) :
    (ofTool root tool set package).find? entry.1 =
      if (tool entry.1 entry.2.text).found root entry.1 = [] then none
      else some ((tool entry.1 entry.2.text).found root entry.1) := by
  rw [ofTool, FileDiagnostics.find?_ofList, Round.findings_on member]

theorem exists_of_mem_paths_ofTool {set : PackageSet} {package : Package} {file : Path}
    (present : file ∈ (ofTool root tool set package).paths) :
    ∃ entry ∈ linted tool package.files.entries, file = entry.1 := by
  obtain ⟨diagnostic, found, rfl⟩ := FileDiagnostics.mem_of_mem_paths_ofList present
  exact Round.exists_of_mem_findings found

/-- A tool reports only on files of the package. -/
theorem confined_ofTool (root : Path) (tool : Path → String → Run) :
    (ofTool root tool).Confined := by
  intro set package file found
  obtain ⟨delivery, inFound, same⟩ := (PathMap.contains_iff _ file).mp found
  obtain ⟨entry, inLinted, equal⟩ := exists_of_mem_paths_ofTool (List.mem_map_of_mem inFound)
  rw [← package.files.contains_congr same, equal]
  exact package.files.contains_of_mem ((linted_sublist tool _).subset inLinted)

/-- A round passes over the files that cannot be read and runs the tool on the others, in the order
of their paths, up to the first run that fails or takes too long. The files before that one have the
findings of their runs, those on the one channel before those on the other, and are left out if
there are none; no other file has any. So the findings are on files of the package, and adding them
to its errors does not change which files are published. -/
theorem round_reports_on_linted (root : Path) (tool : Path → String → Run) (set : PackageSet)
    (package : Package) :
    let files := package.files.entries
    let found := ofTool root tool set package
    (Round.ofFiles root tool files).runs =
        ((readable files).take ((linted tool files).length + 1)).map
          (fun entry => (entry.1, entry.2.text)) ∧
      (∀ entry ∈ found.entries, ∀ diagnostic ∈ entry.2,
        ∃ file ∈ linted tool files, diagnostic.file = file.1) ∧
      (∀ file ∈ linted tool files, ∃ output errors,
        tool file.1 file.2.text = .finished output errors ∧
          let remarks := findings root file.1 (String.ofList (Text.decodeLossy output)) ++
            findings root file.1 (String.ofList (Text.decodeLossy errors))
          found.find? file.1 = if remarks = [] then none else some remarks) ∧
      (∀ file ∈ found.paths, file ∈ package.files.paths) ∧
      ∀ lint id fetched, set.get? id = some package → Layout.errorsOf set id = .ok fetched →
        (Sweep.publications (ofTool root tool) lint set package fetched).map Publication.file =
          fetched.paths := by
  intro files found
  refine ⟨by rw [Round.ofFiles_eq], ?owned, ?remarked, ?members, ?published⟩
  case owned =>
    intro entry member diagnostic inEntry
    have lookup : (ofTool root tool set package).find? entry.1 = some entry.2 :=
      (PathMap.find?_eq_some_iff _ _ _).mpr ⟨entry, member, Path.Same.refl _, rfl⟩
    rw [ofTool, FileDiagnostics.find?_ofList, Option.ite_none_left_eq_some,
      Option.some.injEq] at lookup
    rw [← lookup.2] at inEntry
    exact Round.exists_of_mem_findings (List.mem_of_mem_filter inEntry)
  case remarked =>
    intro file member
    have ended : ends tool file = true := List.mem_takeWhile_imp member
    unfold ends at ended
    have lookup : (ofTool root tool set package).find? file.1 = _ := find?_ofTool member
    cases outcome : tool file.1 file.2.text with
    | finished output errors =>
      rw [outcome] at lookup
      exact ⟨output, errors, rfl, lookup⟩
    | failed =>
      rw [outcome] at ended
      exact absurd ended Bool.false_ne_true
    | timedOut =>
      rw [outcome] at ended
      exact absurd ended Bool.false_ne_true
  case members =>
    intro file present
    obtain ⟨entry, inLinted, rfl⟩ := exists_of_mem_paths_ofTool present
    exact List.mem_map_of_mem ((linted_sublist tool files).subset inLinted)
  case published =>
    intro lint id fetched isPackage succeeded
    rw [Layout.errorsOf_eq, isPackage] at succeeded
    rw [← Except.ok.inj succeeded]
    exact Package.paths_published fun _ => confined_ofTool root tool set package

/-- A file that a tool has something to say on, one that cannot be read, one that the tool takes too
long for, and one more. -/
def halting : Package :=
  { Package.new ⟨"p"⟩ ⟨"/ws/p"⟩ with
    files :=
      { entries :=
          [(⟨"/ws/p/a.gunk"⟩, .ofEditor "package p"), (⟨"/ws/p/b.gunk"⟩, .unreadable "gone"),
            (⟨"/ws/p/c.gunk"⟩, .ofDisk "slow"), (⟨"/ws/p/d.gunk"⟩, .ofDisk "package p")]
        ascending := by
          unfold Ascending
          decide +kernel } }

/-- A tool that writes `1:1: o` and `2:2: e` to its channels, unless the text is `slow`. -/
def halts : Runner := fun invocation =>
  if invocation.input = "slow" then .timedOut
  else .finished [49, 58, 49, 58, 32, 111] [50, 58, 50, 58, 32, 101]

/-- The run on the third file is the last one, and only the first file has findings. -/
theorem round_reports_on_linted_halting :
    let command : Command := ⟨"tool", [], Command.defaultLimit⟩
    let linter := command.linter halts ⟨"/ws"⟩
    (Round.ofFiles ⟨"/ws"⟩ (fun path text => halts (command.invocation ⟨"/ws"⟩ path text))
        halting.files.entries).runs =
        [(⟨"/ws/p/a.gunk"⟩, "package p"), (⟨"/ws/p/c.gunk"⟩, "slow")] ∧
      ((linter ⟨[halting]⟩ halting).find? ⟨"/ws/p/a.gunk"⟩).map (List.map Diagnostic.message) =
        some ["o", "e"] ∧
      (∀ entry ∈ (linter ⟨[halting]⟩ halting).entries, ∀ diagnostic ∈ entry.2,
        diagnostic.file = ⟨"/ws/p/a.gunk"⟩) ∧
      (Sweep.publications linter true ⟨[halting]⟩ halting halting.diagnostics).map
          Publication.file = halting.diagnostics.paths := by
  intro command linter
  let tool : Path → String → Run := fun path text => halts (command.invocation ⟨"/ws"⟩ path text)
  have isLinted : linted tool halting.files.entries =
      [(⟨"/ws/p/a.gunk"⟩, .ofEditor "package p")] := by decide +kernel
  obtain ⟨runs, owned, remarked, -, published⟩ :=
    round_reports_on_linted ⟨"/ws"⟩ tool ⟨[halting]⟩ halting
  rw [isLinted] at runs owned remarked
  refine ⟨runs.trans (by decide +kernel), ?_, ?_, published true ⟨"p"⟩ _ rfl rfl⟩
  · obtain ⟨output, errors, outcome, lookup⟩ := remarked _ (List.mem_singleton_self _)
    obtain ⟨rfl, rfl⟩ := Run.finished.inj outcome
    exact (congrArg _ lookup).trans (by decide +kernel)
  · intro entry member diagnostic inEntry
    obtain ⟨file, inLinted, onFile⟩ := owned entry member diagnostic inEntry
    rw [onFile, List.mem_singleton.mp inLinted]

end Lint

end WorkspaceSync
