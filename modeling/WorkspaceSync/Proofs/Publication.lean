/-
This file shows that no published diagnostic goes stale, even when fetches fail.

What a publication shows for a file replaces whatever was shown for it before,
so only the last one counts. Over any run of events and sweeps it is one of
three kinds, by the package that the file has its place in. If the package is
gone, nothing is shown. If it is clean, what is shown is what its present files
give. If it is dirty, something may be shown that is out of date, but then the
package still has the file or remembers it, and so the next sweep that succeeds
replaces it.

Two steps have to keep this: writing a file in a package, which publishes
nothing, and the sweep of one package. Everything an engine does is made of
them.
-/
import WorkspaceSync.Proofs.FileDiagnostics
import WorkspaceSync.Proofs.Sweep
import WorkspaceSync.Url

namespace WorkspaceSync

open Layout

/-! ### What was last published -/

/-- What was last published for a file, if anything was. -/
def lastFor? (published : List Publication) (file : Path) : Option (List Diagnostic) :=
  (published.filter fun publication => publication.file.Same file).getLast?.map
    Publication.diagnostics

theorem lastFor?_append (before after : List Publication) (file : Path) :
    lastFor? (before ++ after) file = (lastFor? after file).or (lastFor? before file) := by
  rw [lastFor?, List.filter_append, List.getLast?_append, Option.map_or]
  rfl

/-- Publishing a collection shows for every file of it what it has for the file. -/
theorem lastFor?_entries (collection : FileDiagnostics) (file : Path) :
    lastFor? (collection.entries.map fun entry => ⟨entry.1, entry.2⟩) file =
      collection.find? file := by
  have only := PathMap.filter_entries_same collection file
  rw [lastFor?, List.filter_map, PathMap.find?_eq]
  have equal : collection.entries.filter
      ((fun publication : Publication => decide (publication.file.Same file)) ∘
        fun entry => ⟨entry.1, entry.2⟩) = (PathMap.entry? collection file).toList := only
  rw [equal]
  cases PathMap.entry? collection file <;> rfl

/-! ### What a package has to show -/

/-- Findings that depend on the id and the files of a package only. -/
abbrev Findings := PackageId → PathMap SourceFile → FileDiagnostics

namespace Findings

/-- The findings are on files that the package has. -/
def Confined (findings : Findings) : Prop :=
  ∀ id files file, (findings id files).contains file = true → files.contains file = true

/-- The linter with the findings. -/
def linter (findings : Findings) : Linter :=
  fun _ package => findings package.id package.files

end Findings

namespace Package

/-- What the present files of a package give for a file: its errors, or the findings if they are
wanted. -/
def remarks (lint : Bool) (findings : Findings) (package : Package) (file : Path) :
    List Diagnostic :=
  if Sweep.wantsLint lint package then ((findings package.id package.files).find? file).getD []
  else package.errors.filter fun diagnostic => diagnostic.file.Same file

theorem remarks_eq (lint : Bool) (findings : Findings) (package : Package) (file : Path) :
    package.remarks lint findings file =
      if package.errors ≠ [] ∨ lint = false then
        package.errors.filter fun diagnostic => diagnostic.file.Same file
      else ((findings package.id package.files).find? file).getD [] := by
  unfold remarks Sweep.wantsLint
  cases lint <;> cases package.errors <;> simp

variable {layout : Layout} {lint : Bool} {findings : Findings} {package : Package} {file : Path}

theorem errors_filter_eq_nil (consistent : package.Consistent layout)
    (absent : package.files.contains file = false) :
    (package.errors.filter fun diagnostic => diagnostic.file.Same file) = [] := by
  refine List.filter_eq_nil_iff.mpr fun diagnostic member same => ?_
  have present := consistent.contains_of_mem_errors member
  rw [package.files.contains_congr (of_decide_eq_true same), absent] at present
  exact absurd present (by simp)

/-- A package gives nothing for a file that it does not have. -/
theorem remarks_eq_nil (consistent : package.Consistent layout) (confined : findings.Confined)
    (absent : package.files.contains file = false) : package.remarks lint findings file = [] := by
  unfold remarks
  split
  · have missing : (findings package.id package.files).contains file = false := by
      rw [← Bool.not_eq_true]
      intro present
      rw [confined _ _ _ present] at absent
      exact absurd absent (by simp)
    rw [PathMap.contains_eq_isSome, Option.isSome_eq_false_iff,
      Option.isNone_iff_eq_none] at missing
    rw [missing]
    rfl
  · exact errors_filter_eq_nil consistent absent

/-- The files of a package and those it remembers are present before any error is added. -/
theorem find?_touched (package : Package) (file : Path) :
    ((package.files.paths ++ package.removed.paths).foldl FileDiagnostics.touch .empty).find? file =
      if package.files.contains file = true ∨ package.removed.contains file = true then some []
      else none := by
  rw [FileDiagnostics.foldl_touch, FileDiagnostics.find?_extendAll,
    FileDiagnostics.deliveredTo_map_nil]
  refine if_congr ?_ rfl rfl
  simp only [PathMap.contains_empty, Bool.false_eq_true, false_or, PathMap.contains_iff,
    PathMap.paths, List.map_append, List.map_map, List.mem_append, List.mem_map]
  constructor
  · rintro ⟨_, ⟨entry, member, rfl⟩ | ⟨entry, member, rfl⟩, same⟩
    · exact .inl ⟨entry, member, same⟩
    · exact .inr ⟨entry, member, same⟩
  · rintro (⟨entry, member, same⟩ | ⟨entry, member, same⟩)
    · exact ⟨_, .inl ⟨entry, member, rfl⟩, same⟩
    · exact ⟨_, .inr ⟨entry, member, rfl⟩, same⟩

/-- The diagnostics of a package are present for its files and those it remembers, and each has its
errors. -/
theorem find?_diagnostics (consistent : package.Consistent layout) (file : Path) :
    package.diagnostics.find? file =
      if package.files.contains file = true ∨ package.removed.contains file = true then
        some (package.errors.filter fun diagnostic => diagnostic.file.Same file)
      else none := by
  have touched := package.find?_touched file
  rw [diagnostics, FileDiagnostics.foldl_push, FileDiagnostics.find?_extendAll,
    FileDiagnostics.deliveredTo_map_singleton, PathMap.contains_eq_isSome, touched]
  by_cases present : package.files.contains file = true ∨ package.removed.contains file = true
  · simp only [if_pos present, Option.isSome_some, true_or, if_true, Option.getD_some,
      List.nil_append]
  · have noError : ¬ ∃ delivery ∈ package.errors.map fun diagnostic =>
        (diagnostic.file, [diagnostic]), delivery.1.Same file := by
      rintro ⟨_, member, same⟩
      obtain ⟨diagnostic, inErrors, rfl⟩ := List.mem_map.mp member
      have inFiles := consistent.contains_of_mem_errors inErrors
      exact present (.inl (package.files.contains_congr same ▸ inFiles))
    simp only [if_neg present, Option.isSome_none, Bool.false_eq_true, noError, or_self, if_false]

/-- What is published for a package: the present remarks for each of its files, and nothing for the
files it remembers. -/
theorem lastFor?_publications (consistent : package.Consistent layout)
    (confined : findings.Confined) (set : PackageSet) (file : Path) :
    lastFor? (Sweep.publications findings.linter lint set package package.diagnostics) file =
      if package.files.contains file = true ∨ package.removed.contains file = true then
        some (package.remarks lint findings file)
      else none := by
  unfold Sweep.publications
  refine (lastFor?_entries _ file).trans ?_
  have plain := find?_diagnostics consistent file
  unfold remarks
  by_cases wanted : Sweep.wantsLint lint package = true
  · have noErrors : package.errors = [] := by
      simp only [Sweep.wantsLint, Bool.and_eq_true, List.isEmpty_iff] at wanted
      exact wanted.2
    rw [noErrors, List.filter_nil] at plain
    simp only [wanted, if_true]
    rw [FileDiagnostics.find?_append, PathMap.contains_eq_isSome package.diagnostics, plain]
    by_cases present : package.files.contains file = true ∨ package.removed.contains file = true
    · simp only [if_pos present, Option.isSome_some, true_or, if_true, Option.getD_some,
        List.nil_append, Findings.linter]
    · have noFinding : ¬ (findings.linter set package).contains file = true := fun found =>
        present (.inl (confined _ _ file found))
      simp only [if_neg present, Option.isSome_none, Bool.false_eq_true, noFinding, or_self,
        if_false]
  · simp only [wanted, Bool.false_eq_true, if_false]
    exact plain

/-- The files of a package are among those that it has diagnostics for. -/
theorem contains_diagnostics (tracked : package.files.contains file = true) :
    package.diagnostics.contains file = true := by
  have touched := package.find?_touched file
  rw [if_pos (.inl tracked)] at touched
  rw [diagnostics, FileDiagnostics.foldl_push, PathMap.contains_eq_isSome,
    FileDiagnostics.find?_extendAll, PathMap.contains_eq_isSome, touched]
  rfl

/-- Findings on files of a package do not change which files are published for it. -/
theorem paths_published {linter : Linter} {set : PackageSet}
    (confined : lint = true → ∀ file,
      (linter set package).contains file = true → package.files.contains file = true) :
    (Sweep.publications linter lint set package package.diagnostics).map Publication.file =
      package.diagnostics.paths := by
  have noneAdded (lints : lint = true) :
      (FileDiagnostics.append package.diagnostics (linter set package)).paths =
        package.diagnostics.paths := by
    refine Path.eq_of_ascending (fun file => file) (PathMap.ascending_paths _)
      (PathMap.ascending_paths _) ?_
    refine FileDiagnostics.mem_paths_extendAll_of_contains fun delivery member => ?_
    exact contains_diagnostics (confined lints _ (PathMap.contains_of_mem _ member))
  unfold Sweep.publications
  rw [List.map_map]
  split
  · next wanted => exact noneAdded (Bool.and_eq_true_iff.mp wanted).1
  · rfl

end Package

/-! ### Keeping up -/

/-- What is shown for a file is what its package gives at present; while the package is dirty, it
is nothing or will be replaced when the package is published. -/
def UpToDate (layout : Layout) (lint : Bool) (findings : Findings) (set : PackageSet) (file : Path)
    (shown : List Diagnostic) : Prop :=
  ∃ id, layout.home? file = some id ∧
    match set.get? id with
    | none => shown = []
    | some package =>
      match package.state with
      | .clean => shown = package.remarks lint findings file
      | .dirty =>
        shown = [] ∨ package.files.contains file = true ∨ package.removed.contains file = true

/-- The set is well formed, and whatever was last published keeps up with it. -/
structure KeepsUp (layout : Layout) (lint : Bool) (findings : Findings) (set : PackageSet)
    (published : List Publication) : Prop where
  wellFormed : set.WellFormed layout
  upToDate : ∀ file shown, lastFor? published file = some shown →
    UpToDate layout lint findings set file shown

variable {layout : Layout} {lint : Bool} {findings : Findings} {set : PackageSet}
  {published : List Publication}

/-- Where something is shown for a file, the package of its place has the file or remembers it. -/
theorem UpToDate.eq_nil_or {file : Path} {shown : List Diagnostic} {id : PackageId}
    (upToDate : UpToDate layout lint findings set file shown) (wellFormed : set.WellFormed layout)
    (confined : findings.Confined) (home : layout.home? file = some id) (directory : Path) :
    shown = [] ∨ (homeFor set id directory).files.contains file = true ∨
      (homeFor set id directory).removed.contains file = true := by
  obtain ⟨other, otherHome, state⟩ := upToDate
  rw [home, Option.some_inj] at otherHome
  subst otherHome
  unfold homeFor
  cases found : set.get? id with
  | none =>
    rw [found] at state
    exact .inl state
  | some package =>
    rw [found] at state
    simp only at state
    split at state
    · by_cases present : package.files.contains file = true
      · exact .inr (.inl present)
      · have consistent := wellFormed.consistent package (PackageSet.mem_of_get? found)
        rw [Package.remarks_eq_nil consistent confined (Bool.not_eq_true _ ▸ present)] at state
        exact .inl state
    · exact state

/-- Writing a file publishes nothing, and what is shown keeps up. -/
theorem KeepsUp.write (keepsUp : KeepsUp layout lint findings set published)
    (confined : findings.Confined) {next : PackageSet} (writes : layout.Writes set next) :
    KeepsUp layout lint findings next published := by
  have wellFormed := keepsUp.wellFormed
  refine ⟨writes.wellFormed wellFormed, fun file shown last => ?_⟩
  obtain ⟨id, directory, path, content, _, _, rfl⟩ := writes
  have writtenId : ((homeFor set id directory).written path content).id = id := by
    rw [Package.written_id, homeFor_id]
  have current := keepsUp.upToDate file shown last
  obtain ⟨fileId, fileHome, state⟩ := keepsUp.upToDate file shown last
  refine ⟨fileId, fileHome, ?_⟩
  by_cases same : fileId = id
  · have found := PackageSet.get?_upsert_self wellFormed.sorted
      ((homeFor set id directory).written path content)
    rw [writtenId] at found
    rw [same, found]
    simp only [Package.written_state]
    rw [Package.contains_files_written, Package.contains_removed_written]
    by_cases atPath : file.Same path
    · -- The written path itself is tracked or remembered now.
      simp only [atPath, if_true]
      cases content <;> simp
    · simp only [atPath, if_false]
      exact current.eq_nil_or wellFormed confined (same ▸ fileHome) directory
  · rw [PackageSet.get?_upsert_of_ne wellFormed.sorted (by rwa [writtenId])]
    exact state

/-- The sweep of one package keeps up what is shown for every file. -/
theorem KeepsUp.settle (keepsUp : KeepsUp layout lint findings set published)
    (confined : findings.Confined) {id : PackageId} {package : Package}
    (found : set.get? id = some package) :
    KeepsUp layout lint findings (set.settle id)
      (published ++ Sweep.publications findings.linter lint set package package.diagnostics) := by
  have wellFormed := keepsUp.wellFormed
  obtain ⟨member, rfl⟩ := (wellFormed.sorted.get?_eq_some_iff id package).mp found
  have consistent := wellFormed.consistent package member
  have settled := PackageSet.get?_settle_self wellFormed.sorted found
  -- What is left of the package gives the same remarks, and none if nothing is left.
  have left {file : Path} (home : layout.home? file = some package.id) :
      UpToDate layout lint findings (set.settle package.id) file
        (package.remarks lint findings file) := by
    refine ⟨package.id, home, ?_⟩
    rw [settled]
    unfold Package.remainder?
    by_cases empty : package.files.isEmpty = true
    · rw [if_pos empty]
      refine Package.remarks_eq_nil consistent confined ?_
      rw [(PathMap.isEmpty_iff package.files).mp empty]
      exact PathMap.contains_empty file
    · rw [if_neg empty]
      rfl
  refine ⟨wellFormed.settle package.id, fun file shown last => ?_⟩
  rw [lastFor?_append, Package.lastFor?_publications consistent confined] at last
  by_cases present : package.files.contains file = true ∨ package.removed.contains file = true
  · rw [if_pos present, Option.some_or, Option.some_inj] at last
    rw [← last]
    exact left (consistent.located file present)
  · rw [if_neg present, Option.none_or] at last
    have current := keepsUp.upToDate file shown last
    obtain ⟨fileId, fileHome, state⟩ := keepsUp.upToDate file shown last
    by_cases same : fileId = package.id
    · -- Nothing was shown for a file that the package has nothing to do with.
      have home : layout.home? file = some package.id := same ▸ fileHome
      have nothing := current.eq_nil_or wellFormed confined home package.directory
      rw [homeFor, found, Option.getD_some] at nothing
      have absent : package.files.contains file = false :=
        Bool.not_eq_true _ ▸ fun inFiles => present (.inl inFiles)
      rw [nothing.resolve_right present, ← Package.remarks_eq_nil consistent confined absent]
      exact left home
    · refine ⟨fileId, fileHome, ?_⟩
      rw [PackageSet.get?_settle_of_ne wellFormed.sorted same]
      exact state

/-! ### Runs -/

/-- A world whose linter has the given findings, and whose fetches may fail. -/
structure World.Has (world : World) (findings : Findings) : Prop where
  linter : world.linter = findings.linter
  faithful : world.fetcher.Faithful

/-- What an engine is asked for. -/
inductive Request where
  | event (event : Event)
  | sweep

namespace Engine

variable {engine : Engine} {findings : Findings} {published : List Publication}

/-- What was published so far keeps up with the packages of the engine. -/
def KeepsUp (engine : Engine) (findings : Findings) (published : List Publication) : Prop :=
  WorkspaceSync.KeepsUp engine.layout engine.session.lint findings engine.packages published

/-- The engine after a request, and all that was published until then. -/
def serve (state : Engine × List Publication) (step : World × Request) :
    Engine × List Publication :=
  match step.2 with
  | .event event =>
    ((state.1.handle step.1 event).1,
      state.2 ++ (state.1.handle step.1 event).2.sweep.published)
  | .sweep => ((state.1.sweep step.1).1, state.2 ++ (state.1.sweep step.1).2.published)

/-- The engine after a row of requests, and all that was published. -/
def run (engine : Engine) (steps : List (World × Request)) : Engine × List Publication :=
  steps.foldl serve (engine, [])

theorem KeepsUp.sweep (keepsUp : engine.KeepsUp findings published) (confined : findings.Confined)
    {world : World} (has : world.Has findings) :
    (engine.sweep world).1.KeepsUp findings (published ++ (engine.sweep world).2.published) := by
  have start : WorkspaceSync.KeepsUp engine.layout engine.session.lint findings engine.packages
      (published ++ []) := by
    rw [List.append_nil]
    exact keepsUp
  have swept := Sweep.run_induction findings.linter engine.session.lint has.faithful
    (fun set new => WorkspaceSync.KeepsUp engine.layout engine.session.lint findings set
      (published ++ new)) start fun set new id package before found => by
        rw [← List.append_assoc]
        exact before.settle confined found
  rw [← has.linter] at swept
  exact swept

theorem KeepsUp.handle (keepsUp : engine.KeepsUp findings published)
    (confined : findings.Confined) {world : World} (has : world.Has findings) (event : Event) :
    (engine.handle world event).1.KeepsUp findings
      (published ++ (engine.handle world event).2.sweep.published) := by
  unfold Engine.handle
  cases registered : engine.register world.read event with
  | error error => exact keepsUp.sweep confined has
  | ok packages =>
    have writes := (writesAt_register keepsUp.wellFormed registered).writes
    have written : { engine with packages }.KeepsUp findings published :=
      WorkspaceSync.KeepsUp.write keepsUp confined writes
    exact written.sweep confined has

theorem KeepsUp.serve (keepsUp : engine.KeepsUp findings published)
    (confined : findings.Confined) {step : World × Request} (has : step.1.Has findings) :
    (Engine.serve (engine, published) step).1.KeepsUp findings
      (Engine.serve (engine, published) step).2 := by
  unfold Engine.serve
  cases step.2 with
  | event event => exact keepsUp.handle confined has event
  | sweep => exact keepsUp.sweep confined has

theorem KeepsUp.foldl_serve (keepsUp : engine.KeepsUp findings published)
    (confined : findings.Confined) {steps : List (World × Request)}
    (has : ∀ step ∈ steps, step.1.Has findings) :
    (steps.foldl Engine.serve (engine, published)).1.KeepsUp findings
      (steps.foldl Engine.serve (engine, published)).2 := by
  induction steps generalizing engine published with
  | nil => exact keepsUp
  | cons step later inductionHypothesis =>
    exact inductionHypothesis (keepsUp.serve confined (has step List.mem_cons_self))
      fun other member => has other (List.mem_cons_of_mem _ member)

/-- Nothing was published when an engine was just loaded. -/
theorem keepsUp_load {addressing : Addressing} {session : Session} {connect : Path → Layout}
    {disk : Disk} (sound : disk.root.isSound = true)
    (loaded : load addressing session connect disk = .ok engine)
    (findings : Findings) : engine.KeepsUp findings [] :=
  ⟨PackageSet.wellFormed_load sound (load_packages loaded), fun _ _ last => nomatch last⟩

theorem frame_serve (state : Engine × List Publication) (step : World × Request) :
    (serve state step).1.session = state.1.session ∧
      (serve state step).1.layout = state.1.layout := by
  unfold serve
  cases step.2 with
  | event event => exact frame_handle state.1 step.1 event
  | sweep => exact ⟨rfl, rfl⟩

theorem frame_run (engine : Engine) (steps : List (World × Request)) :
    (engine.run steps).1.session = engine.session ∧
      (engine.run steps).1.layout = engine.layout := by
  have frame (state : Engine × List Publication) :
      (steps.foldl serve state).1.session = state.1.session ∧
        (steps.foldl serve state).1.layout = state.1.layout := by
    induction steps generalizing state with
    | nil => exact ⟨rfl, rfl⟩
    | cons step later inductionHypothesis =>
      obtain ⟨sameSession, sameLayout⟩ := frame_serve state step
      rw [List.foldl_cons, ← sameSession, ← sameLayout]
      exact inductionHypothesis (serve state step)
  exact frame (engine, [])

/-- Whatever happens to the documents and whichever fetches fail, the last list published for a
file follows the package of its place. Where the package is gone or is clean without the file, the
list is empty. Where it is clean with the file, the list has the errors of the file or, in a package
without errors and if they are wanted, the findings on the file. Where it is dirty, the list is
empty or the package has the file or remembers it, so that its next publication replaces it. -/
theorem published_follows_packages {addressing : Addressing} {session : Session}
    {connect : Path → Layout} {disk : Disk} (sound : disk.root.isSound = true)
    (loaded : load addressing session connect disk = .ok engine)
    (confined : findings.Confined) {steps : List (World × Request)}
    (has : ∀ step ∈ steps, step.1.Has findings) {file : Path} {shown : List Diagnostic}
    (last : lastFor? (engine.run steps).2 file = some shown) :
    ∃ id directory, engine.layout.locate file = .ok (id, directory) ∧
      ((engine.run steps).1.packages.get? id = none → shown = []) ∧
      ∀ package, (engine.run steps).1.packages.get? id = some package →
        (package.state = .clean → package.files.contains file = false → shown = []) ∧
        (package.state = .clean → package.files.contains file = true →
          shown =
            if package.errors ≠ [] ∨ engine.session.lint = false then
              package.errors.filter fun diagnostic => diagnostic.file.Same file
            else ((findings package.id package.files).find? file).getD []) ∧
        (package.state = .dirty →
          shown = [] ∨ package.files.contains file = true ∨
            package.removed.contains file = true) := by
  have keepsUp := (keepsUp_load sound loaded findings).foldl_serve confined has
  obtain ⟨sameSession, sameLayout⟩ := engine.frame_run steps
  obtain ⟨id, home, state⟩ := keepsUp.upToDate file shown last
  rw [← run, sameLayout] at home
  rw [← run, sameSession] at state
  obtain ⟨directory, located⟩ := (home?_eq_some_iff engine.layout file id).mp home
  refine ⟨id, directory, located, fun missing => ?_, fun package found => ⟨?_, ?_, ?_⟩⟩
  · rw [missing] at state
    exact state
  · intro clean absent
    have consistent := keepsUp.wellFormed.consistent package (PackageSet.mem_of_get? found)
    simp only [found, clean] at state
    rw [state, Package.remarks_eq_nil consistent confined absent]
  · intro clean _
    simp only [found, clean] at state
    rw [state, Package.remarks_eq]
  · intro dirty
    simpa only [found, dirty] using state

/-- A document that is no source text is opened, and the fetch after it is closed fails. -/
def failedClose : List (World × Request) :=
  [(⟨fun _ => .absent, Engine.fetcher, Lint.silent⟩,
      .event (.opened ⟨"/.ws/api/a.gunk"⟩ "nonsense")),
    (⟨fun _ => .absent, Engine.failingFetcher 1, Lint.silent⟩,
      .event (.closed ⟨"/.ws/api/a.gunk"⟩))]

/-- After a failed fetch an error may be shown on a file that is gone. Its package is still there
to replace it. -/
theorem published_after_failedClose :
    ∃ engine shown, load Url.addressing ⟨"file:///.ws", true⟩ ofRoot (.hidden []) = .ok engine ∧
      lastFor? (engine.run failedClose).2 ⟨"/.ws/api/a.gunk"⟩ = some shown ∧ shown ≠ [] ∧
      ∃ id directory, engine.layout.locate ⟨"/.ws/api/a.gunk"⟩ = .ok (id, directory) ∧
        (engine.run failedClose).1.packages.get? id ≠ none := by
  have resolved : resolveWorkspace Url.addressing "file:///.ws" = .ok ⟨"/.ws"⟩ := by decide +kernel
  have sound : (Disk.hidden []).root.isSound = true := by decide
  have read : (ofRoot ⟨"/.ws"⟩).load (.hidden []) = .ok .empty := by
    have entry : (Disk.hidden []).entry (ofRoot ⟨"/.ws"⟩).root = .ok (.directory []) :=
      Disk.entry_hidden []
    unfold Layout.load
    rw [entry]
    simp only [packagesUnder, packageIn, packagesBelow]
    show Except.ok (PackageSet.mk (List.mergeSort [] _)) = .ok .empty
    rw [List.mergeSort_nil]
    rfl
  have loaded : load Url.addressing ⟨"file:///.ws", true⟩ ofRoot (.hidden []) =
      .ok ⟨⟨"file:///.ws", true⟩, ofRoot ⟨"/.ws"⟩, .empty⟩ := by
    unfold load
    simp only [resolved, read]
  have count : (lastFor? ((Engine.mk ⟨"file:///.ws", true⟩ (ofRoot ⟨"/.ws"⟩) .empty).run
      failedClose).2 ⟨"/.ws/api/a.gunk"⟩).map List.length = some 1 := by decide +kernel
  obtain ⟨shown, last, one⟩ := Option.map_eq_some_iff.mp count
  have nonempty : shown ≠ [] := List.ne_nil_of_length_pos (by omega)
  have silent : Findings.Confined fun _ _ => .empty := fun _ _ _ present => nomatch present
  have has : ∀ step ∈ failedClose, step.1.Has fun _ _ => .empty := by
    intro step member
    simp only [failedClose, List.mem_cons, List.not_mem_nil, or_false] at member
    rcases member with rfl | rfl
    · exact ⟨rfl, faithful_fetcher⟩
    · exact ⟨rfl, faithful_failingFetcher 1⟩
  obtain ⟨id, directory, located, gone, _⟩ :=
    published_follows_packages sound loaded silent has last
  exact ⟨_, shown, loaded, last, nonempty, id, directory, located,
    fun missing => nonempty (gone missing)⟩

end Engine

end WorkspaceSync
