/-
This file shows that an event touches one package only, and what it publishes.

Between events no package is dirty. An event that is refused therefore leaves
nothing to sweep and changes nothing. One that is accepted writes its document
in the package of its place and makes this package dirty; the sweep after it
takes one turn, which cannot fail, settles the package and publishes each of its
files once, and the document itself if it left the package.
-/
import WorkspaceSync.Proofs.Overlay
import WorkspaceSync.Proofs.Publication

namespace WorkspaceSync

open Layout

/-! ### The files that are published for a package -/

namespace Package

variable {layout : Layout} {package : Package}

/-- The diagnostics of a package are present for its files and those it remembers, as these are
spelled there. -/
theorem mem_paths_diagnostics (consistent : package.Consistent layout) (file : Path) :
    file ∈ package.diagnostics.paths ↔
      file ∈ package.files.paths ∨ file ∈ package.removed.paths := by
  have distinct : ((package.files.paths ++ package.removed.paths).map
      fun file => (file, ([] : List Diagnostic))).Pairwise
        fun left right => ¬ left.1.Same right.1 := by
    refine List.pairwise_map.mpr (List.pairwise_append.mpr ⟨?_, ?_, ?_⟩)
    · exact List.pairwise_map.mpr (package.files.ascending.imp Path.Before.not_same)
    · exact List.pairwise_map.mpr (package.removed.ascending.imp Path.Before.not_same)
    · intro left inFiles right inRemoved same
      obtain ⟨tracked, trackedMember, rfl⟩ := List.mem_map.mp inFiles
      obtain ⟨forgotten, forgottenMember, rfl⟩ := List.mem_map.mp inRemoved
      have absent := consistent.disjoint _ (package.files.contains_of_mem trackedMember)
      rw [package.removed.contains_congr same,
        package.removed.contains_of_mem forgottenMember] at absent
      exact nomatch absent
  have touched (other : Path) :
      other ∈ ((package.files.paths ++ package.removed.paths).foldl FileDiagnostics.touch
          .empty).paths ↔
        other ∈ package.files.paths ∨ other ∈ package.removed.paths := by
    rw [FileDiagnostics.foldl_touch, FileDiagnostics.mem_paths_extendAll_of_distinct distinct,
      PathMap.contains_empty, List.map_map]
    simp [PathMap.paths]
  rw [diagnostics, FileDiagnostics.foldl_push,
    FileDiagnostics.mem_paths_extendAll_of_contains, touched]
  -- An error is on a file of the package, which is present already.
  intro delivery member
  obtain ⟨diagnostic, inErrors, rfl⟩ := List.mem_map.mp member
  rw [PathMap.contains_eq_isSome, package.find?_touched,
    if_pos (.inl (consistent.contains_of_mem_errors inErrors))]
  rfl

/-- For a package every file it has and every file it remembers is published once, in the order of
the paths, unless the linter reports on others. -/
theorem files_published {linter : Linter} {lint : Bool} {set : PackageSet}
    (consistent : package.Consistent layout)
    (confined : lint = true → ∀ file,
      (linter set package).contains file = true → package.files.contains file = true) :
    (Sweep.publications linter lint set package package.diagnostics).Pairwise
        (fun left right => left.file.Before right.file) ∧
      ∀ file, file ∈ (Sweep.publications linter lint set package package.diagnostics).map
          Publication.file ↔
        file ∈ package.files.paths ∨ file ∈ package.removed.paths := by
  have published := paths_published confined
  refine ⟨(List.pairwise_map (R := Path.Before) (f := Publication.file)).mp ?_, fun file => ?_⟩
  · rw [published]
    exact package.diagnostics.ascending_paths
  · rw [published, mem_paths_diagnostics consistent]

/-- The files of a package are those of what is left of it. -/
theorem files_remainder? (package : Package) :
    (package.remainder?.map Package.files).getD .empty = package.files := by
  unfold remainder?
  split
  · next empty => exact ((package.files.isEmpty_iff).mp empty).symm
  · rfl

/-- A package with nothing to clear remembers the written path if it was dropped, and else
nothing. -/
theorem mem_paths_removed_written (forgotten : package.removed = .empty) (path file : Path)
    (content : Option SourceFile) :
    file ∈ (package.written path content).removed.paths ↔ content = none ∧ file = path := by
  cases content with
  | none =>
    have removed : (package.written path none).removed = package.removed.insert path () := rfl
    rw [removed, forgotten, PathMap.insert, PathMap.mem_paths_alter]
    simp [PathMap.paths, PathMap.contains_empty]
  | some value =>
    have removed : (package.written path (some value)).removed = package.removed.erase path := rfl
    rw [removed, forgotten]
    simp [PathMap.paths, PathMap.erase]

end Package

/-! ### Sets with at most one dirty package -/

namespace PackageSet

variable {set : PackageSet}

theorem dirty_eq_nil (clean : ∀ package ∈ set.packages, package.state = .clean) :
    set.dirty = [] := by
  have none : set.packages.filter Package.isDirty = [] := by
    refine List.filter_eq_nil_iff.mpr fun package member => ?_
    simp [Package.isDirty, clean package member]
  rw [dirty, none]
  rfl

/-- A dirty package that is put into a set without dirty packages is the only one. -/
theorem dirty_upsert (sorted : set.Sorted)
    (clean : ∀ package ∈ set.packages, package.state = .clean) {package : Package}
    (isDirty : package.state = .dirty) : (set.upsert package).dirty = [package.id] := by
  have alone : PackageSet.mk ((set.upsert package).packages.filter Package.isDirty) =
      ⟨[package]⟩ := by
    refine Sorted.ext_of_mem ((sorted_upsert sorted package).filter _)
      (List.pairwise_singleton _ _) fun other => ?_
    rw [List.mem_filter, mem_upsert sorted, List.mem_singleton]
    constructor
    · rintro ⟨rfl | ⟨kept, _⟩, dirty⟩
      · rfl
      · simp [Package.isDirty, clean other kept] at dirty
    · rintro rfl
      exact ⟨.inl rfl, decide_eq_true isDirty⟩
  rw [dirty, PackageSet.mk.inj alone]
  rfl

/-- Sets that agree on all ids but one have the same other packages in the same order. -/
theorem others_eq {left right : PackageSet} (leftSorted : left.Sorted)
    (rightSorted : right.Sorted) {id : PackageId}
    (same : ∀ other, other ≠ id → left.get? other = right.get? other) :
    left.packages.filter (fun package => package.id ≠ id) =
      right.packages.filter fun package => package.id ≠ id := by
  have equal : PackageSet.mk (left.packages.filter fun package => package.id ≠ id) =
      ⟨right.packages.filter fun package => package.id ≠ id⟩ := by
    refine Sorted.ext_of_mem (leftSorted.filter _) (rightSorted.filter _) fun package => ?_
    simp only [List.mem_filter, decide_eq_true_eq]
    refine and_congr_left fun different => ?_
    have left := leftSorted.get?_eq_some_iff package.id package
    have right := rightSorted.get?_eq_some_iff package.id package
    rw [same package.id different, right] at left
    simpa using left.symm
  exact PackageSet.mk.inj equal

end PackageSet

namespace Sweep

/-- A sweep of a set without dirty packages does nothing. -/
theorem run_of_clean (fetcher : Fetcher) (linter : Linter) (lint : Bool) {set : PackageSet}
    (clean : ∀ package ∈ set.packages, package.state = .clean) :
    run fetcher linter lint set = (set, .none) := by
  rw [run, PackageSet.dirty_eq_nil clean]
  rfl

/-- The sweep that fetched and published one package and nothing else. -/
def ofOne (linter : Linter) (lint : Bool) (set : PackageSet) (package : Package) : Sweep :=
  { swept := [package.id]
    published := publications linter lint set package package.diagnostics
    count := (publications linter lint set package package.diagnostics).length
    failures := []
    fetched := [package.id]
    linted := if wantsLint lint package then [package.id] else [] }

/-- A sweep that nothing disturbs takes one turn for the only dirty package. -/
theorem run_of_one_dirty (linter : Linter) (lint : Bool) {set : PackageSet} {package : Package}
    (dirty : set.dirty = [package.id]) (found : set.get? package.id = some package) :
    run Engine.fetcher linter lint set =
      (set.settle package.id, ofOne linter lint set package) := by
  rw [run, dirty, List.foldl_cons, List.foldl_nil]
  unfold one Engine.fetcher
  simp only [Layout.errorsOf_eq, found]
  simp [none, ofOne]

end Sweep

/-! ### Events -/

namespace Engine

variable {engine : Engine} {overlay : Overlay}

theorem sweep_of_clean (clean : ∀ package ∈ engine.packages.packages, package.state = .clean)
    (world : World) : engine.sweep world = (engine, .none) := by
  unfold sweep
  rw [Sweep.run_of_clean world.fetcher world.linter engine.session.lint clean]

/-- What one event does to an engine, and what it leaves alone. -/
structure Contained (before : Engine) (world : World) (event : Event) (next : Engine)
    (outcome : Outcome) : Prop where
  clean : ∀ package ∈ next.packages.packages, package.state = .clean
  noFailures : outcome.sweep.failures = []
  /-- A sweep right after the event does nothing, whatever world it runs in. -/
  quiet : ∀ later : World, next.sweep later = (next, .none)
  /-- An event that is refused changes nothing and publishes nothing. -/
  refused : ∀ error, outcome.registration = .error error →
    next = before ∧ outcome.sweep.published = []
  /-- An event that is accepted sweeps the package of its document. All other packages are as they
  were. What is published is each file that the package has now, once and in the order of the
  paths, and with them the document if closing it removed it. -/
  accepted : outcome.registration = .ok () →
    ∃ id directory, before.layout.locate event.path = .ok (id, directory) ∧
      outcome.sweep.swept = [id] ∧
      next.packages.packages.filter (fun package => package.id ≠ id) =
        before.packages.packages.filter (fun package => package.id ≠ id) ∧
      (before.session.lint = false ∨ (∀ set package file,
          (world.linter set package).contains file = true →
            package.files.contains file = true) →
        outcome.sweep.published.Pairwise (fun left right => left.file.Before right.file) ∧
        ∀ file, file ∈ outcome.sweep.published.map Publication.file ↔
          file ∈ (((next.packages.get? id).map Package.files).getD .empty).paths ∨
            event = .closed file ∧
              (((next.packages.get? id).map Package.files).getD .empty).contains file = false)

/-- An event that is refused finds nothing to sweep. -/
theorem handle_of_refused (clean : ∀ package ∈ engine.packages.packages, package.state = .clean)
    {world : World} {event : Event} {error : SyncError}
    (refused : engine.register world.read event = .error error) :
    engine.handle world event = (engine, ⟨.error error, .none⟩) := by
  unfold handle
  rw [refused]
  simp only [sweep_of_clean clean world]

/-- The package that the document of an accepted event is written in, once that is done. -/
def writtenBy (engine : Engine) (read : Path → Reading) (event : Event) (id : PackageId)
    (directory : Path) : Package :=
  (homeFor engine.packages id directory).written event.path (event.content? read)

theorem writtenBy_id (engine : Engine) (read : Path → Reading) (event : Event) (id : PackageId)
    (directory : Path) : (engine.writtenBy read event id directory).id = id := by
  rw [writtenBy, Package.written_id, homeFor_id]

/-- An accepted event puts the package of its document in with the document written, and the sweep
after it settles this package. -/
theorem handle_of_accepted (wellFormed : engine.packages.WellFormed engine.layout)
    (clean : ∀ package ∈ engine.packages.packages, package.state = .clean) {world : World}
    (calm : world.fetcher = Engine.fetcher) {event : Event} {packages : PackageSet}
    (registered : engine.register world.read event = .ok packages) :
    ∃ id directory, engine.layout.packageId directory = .ok id ∧
      engine.layout.home? event.path = some id ∧
      packages = engine.packages.upsert (engine.writtenBy world.read event id directory) ∧
      engine.handle world event =
        ({ engine with packages := packages.settle id },
          ⟨.ok (), .ofOne world.linter engine.session.lint packages
            (engine.writtenBy world.read event id directory)⟩) := by
  obtain ⟨id, directory, place, home, equal⟩ := writesAt_register wellFormed registered
  refine ⟨id, directory, place, home, equal, ?_⟩
  have isDirty : (engine.writtenBy world.read event id directory).state = .dirty :=
    Package.written_state _ _ _
  have dirty := PackageSet.dirty_upsert wellFormed.sorted clean isDirty
  have found := PackageSet.get?_upsert_self wellFormed.sorted
    (engine.writtenBy world.read event id directory)
  have swept := Sweep.run_of_one_dirty world.linter engine.session.lint dirty found
  rw [writtenBy_id] at swept
  unfold handle
  rw [registered, equal]
  simp only [sweep, calm]
  rw [← writtenBy, swept]

/-- Between events a package has nothing to clear. -/
theorem removed_homeFor (wellFormed : engine.packages.WellFormed engine.layout)
    (clean : ∀ package ∈ engine.packages.packages, package.state = .clean) (id : PackageId)
    (directory : Path) : (homeFor engine.packages id directory).removed = .empty := by
  unfold homeFor
  cases found : engine.packages.get? id with
  | none => rfl
  | some package =>
    have member := PackageSet.mem_of_get? found
    exact ((wellFormed.consistent package member).clean (clean package member)).1

/-- The document of an accepted event is dropped if and only if closing it removed it. -/
theorem dropped_iff {read : Path → Reading} {event : Event} {packages : PackageSet}
    (registered : engine.register read event = .ok packages) (id : PackageId)
    (directory file : Path) :
    event.content? read = none ∧ file = event.path ↔
      event = .closed file ∧
        (engine.writtenBy read event id directory).files.contains file = false := by
  rw [writtenBy, ← Bool.not_eq_true, Package.contains_files_written]
  cases event with
  | opened path text => simp [Event.content?]
  | updated path text => simp [Event.content?]
  | updateRejected path => exact nomatch registered
  | closed path =>
    simp only [Event.content?, Event.path, Event.closed.injEq]
    constructor
    · rintro ⟨gone, rfl⟩
      simp [gone, Path.Same.refl]
    · rintro ⟨rfl, absent⟩
      simpa [Path.Same.refl] using absent

/-- What is published after an accepted event: the files of the package that was written, and the
document if it was dropped. -/
theorem files_published_by (wellFormed : engine.packages.WellFormed engine.layout)
    (clean : ∀ package ∈ engine.packages.packages, package.state = .clean) {world : World}
    {event : Event} {packages : PackageSet}
    (registered : engine.register world.read event = .ok packages) {id : PackageId}
    {directory : Path}
    (consistent : (engine.writtenBy world.read event id directory).Consistent engine.layout)
    (confined : engine.session.lint = false ∨ ∀ set package file,
      (world.linter set package).contains file = true → package.files.contains file = true) :
    (Sweep.publications world.linter engine.session.lint packages
        (engine.writtenBy world.read event id directory)
        (engine.writtenBy world.read event id directory).diagnostics).Pairwise
        (fun left right => left.file.Before right.file) ∧
      ∀ file, file ∈ (Sweep.publications world.linter engine.session.lint packages
          (engine.writtenBy world.read event id directory)
          (engine.writtenBy world.read event id directory).diagnostics).map Publication.file ↔
        file ∈ (engine.writtenBy world.read event id directory).files.paths ∨
          event = .closed file ∧
            (engine.writtenBy world.read event id directory).files.contains file = false := by
  have only : engine.session.lint = true → ∀ file,
      (world.linter packages (engine.writtenBy world.read event id directory)).contains file =
        true → (engine.writtenBy world.read event id directory).files.contains file = true :=
    fun lints => confined.resolve_left (by simp [lints]) packages _
  obtain ⟨ordered, members⟩ := Package.files_published consistent only
  refine ⟨ordered, fun file => (members file).trans ?_⟩
  have removed := Package.mem_paths_removed_written
    (removed_homeFor wellFormed clean id directory) event.path file (event.content? world.read)
  rw [← writtenBy] at removed
  rw [← dropped_iff registered id directory, removed]

/-- An engine with nothing left to publish contains every event to the package of its document. -/
theorem InStep.contained (inStep : engine.InStep overlay) {world : World}
    (calm : world.fetcher = Engine.fetcher) (event : Event) :
    engine.Contained world event (engine.handle world event).1
      (engine.handle world event).2 := by
  have wellFormed := inStep.represents.wellFormed
  cases registered : engine.register world.read event with
  | error error =>
    rw [handle_of_refused inStep.clean registered]
    exact ⟨inStep.clean, rfl, sweep_of_clean inStep.clean, fun _ _ => ⟨rfl, rfl⟩,
      fun accepted => nomatch accepted⟩
  | ok packages =>
    have clean := (inStep.handle calm event).2.clean
    obtain ⟨id, directory, _, home, equal, handled⟩ :=
      handle_of_accepted wellFormed inStep.clean calm registered
    rw [handled] at clean ⊢
    refine ⟨clean, rfl, sweep_of_clean clean, fun _ refused => (nomatch refused), fun _ => ?_⟩
    obtain ⟨place, located⟩ := (home?_eq_some_iff engine.layout event.path id).mp home
    have after := (writesAt_register wellFormed registered).writes.wellFormed wellFormed
    have found : packages.get? id = some (engine.writtenBy world.read event id directory) := by
      have self := PackageSet.get?_upsert_self wellFormed.sorted
        (engine.writtenBy world.read event id directory)
      rwa [writtenBy_id, ← equal] at self
    refine ⟨id, place, located, congrArg ([·]) (writtenBy_id _ _ _ _ _), ?_, fun confined => ?_⟩
    · refine PackageSet.others_eq (PackageSet.sorted_settle after.sorted id) wellFormed.sorted
        fun other different => ?_
      rw [PackageSet.get?_settle_of_ne after.sorted different, equal,
        PackageSet.get?_upsert_of_ne wellFormed.sorted (by rwa [writtenBy_id])]
    · rw [PackageSet.get?_settle_self after.sorted found, Package.files_remainder?]
      exact files_published_by wellFormed inStep.clean registered
        (after.consistent _ (PackageSet.mem_of_get? found)) confined

/-! ### Runs -/

/-- What was published before does not matter to what requests do. -/
theorem foldl_serve_eq (engine : Engine) (published : List Publication)
    (steps : List (World × Request)) :
    steps.foldl Engine.serve (engine, published) =
      ((engine.run steps).1, published ++ (engine.run steps).2) := by
  have one (state : Engine × List Publication) (step : World × Request) :
      Engine.serve state step = ((Engine.serve (state.1, []) step).1,
        state.2 ++ (Engine.serve (state.1, []) step).2) := by
    unfold Engine.serve
    cases step.2 <;> rfl
  induction steps generalizing engine published with
  | nil => simp [run]
  | cons step later inductionHypothesis =>
    rw [run, List.foldl_cons, List.foldl_cons, one]
    obtain ⟨next, new⟩ := Engine.serve (engine, []) step
    rw [inductionHypothesis, inductionHypothesis, List.append_assoc]

/-- A row of requests after another. -/
theorem run_append (engine : Engine) (history steps : List (World × Request)) :
    engine.run (history ++ steps) =
      (((engine.run history).1.run steps).1,
        (engine.run history).2 ++ ((engine.run history).1.run steps).2) := by
  rw [run, List.foldl_append, ← run, ← foldl_serve_eq]

/-- A request before a row of others. -/
theorem run_cons (engine : Engine) (step : World × Request) (later : List (World × Request)) :
    engine.run (step :: later) =
      (((Engine.serve (engine, []) step).1.run later).1,
        (Engine.serve (engine, []) step).2 ++ ((Engine.serve (engine, []) step).1.run later).2) :=
  engine.run_append [step] later

/-- A request to an engine that nothing disturbs leaves it in step with some overlay. -/
theorem InStep.serve (inStep : engine.InStep overlay) {step : World × Request}
    (calm : step.1.fetcher = Engine.fetcher) (published : List Publication) :
    ∃ next, (Engine.serve (engine, published) step).1.InStep next := by
  unfold Engine.serve
  cases step.2 with
  | event event => exact ⟨_, (inStep.handle calm event).2⟩
  | sweep => exact ⟨_, inStep_sweep inStep.represents calm⟩

theorem InStep.foldl_serve (inStep : engine.InStep overlay) {steps : List (World × Request)}
    (undisturbed : ∀ step ∈ steps, step.1.fetcher = Engine.fetcher)
    (published : List Publication) :
    ∃ next, (steps.foldl Engine.serve (engine, published)).1.InStep next := by
  induction steps generalizing engine overlay published with
  | nil => exact ⟨overlay, inStep⟩
  | cons step later inductionHypothesis =>
    obtain ⟨calm, laterUndisturbed⟩ := List.forall_mem_cons.mp undisturbed
    obtain ⟨next, nextInStep⟩ := inStep.serve calm published
    exact inductionHypothesis nextInStep laterUndisturbed _

/-- A row of requests to an engine that nothing disturbs leaves it in step with some overlay. -/
theorem InStep.run (inStep : engine.InStep overlay) {steps : List (World × Request)}
    (undisturbed : ∀ step ∈ steps, step.1.fetcher = Engine.fetcher) :
    ∃ next, (engine.run steps).1.InStep next :=
  inStep.foldl_serve undisturbed []

/-- After loading and any events, the next event is contained: no package is left dirty and no
fetch fails; refused, it changes and publishes nothing; accepted, it sweeps the package of its
document only and publishes the files of this package. -/
theorem handle_contained {addressing : Addressing} {session : Session} {connect : Path → Layout}
    {disk : Disk} (sound : disk.root.isSound = true)
    (loaded : load addressing session connect disk = .ok engine)
    {steps : List (World × Event)}
    (undisturbed : ∀ step ∈ steps, step.1.fetcher = Engine.fetcher) {world : World}
    (calm : world.fetcher = Engine.fetcher) (event : Event) :
    (engine.after steps).Contained world event ((engine.after steps).handle world event).1
      ((engine.after steps).handle world event).2 :=
  ((inStep_load sound loaded).after undisturbed).contained calm event

/-- A session on the disk with a single directory, where no package was found. -/
def bare : Engine :=
  { session := ⟨"file:///.ws", true⟩, layout := ofRoot ⟨"/.ws"⟩, packages := .empty }

theorem load_bare {disk : Disk} {packages : PackageSet}
    (read : bare.layout.load disk = .ok packages) :
    load Url.addressing bare.session ofRoot disk = .ok { bare with packages } := by
  have resolved : resolveWorkspace Url.addressing bare.session.workspaceUri = .ok ⟨"/.ws"⟩ := by
    decide +kernel
  have sameRead : (ofRoot ⟨"/.ws"⟩).load disk = .ok packages := read
  unfold load
  simp only [resolved, sameRead]
  rfl

theorem load_hidden {entries : List (String × Node)}
    (noPackages : packagesUnder bare.layout (Disk.hidden entries).read bare.layout.root
      (.directory entries) = .ok []) : bare.layout.load (.hidden entries) = .ok .empty := by
  have entry : (Disk.hidden entries).entry bare.layout.root = .ok (.directory entries) :=
    Disk.entry_hidden entries
  unfold Layout.load
  rw [entry]
  simp only [noPackages]
  show Except.ok (PackageSet.mk (List.mergeSort [] _)) = .ok .empty
  rw [List.mergeSort_nil]
  rfl

/-- A world in which nothing is on the disk. -/
def nothingThere : World :=
  { read := fun _ => .absent, fetcher := Engine.fetcher, linter := Lint.silent }

/-- A document brought its package into being and was never saved. Closing it clears its error and
drops the package. -/
theorem handle_contained_unsaved :
    load Url.addressing bare.session ofRoot (.hidden []) = .ok bare ∧
      (bare.after [(nothingThere, .opened ⟨"/.ws/api/a.gunk"⟩ "nonsense")]).Contained nothingThere
        (.closed ⟨"/.ws/api/a.gunk"⟩)
        ((bare.after [(nothingThere, .opened ⟨"/.ws/api/a.gunk"⟩ "nonsense")]).handle nothingThere
          (.closed ⟨"/.ws/api/a.gunk"⟩)).1
        ((bare.after [(nothingThere, .opened ⟨"/.ws/api/a.gunk"⟩ "nonsense")]).handle nothingThere
          (.closed ⟨"/.ws/api/a.gunk"⟩)).2 ∧
      ((bare.after [(nothingThere, .opened ⟨"/.ws/api/a.gunk"⟩ "nonsense")]).handle nothingThere
        (.closed ⟨"/.ws/api/a.gunk"⟩)).2.sweep.published = [⟨⟨"/.ws/api/a.gunk"⟩, []⟩] := by
  have loaded : load Url.addressing bare.session ofRoot (.hidden []) = .ok bare :=
    load_bare (load_hidden rfl)
  refine ⟨loaded, handle_contained (by decide) loaded ?_ rfl _, by decide +kernel⟩
  exact List.forall_mem_singleton.mpr rfl

end Engine

end WorkspaceSync
