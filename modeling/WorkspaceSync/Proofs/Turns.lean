/-
This file gives a full account of what a sweep does, whatever fetches the
diagnostics and whatever the linter finds.

A sweep takes one turn for each package that was dirty when it began. The ids of
these packages are listed at the start, while the set changes from turn to turn:
packages that were swept are settled, and those without files are gone. At each
turn the set is nevertheless a function of what was swept so far
(`settledAll`), and the package of the turn stands in it as it stood at first,
so that it is always found. The report of the sweep is then read off the turns
(`summary`).
-/
import WorkspaceSync.Proofs.Publication

namespace WorkspaceSync

/-! ### Sets with some packages settled -/

/-- What is left of a package once the packages with the given ids are published. -/
def Package.leftAfter (ids : List PackageId) (package : Package) : Option Package :=
  if package.id ∈ ids then package.remainder? else some package

theorem Package.leftAfter_id {ids : List PackageId} {package left : Package}
    (kept : package.leftAfter ids = some left) : left.id = package.id := by
  unfold leftAfter at kept
  split at kept
  · exact remainder?_id kept
  · rw [Option.some_inj.mp kept]

namespace PackageSet

/-- The set once the diagnostics of the packages with the given ids are published. -/
def settledAll (set : PackageSet) (ids : List PackageId) : PackageSet :=
  ⟨set.packages.filterMap (Package.leftAfter ids)⟩

theorem settledAll_nil (set : PackageSet) : set.settledAll [] = set := by
  have unchanged : Package.leftAfter [] = some := by
    funext package
    exact if_neg List.not_mem_nil
  rw [settledAll, unchanged, List.filterMap_some]

theorem distinct_settledAll {set : PackageSet} (distinct : set.ids.Nodup)
    (ids : List PackageId) :
    (set.settledAll ids).packages.Pairwise fun left right => left.id ≠ right.id := by
  refine (List.pairwise_map.mp distinct).filterMap _ ?_
  intro left right different leftKept leftEqual rightKept rightEqual
  rw [Package.leftAfter_id leftEqual, Package.leftAfter_id rightEqual]
  exact different

/-- Settling one more package. -/
theorem settle_settledAll {set : PackageSet} (distinct : set.ids.Nodup) {ids : List PackageId}
    {id : PackageId} (fresh : id ∉ ids) :
    (set.settledAll ids).settle id = set.settledAll (ids ++ [id]) := by
  have packages := packages_settle_of_distinct (distinct_settledAll distinct ids) id
  have equal : ((set.settledAll ids).settle id).packages =
      (set.settledAll (ids ++ [id])).packages := by
    rw [packages, settledAll, settledAll, List.filterMap_filterMap]
    refine List.filterMap_congr fun package _ => ?_
    unfold Package.leftAfter
    by_cases settled : package.id ∈ ids
    · -- What is left of it has another id and is passed over.
      rw [if_pos settled, if_pos (List.mem_append_left _ settled)]
      refine (Option.bind_congr fun left remains => if_neg ?_).trans (Option.bind_fun_some _)
      rw [Package.remainder?_id remains]
      rintro rfl
      exact fresh settled
    · rw [if_neg settled, Option.bind_some]
      simp only [List.mem_append, settled, List.mem_singleton, false_or]
  cases left : (set.settledAll ids).settle id
  rw [left] at equal
  exact congrArg PackageSet.mk equal

/-- A package that is not settled is found as it was. -/
theorem get?_settledAll (set : PackageSet) {ids : List PackageId} {id : PackageId}
    (fresh : id ∉ ids) : (set.settledAll ids).get? id = set.get? id := by
  obtain ⟨packages⟩ := set
  simp only [settledAll, get?]
  induction packages with
  | nil => rfl
  | cons package later inductionHypothesis =>
    by_cases same : package.id = id
    · have kept : package.leftAfter ids = some package := if_neg (same ▸ fresh)
      rw [List.filterMap_cons_some kept, List.find?_cons_of_pos (by simpa using same),
        List.find?_cons_of_pos (by simpa using same)]
    · rw [List.find?_cons_of_neg (by simpa using same)]
      cases kept : package.leftAfter ids with
      | none => rw [List.filterMap_cons_none kept, inductionHypothesis]
      | some left =>
        have different : left.id ≠ id := by rwa [Package.leftAfter_id kept]
        rw [List.filterMap_cons_some kept, List.find?_cons_of_neg (by simpa using different),
          inductionHypothesis]

end PackageSet

/-! ### Turns -/

/-- What a sweep did with one package. -/
structure Turn where
  package : Package
  /-- The set as it was at this turn. -/
  set : PackageSet
  /-- What fetching the diagnostics of the package gave. -/
  answer : Except PackageError FileDiagnostics

namespace Turn

/-- The package is swept if its diagnostics were fetched. -/
def swept? (turn : Turn) : Option PackageId :=
  match turn.answer with
  | .ok _ => some turn.package.id
  | .error _ => none

/-- The package fails if its diagnostics could not be fetched. -/
def failure? (turn : Turn) : Option (PackageId × PackageError) :=
  match turn.answer with
  | .ok _ => none
  | .error cause => some (turn.package.id, cause)

/-- The package is handed to the linter if it is swept, the session lints and it has no errors. -/
def linted? (lint : Bool) (turn : Turn) : Option PackageId :=
  turn.swept?.filter fun _ => lint = true ∧ turn.package.errors = []

/-- What the linter finds at this turn, if it is asked. -/
def findings (linter : Linter) (lint : Bool) (turn : Turn) : FileDiagnostics :=
  if lint = true ∧ turn.package.errors = [] then linter turn.set turn.package else .empty

/-- What is published at this turn: all that was fetched, and after it what the linter finds, file
by file in the order of the paths. -/
def published (linter : Linter) (lint : Bool) (turn : Turn) : List Publication :=
  match turn.answer with
  | .ok fetched =>
    (FileDiagnostics.append fetched (turn.findings linter lint)).entries.map
      fun entry => ⟨entry.1, entry.2⟩
  | .error _ => []

/-- The packages that a row of turns swept. -/
def sweptIn (turns : List Turn) : List PackageId :=
  turns.filterMap swept?

theorem sweptIn_concat (turns : List Turn) (turn : Turn) :
    sweptIn (turns ++ [turn]) = sweptIn turns ++ turn.swept?.toList := by
  unfold sweptIn
  rw [List.filterMap_append]
  cases swept : turn.swept? <;> simp [swept]

theorem mem_of_mem_sweptIn {turns : List Turn} {id : PackageId} (member : id ∈ sweptIn turns) :
    id ∈ turns.map fun turn => turn.package.id := by
  obtain ⟨turn, inTurns, swept⟩ := List.mem_filterMap.mp member
  unfold swept? at swept
  split at swept
  · exact List.mem_map.mpr ⟨turn, inTurns, Option.some_inj.mp swept⟩
  · exact nomatch swept

/-- The turn of a package after others: the fetcher is handed the set with what they swept
settled. -/
def next (fetcher : Fetcher) (set : PackageSet) (turns : List Turn) (package : Package) : Turn :=
  { package
    set := set.settledAll (sweptIn turns)
    answer := fetcher turns.length (set.settledAll (sweptIn turns)) package.id }

end Turn

namespace Sweep

open Turn

/-- The report of a sweep that took the given turns. -/
def summary (linter : Linter) (lint : Bool) (turns : List Turn) : Sweep :=
  { swept := sweptIn turns
    published := turns.flatMap (Turn.published linter lint)
    count := (turns.flatMap (Turn.published linter lint)).length
    failures := turns.filterMap failure?
    fetched := turns.map fun turn => turn.package.id
    linted := turns.filterMap (linted? lint) }

/-- Each turn is taken where the ones before it lead, and finds its package as it was at first. -/
structure Course (fetcher : Fetcher) (set : PackageSet) (turns : List Turn) : Prop where
  handed : ∀ index turn, turns[index]? = some turn →
    turn.set = set.settledAll (sweptIn (turns.take index))
  asked : ∀ index turn, turns[index]? = some turn →
    turn.answer = fetcher index turn.set turn.package.id
  found : ∀ turn ∈ turns, turn.set.get? turn.package.id = some turn.package

variable {fetcher : Fetcher} {linter : Linter} {lint : Bool} {set : PackageSet} {turns : List Turn}
  {package : Package}

theorem course_nil : Course fetcher set [] :=
  ⟨fun _ _ missing => (nomatch missing), fun _ _ missing => (nomatch missing),
    fun _ member => absurd member List.not_mem_nil⟩

theorem get?_next (distinct : set.ids.Nodup) (member : package ∈ set.packages)
    (fresh : package.id ∉ turns.map fun turn => turn.package.id) :
    (set.settledAll (sweptIn turns)).get? package.id = some package := by
  rw [PackageSet.get?_settledAll set fun swept => fresh (mem_of_mem_sweptIn swept)]
  exact (PackageSet.get?_eq_some_iff (List.pairwise_map.mp distinct) _ _).mpr ⟨member, rfl⟩

theorem Course.next (course : Course fetcher set turns) (distinct : set.ids.Nodup)
    (member : package ∈ set.packages)
    (fresh : package.id ∉ turns.map fun turn => turn.package.id) :
    Course fetcher set (turns ++ [Turn.next fetcher set turns package]) := by
  -- A turn of the longer row is an old one or the new last one.
  have position {index : Nat} {turn : Turn}
      (here : (turns ++ [Turn.next fetcher set turns package])[index]? = some turn) :
      (turns[index]? = some turn ∧
          (turns ++ [Turn.next fetcher set turns package]).take index = turns.take index) ∨
        index = turns.length ∧ turn = Turn.next fetcher set turns package := by
    rcases Nat.lt_trichotomy index turns.length with before | last | beyond
    · rw [List.getElem?_append_left before] at here
      exact .inl ⟨here, List.take_append_of_le_length (Nat.le_of_lt before)⟩
    · rw [last, List.getElem?_concat_length, Option.some_inj] at here
      exact .inr ⟨last, here.symm⟩
    · rw [List.getElem?_eq_none (by simp; omega)] at here
      exact absurd here (by simp)
  refine ⟨fun index turn here => ?_, fun index turn here => ?_, fun turn inTurns => ?_⟩
  · rcases position here with ⟨old, initial⟩ | ⟨rfl, rfl⟩
    · rw [initial]
      exact course.handed index turn old
    · rw [List.take_left]
      rfl
  · rcases position here with ⟨old, _⟩ | ⟨rfl, rfl⟩
    · exact course.asked index turn old
    · rfl
  · rcases List.mem_append.mp inTurns with old | last
    · exact course.found turn old
    · rw [List.mem_singleton.mp last]
      exact get?_next distinct member fresh

theorem wantsLint_iff (lint : Bool) (package : Package) :
    wantsLint lint package = true ↔ lint = true ∧ package.errors = [] := by
  rw [wantsLint, Bool.and_eq_true, List.isEmpty_iff]

theorem publications_eq {turn : Turn} {fetched : FileDiagnostics}
    (answered : turn.answer = .ok fetched) :
    publications linter lint turn.set turn.package fetched = turn.published linter lint := by
  unfold publications Turn.published Turn.findings
  rw [answered]
  by_cases wanted : wantsLint lint turn.package = true
  · simp only [wanted, if_true, if_pos ((wantsLint_iff lint turn.package).mp wanted)]
  · simp only [wanted, Bool.false_eq_true, if_false,
      if_neg fun both => wanted ((wantsLint_iff lint turn.package).mpr both)]
    rfl

/-- A turn that fails adds a failure and nothing else. -/
theorem summary_concat_of_error {turn : Turn} {cause : PackageError}
    (answered : turn.answer = .error cause) :
    summary linter lint (turns ++ [turn]) =
      { summary linter lint turns with
        fetched := (summary linter lint turns).fetched ++ [turn.package.id]
        failures := (summary linter lint turns).failures ++ [(turn.package.id, cause)] } := by
  have notSwept : turn.swept? = .none := by
    unfold swept?
    rw [answered]
  simp [summary, sweptIn_concat, Turn.published, failure?, linted?, notSwept, answered]

/-- A turn that succeeds sweeps its package and adds what is published for it. -/
theorem summary_concat_of_ok {turn : Turn} {fetched : FileDiagnostics}
    (answered : turn.answer = .ok fetched) :
    summary linter lint (turns ++ [turn]) =
      { summary linter lint turns with
        fetched := (summary linter lint turns).fetched ++ [turn.package.id]
        swept := (summary linter lint turns).swept ++ [turn.package.id]
        published := (summary linter lint turns).published ++ turn.published linter lint
        count := (summary linter lint turns).count + (turn.published linter lint).length
        linted :=
          if wantsLint lint turn.package then
            (summary linter lint turns).linted ++ [turn.package.id]
          else (summary linter lint turns).linted } := by
  have isSwept : turn.swept? = some turn.package.id := by
    unfold swept?
    rw [answered]
  by_cases wants : lint = true ∧ turn.package.errors = []
  · simp [summary, sweptIn_concat, failure?, linted?, isSwept, answered, wantsLint_iff, wants]
  · simp [summary, sweptIn_concat, failure?, linted?, isSwept, answered, wantsLint_iff, wants]

/-- One step of a sweep takes the next turn. -/
theorem one_next (distinct : set.ids.Nodup) (member : package ∈ set.packages)
    (fresh : package.id ∉ turns.map fun turn => turn.package.id) :
    one fetcher linter lint (set.settledAll (sweptIn turns), summary linter lint turns)
        package.id =
      (set.settledAll (sweptIn (turns ++ [Turn.next fetcher set turns package])),
        summary linter lint (turns ++ [Turn.next fetcher set turns package])) := by
  have found := get?_next distinct member fresh
  have notYet : package.id ∉ sweptIn turns := fun swept => fresh (mem_of_mem_sweptIn swept)
  have settled := PackageSet.settle_settledAll distinct notYet
  have calls : (summary linter lint turns).fetched.length = turns.length := by
    simp [summary]
  unfold one
  simp only [calls, found]
  cases answered : fetcher turns.length (set.settledAll (sweptIn turns)) package.id with
  | error cause =>
    have failed : (Turn.next fetcher set turns package).answer = .error cause := answered
    have notSwept : (Turn.next fetcher set turns package).swept? = .none := by
      unfold swept?
      rw [failed]
    rw [summary_concat_of_error failed, sweptIn_concat, notSwept, Option.toList_none,
      List.append_nil]
    rfl
  | ok fetched =>
    have succeeded : (Turn.next fetcher set turns package).answer = .ok fetched := answered
    have isSwept : (Turn.next fetcher set turns package).swept? = some package.id := by
      unfold swept?
      rw [succeeded]
      rfl
    rw [summary_concat_of_ok succeeded, sweptIn_concat, isSwept, Option.toList_some, ← settled,
      ← publications_eq succeeded]
    rfl

/-- The steps for a row of packages take one turn for each of them. -/
theorem foldl_one (distinct : set.ids.Nodup) {packages : List Package}
    (within : ∀ package ∈ packages, package ∈ set.packages)
    (different : (packages.map Package.id).Nodup) (course : Course fetcher set turns)
    (fresh : ∀ package ∈ packages, package.id ∉ turns.map fun turn => turn.package.id) :
    ∃ later, later.map Turn.package = packages ∧ Course fetcher set (turns ++ later) ∧
      (packages.map Package.id).foldl (one fetcher linter lint)
          (set.settledAll (sweptIn turns), summary linter lint turns) =
        (set.settledAll (sweptIn (turns ++ later)), summary linter lint (turns ++ later)) := by
  induction packages generalizing turns with
  | nil => exact ⟨[], rfl, by rwa [List.append_nil], by simp⟩
  | cons package others inductionHypothesis =>
    obtain ⟨member, othersWithin⟩ := List.forall_mem_cons.mp within
    obtain ⟨isFresh, othersFresh⟩ := List.forall_mem_cons.mp fresh
    rw [List.map_cons, List.nodup_cons] at different
    have stillFresh : ∀ other ∈ others, other.id ∉
        (turns ++ [Turn.next fetcher set turns package]).map fun turn => turn.package.id := by
      intro other inOthers taken
      rw [List.map_append, List.mem_append] at taken
      rcases taken with before | now
      · exact othersFresh other inOthers before
      · have equal : other.id = package.id := List.mem_singleton.mp now
        exact different.1 (equal ▸ List.mem_map_of_mem inOthers)
    obtain ⟨later, packages, wholeCourse, run⟩ := inductionHypothesis othersWithin different.2
      (course.next distinct member isFresh) stillFresh
    rw [← List.append_cons] at wholeCourse run
    refine ⟨Turn.next fetcher set turns package :: later, ?_, wholeCourse, ?_⟩
    · rw [List.map_cons, packages]
      rfl
    · rw [List.map_cons, List.foldl_cons, one_next distinct member isFresh, run]

/-- A sweep is the summary of one turn for each dirty package. -/
theorem run_eq_summary (fetcher : Fetcher) (linter : Linter) (lint : Bool)
    (distinct : set.ids.Nodup) :
    ∃ turns, turns.map Turn.package = set.packages.filter Package.isDirty ∧
      Course fetcher set turns ∧
      run fetcher linter lint set =
        (set.settledAll (sweptIn turns), summary linter lint turns) := by
  have different : ((set.packages.filter Package.isDirty).map Package.id).Nodup :=
    distinct.sublist (List.filter_sublist.map Package.id)
  obtain ⟨turns, packages, course, steps⟩ := foldl_one distinct
    (fun package member => List.mem_of_mem_filter member) different
    (course_nil : Course fetcher set []) fun _ _ none => absurd none List.not_mem_nil
  have start : (set.settledAll (sweptIn []), summary linter lint []) = (set, .none) := by
    rw [sweptIn, List.filterMap_nil, PackageSet.settledAll_nil]
    rfl
  rw [List.nil_append, start] at steps
  exact ⟨turns, packages, course, steps⟩

/-! ### The account -/

/-- Every turn sweeps its package or fails on it. -/
theorem swept_or_failed (turns : List Turn) :
    (sweptIn turns).Sublist (turns.map fun turn => turn.package.id) ∧
      ((turns.filterMap failure?).map Prod.fst).Sublist (turns.map fun turn => turn.package.id) ∧
      (sweptIn turns ++ (turns.filterMap failure?).map Prod.fst).Perm
        (turns.map fun turn => turn.package.id) := by
  unfold sweptIn
  induction turns with
  | nil => exact ⟨.slnil, .slnil, .nil⟩
  | cons turn later inductionHypothesis =>
    obtain ⟨swept, failed, together⟩ := inductionHypothesis
    cases answered : turn.answer with
    | ok fetched =>
      have isSwept : turn.swept? = some turn.package.id := by
        unfold swept?
        rw [answered]
      have noFailure : turn.failure? = .none := by
        unfold failure?
        rw [answered]
      rw [List.filterMap_cons_some isSwept, List.filterMap_cons_none noFailure, List.map_cons]
      exact ⟨swept.cons_cons _, failed.cons _, together.cons _⟩
    | error cause =>
      have notSwept : turn.swept? = .none := by
        unfold swept?
        rw [answered]
      have failure : turn.failure? = some (turn.package.id, cause) := by
        unfold failure?
        rw [answered]
      rw [List.filterMap_cons_none notSwept, List.filterMap_cons_some failure, List.map_cons,
        List.map_cons]
      exact ⟨swept.cons _, failed.cons_cons _, List.perm_middle.trans (together.cons _)⟩

/-- What is published at a turn has each file once, in ascending order, with all that was fetched
for it and then all that the linter found on it. -/
theorem published_spec (linter : Linter) (lint : Bool) {turn : Turn} {fetched : FileDiagnostics}
    (answered : turn.answer = .ok fetched) :
    (turn.published linter lint).Pairwise
        (fun left right => left.file.Before right.file) ∧
      ∀ file, lastFor? (turn.published linter lint) file =
        if fetched.contains file = true ∨
            (turn.findings linter lint).contains file = true then
          some ((fetched.find? file).getD [] ++
            ((turn.findings linter lint).find? file).getD [])
        else .none := by
  unfold Turn.published
  rw [answered]
  constructor
  · exact List.pairwise_map.mpr
      (FileDiagnostics.append fetched (turn.findings linter lint)).ascending
  · intro file
    rw [lastFor?_entries, FileDiagnostics.find?_append]

/-- An account of a sweep: how it went from turn to turn, what it reports and what it leaves. -/
structure Account (fetcher : Fetcher) (linter : Linter) (lint : Bool) (set : PackageSet)
    (turns : List Turn) (final : PackageSet) (sweep : Sweep) : Prop where
  /-- There is one turn for each package that was dirty at first, in the order of the set. -/
  packages : turns.map Turn.package = set.packages.filter Package.isDirty
  /-- Each turn is handed the set with what was swept so far settled, asks for the diagnostics of
  its package once, and finds the package as it was at first. -/
  course : Course fetcher set turns
  /-- The fetches are those for the dirty packages, one each and in order. -/
  fetched : sweep.fetched = set.dirty
  swept : sweep.swept = turns.filterMap swept?
  failures : sweep.failures = turns.filterMap failure?
  /-- The packages that were swept and those that failed make up the dirty ones, each in their
  order. -/
  complementary : sweep.swept.Sublist set.dirty ∧
    (sweep.failures.map Prod.fst).Sublist set.dirty ∧
    (sweep.swept ++ sweep.failures.map Prod.fst).Perm set.dirty
  /-- The linter is asked for the swept packages without errors, if the session lints. -/
  linted : sweep.linted = turns.filterMap (linted? lint)
  /-- Publications come turn by turn. -/
  published : sweep.published = turns.flatMap (Turn.published linter lint)
  /-- At each turn every file is published once, in the order of the paths, with what was fetched
  for it and after that what the linter found on it. -/
  shown : ∀ turn ∈ turns, ∀ fetched, turn.answer = .ok fetched →
    (turn.published linter lint).Pairwise (fun left right => left.file.Before right.file) ∧
      ∀ file, lastFor? (turn.published linter lint) file =
        if fetched.contains file = true ∨
            (turn.findings linter lint).contains file = true then
          some ((fetched.find? file).getD [] ++
            ((turn.findings linter lint).find? file).getD [])
        else .none
  count : sweep.count = sweep.published.length
  /-- The swept packages are settled, or dropped if they have no files. All others, those that
  failed among them, are as they were, and in their place. -/
  final : final.packages = set.packages.filterMap fun package =>
    if package.id ∈ sweep.swept then
      if package.files.isEmpty then .none
      else some { package with state := .clean, removed := .empty }
    else some package

theorem account_run (fetcher : Fetcher) (linter : Linter) (lint : Bool)
    (distinct : set.ids.Nodup) :
    ∃ turns, Account fetcher linter lint set turns (run fetcher linter lint set).1
      (run fetcher linter lint set).2 := by
  obtain ⟨turns, packages, course, equal⟩ := run_eq_summary fetcher linter lint distinct
  have dirty : (turns.map fun turn => turn.package.id) = set.dirty := by
    rw [PackageSet.dirty, ← packages, List.map_map]
    rfl
  rw [equal]
  refine ⟨turns, packages, course, dirty, rfl, rfl, ?_, rfl, rfl, ?_, rfl, rfl⟩
  · rw [← dirty]
    exact swept_or_failed turns
  · exact fun turn _ fetched answered => published_spec linter lint answered

end Sweep

namespace Engine

/-- Whatever fetches the diagnostics and whatever the linter finds, a sweep over packages with
distinct ids is accounted for turn by turn. It keeps the session and the rules. -/
theorem sweep_accounted (engine : Engine) (world : World)
    (distinct : engine.packages.ids.Nodup) :
    (engine.sweep world).1.session = engine.session ∧
      (engine.sweep world).1.layout = engine.layout ∧
      ∃ turns, Sweep.Account world.fetcher world.linter engine.session.lint engine.packages turns
        (engine.sweep world).1.packages (engine.sweep world).2 :=
  ⟨rfl, rfl, Sweep.account_run world.fetcher world.linter engine.session.lint distinct⟩

/-- A clean package, a dirty one that lost its only file, and another dirty one. -/
def halfDirty : Engine :=
  { session := ⟨"file:///ws", true⟩
    layout := .ofRoot ⟨"/ws"⟩
    packages := ⟨[.new ⟨"a"⟩ ⟨"/ws/a"⟩,
      { Package.new ⟨"b"⟩ ⟨"/ws/b"⟩ with
        state := .dirty
        removed := PathMap.empty.insert ⟨"/ws/b/x.gunk"⟩ () },
      { Package.new ⟨"c"⟩ ⟨"/ws/c"⟩ with state := .dirty }]⟩ }

/-- A world whose second fetch in a sweep fails. -/
def secondFails : World :=
  { read := fun _ => .absent
    fetcher := fun call set id =>
      if call = 1 then .error (.unknownPackage id) else Layout.errorsOf set id
    linter := Lint.silent }

/-- The package without files is cleared and dropped, the one that fails stays dirty. -/
theorem sweep_accounted_halfDirty :
    halfDirty.packages.ids.Nodup ∧
      (∃ turns, Sweep.Account secondFails.fetcher secondFails.linter true halfDirty.packages turns
        (halfDirty.sweep secondFails).1.packages (halfDirty.sweep secondFails).2) ∧
      (halfDirty.sweep secondFails).2.published = [⟨⟨"/ws/b/x.gunk"⟩, []⟩] ∧
      (halfDirty.sweep secondFails).1.packages.ids = [⟨"a"⟩, ⟨"c"⟩] ∧
      (halfDirty.sweep secondFails).1.packages.dirty = [⟨"c"⟩] :=
  ⟨by decide, (sweep_accounted halfDirty secondFails (by decide)).2.2, by decide, by decide,
    by decide⟩

end Engine

end WorkspaceSync
