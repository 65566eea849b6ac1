/-
This file says what a sweep does to the packages and what it publishes.

A sweep takes one step for each id that was dirty when it began. A step that
succeeds settles the package of the id and publishes for it; one that fails does
nothing to the packages and publishes nothing. Whatever holds at first and is
kept by the steps that succeed therefore holds in the end (`run_induction`).

Where nothing disturbs the fetches, no step fails, and a sweep is the settling
of all dirty packages one after the other (`run_settles`), which leaves every
package clean.
-/
import WorkspaceSync.Proofs.Tracking
import WorkspaceSync.Sync.Engine

namespace WorkspaceSync

/-! ### Fetching -/

/-- The diagnostics of a package: every file it has or had since the last publication is present,
and the errors are added to their files. -/
def Package.diagnostics (package : Package) : FileDiagnostics :=
  package.errors.foldl FileDiagnostics.push
    ((package.files.paths ++ package.removed.paths).foldl FileDiagnostics.touch .empty)

theorem Layout.errorsOf_eq (set : PackageSet) (id : PackageId) :
    errorsOf set id =
      match set.get? id with
      | none => .error (.unknownPackage id)
      | some package => .ok package.diagnostics := rfl

/-- A fetcher that gives the diagnostics of the package it is asked for, or fails. -/
def Fetcher.Faithful (fetcher : Fetcher) : Prop :=
  ∀ call set id, fetcher call set id = Layout.errorsOf set id ∨
    ∃ cause, fetcher call set id = .error cause

theorem Engine.faithful_fetcher : Fetcher.Faithful Engine.fetcher :=
  fun _ _ _ => .inl rfl

/-- A fetcher that fails at first is faithful. -/
theorem Engine.faithful_failingFetcher (failures : Nat) :
    Fetcher.Faithful (Engine.failingFetcher failures) := by
  intro call set id
  unfold failingFetcher
  split
  · exact .inr ⟨_, rfl⟩
  · exact .inl rfl

namespace Sweep

variable {fetcher : Fetcher} (linter : Linter) (lint : Bool)

/-! ### One step -/

/-- A step does nothing, or it settles the package of the id and publishes for it. -/
theorem one_cases (faithful : fetcher.Faithful) (set : PackageSet) (sweep : Sweep)
    (id : PackageId) :
    (one fetcher linter lint (set, sweep) id).1 = set ∧
        (one fetcher linter lint (set, sweep) id).2.published = sweep.published ∨
      ∃ package, set.get? id = some package ∧
        (one fetcher linter lint (set, sweep) id).1 = set.settle id ∧
        (one fetcher linter lint (set, sweep) id).2.published =
          sweep.published ++ publications linter lint set package package.diagnostics := by
  unfold one
  rcases faithful sweep.fetched.length set id with fetched | ⟨cause, failed⟩
  · simp only [fetched, Layout.errorsOf_eq]
    cases found : set.get? id with
    | none => exact .inl ⟨rfl, rfl⟩
    | some package => exact .inr ⟨package, rfl, rfl, rfl⟩
  · refine .inl ⟨?_, ?_⟩
    · simp only [failed]
    · simp only [failed]

/-- What holds at the start of a sweep and is kept by the steps that succeed holds at its end. -/
theorem run_induction (faithful : fetcher.Faithful) {set : PackageSet}
    (holds : PackageSet → List Publication → Prop) (start : holds set [])
    (step : ∀ set published id package, holds set published → set.get? id = some package →
      holds (set.settle id)
        (published ++ publications linter lint set package package.diagnostics)) :
    holds (run fetcher linter lint set).1 (run fetcher linter lint set).2.published := by
  unfold run
  generalize set.dirty = ids
  have steps (state : PackageSet × Sweep) (before : holds state.1 state.2.published) :
      holds (ids.foldl (one fetcher linter lint) state).1
        (ids.foldl (one fetcher linter lint) state).2.published := by
    induction ids generalizing state with
    | nil => exact before
    | cons id later inductionHypothesis =>
      refine inductionHypothesis _ ?_
      rcases one_cases linter lint faithful state.1 state.2 id with
        ⟨sameSet, samePublished⟩ | ⟨package, found, settled, published⟩
      · rw [sameSet, samePublished]
        exact before
      · rw [settled, published]
        exact step _ _ id package before found
  exact steps (set, .none) start

/-! ### Sweeps that nothing disturbs -/

theorem one_settles (state : PackageSet × Sweep) (id : PackageId) :
    (one Engine.fetcher linter lint state id).1 = state.1.settle id := by
  unfold one Engine.fetcher
  simp only [Layout.errorsOf_eq]
  cases found : state.1.get? id with
  | none => simp [PackageSet.settle, found]
  | some package => rfl

/-- A sweep that nothing disturbs settles every dirty package. -/
theorem run_settles (set : PackageSet) :
    (run Engine.fetcher linter lint set).1 = set.dirty.foldl PackageSet.settle set :=
  (List.foldl_hom Prod.fst fun state id => (one_settles linter lint state id).symm).symm

end Sweep

namespace PackageSet

/-- Settling leaves no package with one of the ids dirty. -/
theorem mem_foldl_settle {set : PackageSet} (sorted : set.Sorted) {ids : List PackageId}
    {package : Package} (member : package ∈ (ids.foldl settle set).packages) :
    package ∈ set.packages ∧ package.id ∉ ids ∨ package.state = .clean := by
  induction ids generalizing set with
  | nil => exact .inl ⟨member, List.not_mem_nil⟩
  | cons id later inductionHypothesis =>
    rcases inductionHypothesis (sorted_settle sorted id) member with ⟨kept, notLater⟩ | clean
    · rcases (mem_settle sorted id package).mp kept with ⟨inSet, different⟩ | ⟨old, _, _, remains⟩
      · exact .inl ⟨inSet, by simp [different, notLater]⟩
      · obtain ⟨_, rfl⟩ := (Package.remainder?_eq_some_iff old package).mp remains
        exact .inr rfl
    · exact .inr clean

/-- A sweep that nothing disturbs leaves every package clean. -/
theorem clean_of_mem_run {set : PackageSet} (sorted : set.Sorted) (linter : Linter) (lint : Bool)
    {package : Package}
    (member : package ∈ (Sweep.run Engine.fetcher linter lint set).1.packages) :
    package.state = .clean := by
  rw [Sweep.run_settles] at member
  rcases mem_foldl_settle sorted member with ⟨inSet, notDirty⟩ | clean
  · by_contra dirty
    refine notDirty (List.mem_map_of_mem (List.mem_filter.mpr ⟨inSet, decide_eq_true ?_⟩))
    cases state : package.state with
    | clean => exact absurd state dirty
    | dirty => rfl
  · exact clean

end PackageSet

end WorkspaceSync
