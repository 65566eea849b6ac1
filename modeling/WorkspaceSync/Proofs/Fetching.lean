/-
This file shows that fetching the diagnostics of a package neither loses nor
invents anything.

The errors of a package are one list, in the order of their files. What is
fetched is a collection by file, which the errors are dealt out to after the
files of the package, and those it remembers for clearing, were made present.
In a reachable set the two tell the same: every error is on a file of the
package, each file has at most one, and no file that left has any. So the
collection has no further files, and reading it file by file gives the list
back.
-/
import WorkspaceSync.Proofs.Locality

namespace WorkspaceSync

open Layout

namespace Package

variable {layout : Layout} {package : Package}

/-- A collection shows a package: its errors, all of its files and those that it remembers. -/
structure ShownBy (package : Package) (shown : FileDiagnostics) : Prop where
  ascending : shown.paths.Pairwise Path.Before
  files : ∀ file, file ∈ shown.paths ↔ file ∈ package.files.paths ∨ file ∈ package.removed.paths
  /-- A file that left is cleared. -/
  cleared : ∀ file ∈ package.removed.paths, shown.find? file = some []
  /-- A file has at most one error, and that is on it. -/
  single : ∀ file ∈ package.files.paths, shown.find? file = some [] ∨
    ∃ error, shown.find? file = some [error] ∧ error.file = file
  /-- The lists of the files, put together in order, are the errors of the package. -/
  whole : shown.entries.flatMap Prod.snd = package.errors

/-- The errors of a package stand in strictly ascending order of their files. -/
theorem Consistent.ascending_errors (consistent : package.Consistent layout) :
    package.errors.Pairwise fun left right => left.file.Before right.file := by
  rw [← congrArg Package.errors consistent.analyzed]
  exact package.ascending_errors_analyzed

/-- A file has no error or one. -/
theorem Consistent.errors_on (consistent : package.Consistent layout) (file : Path) :
    (package.errors.filter fun error => error.file.Same file) = [] ∨
      ∃ error ∈ package.errors, error.file.Same file ∧
        (package.errors.filter fun error => error.file.Same file) = [error] := by
  have ascending := consistent.ascending_errors.filter fun error => error.file.Same file
  have onFile : ∀ error ∈ package.errors.filter fun error => error.file.Same file,
      error ∈ package.errors ∧ error.file.Same file := fun error member =>
    ⟨List.mem_of_mem_filter member, of_decide_eq_true (List.mem_filter.mp member).2⟩
  cases errors : package.errors.filter fun error => error.file.Same file with
  | nil => exact .inl rfl
  | cons first later =>
    rw [errors] at ascending onFile
    obtain ⟨inErrors, firstSame⟩ := onFile first List.mem_cons_self
    cases later with
    | nil => exact .inr ⟨first, inErrors, firstSame, rfl⟩
    | cons second others =>
      -- Two errors on one file could not stand in strictly ascending order.
      have inRow : second ∈ second :: others := List.mem_cons_self
      have before := (List.pairwise_cons.mp ascending).1 second inRow
      have secondSame := (onFile second (List.mem_cons_of_mem _ inRow)).2
      exact absurd (firstSame.trans secondSame.symm) before.not_same

/-- The diagnostics of a package have for each of their files the errors on it. -/
theorem Consistent.errors_of_mem_diagnostics (consistent : package.Consistent layout)
    {entry : Path × List Diagnostic} (member : entry ∈ package.diagnostics.entries) :
    entry.2 = package.errors.filter fun error => error.file.Same entry.1 := by
  have lookup : package.diagnostics.find? entry.1 = some entry.2 :=
    (package.diagnostics.find?_eq_some_iff _ _).mpr ⟨entry, member, Path.Same.refl _, rfl⟩
  rw [find?_diagnostics consistent, Option.ite_none_right_eq_some, Option.some.injEq] at lookup
  exact lookup.2.symm

/-- Dealing the errors out to their files and reading them file by file gives them back. -/
theorem Consistent.flatMap_diagnostics (consistent : package.Consistent layout) :
    package.diagnostics.entries.flatMap Prod.snd = package.errors := by
  have lists {entry : Path × List Diagnostic} (member : entry ∈ package.diagnostics.entries) :=
    consistent.errors_of_mem_diagnostics member
  refine Path.eq_of_ascending Diagnostic.file (List.pairwise_flatMap.mpr ⟨?_, ?_⟩)
    consistent.ascending_errors fun error => ?_
  · intro entry member
    rw [lists member]
    exact consistent.ascending_errors.filter _
  · refine package.diagnostics.ascending.imp_of_mem ?_
    intro left right leftMember rightMember before leftError inLeft rightError inRight
    rw [lists leftMember] at inLeft
    rw [lists rightMember] at inRight
    have atLeft : leftError.file.Same left.1 := of_decide_eq_true (List.mem_filter.mp inLeft).2
    have atRight : rightError.file.Same right.1 := of_decide_eq_true (List.mem_filter.mp inRight).2
    exact (Path.Before.of_same_left atLeft before).of_same_right atRight.symm
  · rw [List.mem_flatMap]
    constructor
    · rintro ⟨entry, member, inEntry⟩
      rw [lists member] at inEntry
      exact List.mem_of_mem_filter inEntry
    · intro inErrors
      have present := contains_diagnostics (consistent.contains_of_mem_errors inErrors)
      obtain ⟨entry, member, same⟩ := (PathMap.contains_iff _ _).mp present
      refine ⟨entry, member, ?_⟩
      rw [lists member]
      exact List.mem_filter.mpr ⟨inErrors, decide_eq_true same.symm⟩

/-- The diagnostics of a package show it. -/
theorem Consistent.shownBy_diagnostics (consistent : package.Consistent layout) :
    package.ShownBy package.diagnostics where
  ascending := package.diagnostics.ascending_paths
  files := mem_paths_diagnostics consistent
  cleared := by
    intro file remembered
    obtain ⟨entry, member, rfl⟩ := List.mem_map.mp remembered
    have inRemoved := package.removed.contains_of_mem member
    have absent : package.files.contains entry.1 = false := by
      rw [← Bool.not_eq_true]
      intro tracked
      rw [consistent.disjoint _ tracked] at inRemoved
      exact absurd inRemoved Bool.false_ne_true
    rw [find?_diagnostics consistent, if_pos (.inr inRemoved),
      errors_filter_eq_nil consistent absent]
  single := by
    intro file tracked
    obtain ⟨entry, member, rfl⟩ := List.mem_map.mp tracked
    rw [find?_diagnostics consistent, if_pos (.inl (package.files.contains_of_mem member))]
    rcases consistent.errors_on entry.1 with none | ⟨error, inErrors, same, only⟩
    · exact .inl (congrArg some none)
    · refine .inr ⟨error, congrArg some only, ?_⟩
      obtain ⟨other, otherMember, spelled⟩ :=
        List.mem_map.mp (consistent.file_mem_paths inErrors)
      rw [← spelled] at same ⊢
      rw [package.files.entry_unique otherMember member same]
  whole := consistent.flatMap_diagnostics

end Package

namespace Layout

variable {layout : Layout} {set : PackageSet}

/-- Fetching fails if and only if no package has the id. If one has it, what is fetched shows this
package: its files and those it remembers in ascending order, nothing for those, at most one error
for each of the others, and all of the errors in their order. -/
theorem errorsOf_shows_package (reachable : layout.Reachable set) (id : PackageId) :
    (∀ error, errorsOf set id = .error error ↔
      error = .unknownPackage id ∧ ∀ package ∈ set.packages, package.id ≠ id) ∧
    ∀ package ∈ set.packages, package.id = id →
      ∃ shown, errorsOf set id = .ok shown ∧ package.ShownBy shown := by
  have wellFormed := reachable.wellFormed
  constructor
  · intro error
    rw [errorsOf_eq, ← PackageSet.get?_eq_none_iff]
    cases set.get? id with
    | none => simp [eq_comm]
    | some package => simp
  · rintro package member rfl
    have found := (wellFormed.sorted.get?_eq_some_iff package.id package).mpr ⟨member, rfl⟩
    refine ⟨package.diagnostics, ?_, (wellFormed.consistent package member).shownBy_diagnostics⟩
    rw [errorsOf_eq, found]

/-- A package that lost a file and has another one with an error. -/
theorem errorsOf_shows_package_halfClosed :
    ∃ set, (ofRoot ⟨"/ws"⟩).Reachable set ∧ ∃ package ∈ set.packages,
      package.removed.paths = [⟨"/ws/api/a.gunk"⟩] ∧ package.errors.length = 1 ∧
      ∃ shown, errorsOf set ⟨"api"⟩ = .ok shown ∧ package.ShownBy shown := by
  obtain ⟨first, second, last, added, addedNext, opened, openedNext, closed, package, member,
      isApi, removed, errors⟩ :
      ∃ first second last added addedNext,
        (ofRoot ⟨"/ws"⟩).addFile .empty ⟨"/ws/api/a.gunk"⟩ "package api" = .ok (first, added) ∧
        (ofRoot ⟨"/ws"⟩).addFile first ⟨"/ws/api/b.gunk"⟩ "import x" = .ok (second, addedNext) ∧
        closeFile (fun _ => .absent) second ⟨"/ws/api/a.gunk"⟩ = .ok last ∧
        ∃ package ∈ last.packages, package.id = ⟨"api"⟩ ∧
          package.removed.paths = [⟨"/ws/api/a.gunk"⟩] ∧ package.errors.length = 1 :=
    ⟨_, _, _, _, _, rfl, rfl, rfl, _, List.mem_singleton_self _, rfl, by decide, by decide⟩
  have reachable : (ofRoot ⟨"/ws"⟩).Reachable last :=
    .closed (fun _ => .absent) (.added (.added .empty opened) openedNext) closed
  exact ⟨last, reachable, package, member, removed, errors,
    (errorsOf_shows_package reachable ⟨"api"⟩).2 package member isApi⟩

end Layout

end WorkspaceSync
