/-
This file shows that a set of packages is a finite map from ids, whatever is
done to it.

A set is read by walking it and written by bisection. The two agree only where
the ids ascend strictly, which nothing but the operations themselves ensures. So
the content here is an invariant: packages with distinct ids make a sorted set,
every change keeps it sorted, and in a sorted set bisection finds what the walk
finds. Reading after a change is then reading before it, updated at one id, and
as a sorted set is determined by what is read from it, the laws of settling
packages are laws of such updates.

Ids are compared by the codes of their characters. The bytes of their UTF-8 texts
are in the same order.
-/
import Mathlib.Logic.Function.Basic
import WorkspaceSync.Proofs.PackageSet
import WorkspaceSync.Proofs.Text

namespace WorkspaceSync

/-! ### The order of bytes -/

namespace PackageId

/-- The bytes of the text of an id. -/
def bytes (id : PackageId) : List UInt8 :=
  id.text.toUTF8.data.toList

theorem bytes_lt {left right : PackageId} (less : left < right) : left.bytes < right.bytes := by
  rw [bytes, bytes, Text.data_toUTF8, Text.data_toUTF8]
  exact Text.flatMap_utf8EncodeChar_lt (String.lt_iff.mp less)

end PackageId

/-! ### What is left of what is left -/

theorem Package.remainder?_bind_remainder? (package : Package) :
    package.remainder?.bind Package.remainder? = package.remainder? := by
  unfold remainder?
  cases empty : package.files.isEmpty <;> simp [settled, empty]

namespace PackageSet

/-! ### Reading -/

/-- A sorted set is determined by what is read from it. -/
theorem Sorted.ext_of_get? {left right : PackageSet} (leftSorted : left.Sorted)
    (rightSorted : right.Sorted) (same : left.get? = right.get?) : left = right := by
  refine leftSorted.ext_of_mem rightSorted fun package => ?_
  have inLeft := leftSorted.get?_eq_some_iff package.id package
  have inRight := rightSorted.get?_eq_some_iff package.id package
  rw [same, inRight] at inLeft
  simpa using inLeft.symm

/-- Reading a set gives the given packages by their ids. -/
theorem get?_ofList {packages : List Package}
    (distinct : packages.Pairwise fun left right => left.id ≠ right.id) :
    (ofList packages).get? = fun id => packages.find? fun package => package.id = id := by
  funext id
  refine Option.ext fun package => ?_
  have found : (PackageSet.mk packages).get? id = some package ↔
      package ∈ packages ∧ package.id = id := get?_eq_some_iff distinct id package
  rw [(sorted_ofList distinct).get?_eq_some_iff, mem_ofList, ← found]
  rfl

theorem get?_upsert {set : PackageSet} (sorted : set.Sorted) (package : Package) :
    (set.upsert package).get? = Function.update set.get? package.id (some package) := by
  funext id
  by_cases same : id = package.id
  · rw [same, get?_upsert_self sorted, Function.update_self]
  · rw [get?_upsert_of_ne sorted same, Function.update_of_ne same]

theorem get?_settle {set : PackageSet} (sorted : set.Sorted) (id : PackageId) :
    (set.settle id).get? =
      Function.update set.get? id ((set.get? id).bind Package.remainder?) := by
  funext other
  by_cases same : other = id
  · rw [same, Function.update_self]
    cases found : set.get? id with
    | none => rw [settle, found, found, Option.bind_none]
    | some package => rw [get?_settle_self sorted found, Option.bind_some]
  · rw [get?_settle_of_ne sorted same, Function.update_of_ne same]

/-- Settling a package that is settled changes nothing. -/
theorem settle_settle_self {set : PackageSet} (sorted : set.Sorted) (id : PackageId) :
    (set.settle id).settle id = set.settle id := by
  have once := sorted_settle sorted id
  refine (sorted_settle once id).ext_of_get? once ?_
  rw [get?_settle once, get?_settle sorted, Function.update_self, Function.update_idem,
    Option.bind_assoc]
  simp only [Package.remainder?_bind_remainder?]

theorem settle_comm {set : PackageSet} (sorted : set.Sorted) (first second : PackageId) :
    (set.settle first).settle second = (set.settle second).settle first := by
  by_cases same : first = second
  · rw [same]
  · have firstSorted := sorted_settle sorted first
    have secondSorted := sorted_settle sorted second
    refine (sorted_settle firstSorted second).ext_of_get? (sorted_settle secondSorted first) ?_
    rw [get?_settle firstSorted, get?_settle secondSorted, get?_settle sorted,
      get?_settle sorted, Function.update_of_ne same, Function.update_of_ne (Ne.symm same),
      Function.update_comm same]

/-! ### Bisection -/

/-- The package that bisection ends at, if it has the id that is looked for. -/
def search? (set : PackageSet) (id : PackageId) : Option Package :=
  set.packages[bisect set.packages id 0 set.packages.length]?.filter fun package => package.id = id

theorem search?_eq_some_iff (set : PackageSet) (id : PackageId) (package : Package) :
    set.search? id = some package ↔
      set.packages[bisect set.packages id 0 set.packages.length]? = some package ∧
        package.id = id := by
  rw [search?, Option.filter_eq_some_iff, decide_eq_true_eq]

/-- In a sorted set bisection finds what the walk finds. -/
theorem Sorted.search?_eq {set : PackageSet} (sorted : set.Sorted) (id : PackageId) :
    set.search? id = set.get? id := by
  refine Option.ext fun package => ?_
  rw [search?_eq_some_iff, sorted.get?_eq_some_iff]
  constructor
  · exact fun ⟨atIndex, same⟩ => ⟨List.mem_of_getElem? atIndex, same⟩
  · rintro ⟨member, rfl⟩
    refine ⟨?_, rfl⟩
    obtain ⟨position, bound, atPosition⟩ := List.getElem_of_mem member
    obtain ⟨_, indexBound, above, ended⟩ := bisect_spec sorted package.id 0 set.packages.length
      (by omega) (by omega)
    generalize bisect set.packages package.id 0 set.packages.length = index at *
    have found : set.packages[position]? = some package :=
      List.getElem?_eq_some_iff.mpr ⟨bound, atPosition⟩
    rcases Nat.lt_trichotomy position index with less | rfl | greater
    · -- The id at the index is above that of the package. Bisection ends at such an id only where
      -- it starts, and nothing stands before that.
      rcases ended with first | notAbove
      · omega
      · have ordered := List.pairwise_iff_getElem.mp sorted position index bound (by omega) less
        rw [atPosition] at ordered
        exact absurd ordered (notAbove _ (List.getElem?_eq_getElem (by omega)))
    · exact found
    · exact absurd (above position package greater (by omega) found) (PackageId.lt_irrefl _)

/-- A package takes the place of the one that bisection finds, and is added if it finds none. -/
theorem length_upsert {set : PackageSet} (sorted : set.Sorted) (package : Package) :
    (set.upsert package).packages.length =
      if (set.search? package.id).isSome then set.packages.length
      else set.packages.length + 1 := by
  unfold upsert search?
  simp only
  cases atIndex : set.packages[bisect set.packages package.id 0 set.packages.length]? with
  | none =>
    have beyond := List.getElem?_eq_none_iff.mp atIndex
    have empty : ¬ 0 < set.packages.length := fun nonempty => by
      have within := (bisect_spec sorted package.id 0 set.packages.length nonempty (by omega)).2.1
      omega
    simp only [Option.filter_none, Option.isSome_none, Bool.false_eq_true, if_false,
      List.length_singleton]
    omega
  | some found =>
    have within := (List.getElem?_eq_some_iff.mp atIndex).1
    by_cases same : found.id = package.id
    · simp [same]
    · simp only [Option.filter_some, same, decide_false, Bool.false_eq_true, if_false,
        Option.isSome_none]
      split
      · exact List.length_insertIdx_of_le_length (Nat.succ_le_of_lt within) package
      · exact List.length_insertIdx_of_le_length (Nat.le_of_lt within) package

/-! ### Changes -/

/-- A change of a set. -/
inductive Change where
  | upsert (package : Package)
  | settle (id : PackageId)

/-- The set after a change. -/
def changed (set : PackageSet) : Change → PackageSet
  | .upsert package => set.upsert package
  | .settle id => set.settle id

/-- What is read after a change, in place of what was read before it. -/
def Change.updated (lookup : PackageId → Option Package) :
    Change → PackageId → Option Package
  | .upsert package => Function.update lookup package.id (some package)
  | .settle id => Function.update lookup id ((lookup id).bind Package.remainder?)

theorem sorted_changed {set : PackageSet} (sorted : set.Sorted) (change : Change) :
    (set.changed change).Sorted := by
  cases change with
  | upsert package => exact sorted_upsert sorted package
  | settle id => exact sorted_settle sorted id

theorem get?_changed {set : PackageSet} (sorted : set.Sorted) (change : Change) :
    (set.changed change).get? = change.updated set.get? := by
  cases change with
  | upsert package => exact get?_upsert sorted package
  | settle id => exact get?_settle sorted id

/-- A row of changes keeps a set sorted and updates what is read from it one by one. -/
theorem foldl_changed {set : PackageSet} (sorted : set.Sorted) (changes : List Change) :
    (changes.foldl changed set).Sorted ∧
      (changes.foldl changed set).get? = changes.foldl Change.updated set.get? := by
  induction changes generalizing set with
  | nil => exact ⟨sorted, rfl⟩
  | cons change later inductionHypothesis =>
    obtain ⟨laterSorted, read⟩ := inductionHypothesis (sorted_changed sorted change)
    refine ⟨laterSorted, read.trans ?_⟩
    rw [get?_changed sorted, List.foldl_cons]

/-- A set is a finite map from ids, in the order of their bytes. -/
structure IsMap (set : PackageSet) : Prop where
  ascending : set.ids.Pairwise fun left right => left.bytes < right.bytes
  /-- Bisection finds what the walk finds. -/
  search : ∀ id, set.search? id = set.get? id
  /-- Putting a package in is read at its id and nowhere else. -/
  upserted : ∀ package,
    (set.upsert package).get? = Function.update set.get? package.id (some package)
  /-- A package whose id is there takes the place of the one that has it. -/
  length : ∀ package, (set.upsert package).packages.length =
    if (set.get? package.id).isSome then set.packages.length else set.packages.length + 1
  /-- Settling is read at the id and nowhere else: a package without files is gone, another one is
  clean and has forgotten the files that left it. -/
  settled : ∀ id, (set.settle id).get? = Function.update set.get? id ((set.get? id).bind
    fun package => if package.files.isEmpty then none
      else some { package with state := .clean, removed := .empty })
  idempotent : ∀ id, (set.settle id).settle id = set.settle id
  commutes : ∀ first second,
    (set.settle first).settle second = (set.settle second).settle first

theorem Sorted.isMap {set : PackageSet} (sorted : set.Sorted) : set.IsMap where
  ascending := List.pairwise_map.mpr (sorted.imp PackageId.bytes_lt)
  search := sorted.search?_eq
  upserted := get?_upsert sorted
  length := fun package => by rw [length_upsert sorted, sorted.search?_eq]
  settled := get?_settle sorted
  idempotent := settle_settle_self sorted
  commutes := settle_comm sorted

/-- Whatever is put into a set of packages with distinct ids and settled in it, the set stays a
finite map in the order of the ids, and reading it gives what the changes make of the packages it
was made from. -/
theorem changes_keep_map {packages : List Package}
    (distinct : packages.Pairwise fun left right => left.id ≠ right.id) (changes : List Change) :
    (changes.foldl changed (ofList packages)).IsMap ∧
      (changes.foldl changed (ofList packages)).get? =
        changes.foldl Change.updated fun id => packages.find? fun package => package.id = id := by
  obtain ⟨sorted, read⟩ := foldl_changed (sorted_ofList distinct) changes
  exact ⟨sorted.isMap, read.trans (by rw [get?_ofList distinct])⟩

/-- A package with one file, of which it waits to show the diagnostics. -/
def waiting (id : String) : Package :=
  { Package.new ⟨id⟩ ⟨"/ws"⟩ with
    files := PathMap.empty.insert ⟨"/ws/a.gunk"⟩ (.ofDisk "package a")
    state := .dirty }

/-- One package is dropped, one replaced and one settled, and bisection finds the two that are left,
though the first UTF-16 units of their ids would put them in the other order. -/
theorem changes_keep_map_beyondPlane :
    let packages := [waiting "😀", waiting "\uFFFD", Package.new ⟨"b"⟩ ⟨"/ws/b"⟩]
    let changes : List Change :=
      [.settle ⟨"b"⟩, .upsert { waiting "\uFFFD" with name := some "a" }, .settle ⟨"😀"⟩]
    let set := changes.foldl changed (ofList packages)
    set.IsMap ∧ set.search? ⟨"b"⟩ = none ∧ set.search? ⟨"😀"⟩ = some (waiting "😀").settled ∧
      set.search? ⟨"\uFFFD"⟩ = some { waiting "\uFFFD" with name := some "a" } := by
  intro packages changes set
  have distinct : packages.Pairwise fun left right => left.id ≠ right.id := by decide
  obtain ⟨isMap, read⟩ := changes_keep_map distinct changes
  refine ⟨isMap, ?_, ?_, ?_⟩
  · rw [isMap.search, read]
    rfl
  · rw [isMap.search, read]
    rfl
  · rw [isMap.search, read]
    rfl

end PackageSet

end WorkspaceSync
