/-
This file says what the packages of a set are after each of its operations.

The statements are about sorted sets, those whose ids ascend strictly. Every
operation keeps a set sorted, and in a sorted set the first package with an id
is the only one, so that the walk of `get?` and the bisection of `upsert` find
the same package. A sorted set is determined by its members, and each operation
is described by saying which they are.
-/
import Mathlib.Data.List.Basic
import WorkspaceSync.PackageSet

namespace WorkspaceSync

/-! ### The order of ids -/

namespace PackageId

theorem lt_irrefl (id : PackageId) : ¬ id < id :=
  String.lt_irrefl id.text

theorem lt_trans {first second third : PackageId} (left : first < second)
    (right : second < third) : first < third :=
  String.lt_trans left right

theorem ne_of_lt {left right : PackageId} (less : left < right) : left ≠ right := by
  rintro rfl
  exact lt_irrefl left less

theorem lt_of_not_lt_of_ne {left right : PackageId} (notLess : ¬ left < right)
    (different : left ≠ right) : right < left := by
  by_cases less : right < left
  · exact less
  · have texts : left.text = right.text :=
      String.le_antisymm (String.not_lt.mp less) (String.not_lt.mp notLess)
    cases left
    cases right
    exact absurd (congrArg PackageId.mk texts) different

end PackageId

/-! ### What is left of a published package -/

namespace Package

/-- What is left of a package once its diagnostics are published. -/
def remainder? (package : Package) : Option Package :=
  if package.files.isEmpty then none else some package.settled

theorem remainder?_eq_some_iff (package left : Package) :
    package.remainder? = some left ↔ package.files.isEmpty = false ∧ package.settled = left := by
  unfold remainder?
  cases package.files.isEmpty <;> simp

theorem remainder?_id {package left : Package} (remains : package.remainder? = some left) :
    left.id = package.id := by
  obtain ⟨_, rfl⟩ := (remainder?_eq_some_iff package left).mp remains
  rfl

end Package

namespace PackageSet

/-- The ids ascend strictly. -/
def Sorted (set : PackageSet) : Prop :=
  set.packages.Pairwise fun left right => left.id < right.id

/-! ### Members of a sorted set -/

theorem Sorted.distinct {set : PackageSet} (sorted : set.Sorted) :
    set.packages.Pairwise fun left right => left.id ≠ right.id :=
  sorted.imp PackageId.ne_of_lt

/-- Two packages with one id are one package, where ids are distinct. -/
theorem eq_of_id_eq {packages : List Package}
    (distinct : packages.Pairwise fun left right => left.id ≠ right.id) {left right : Package}
    (leftMember : left ∈ packages) (rightMember : right ∈ packages)
    (same : left.id = right.id) : left = right := by
  obtain ⟨first, firstBound, rfl⟩ := List.getElem_of_mem leftMember
  obtain ⟨second, secondBound, rfl⟩ := List.getElem_of_mem rightMember
  have ordered := List.pairwise_iff_getElem.mp distinct
  rcases Nat.lt_trichotomy first second with less | rfl | greater
  · exact absurd same (ordered first second firstBound secondBound less)
  · rfl
  · exact absurd same.symm (ordered second first secondBound firstBound greater)

theorem Sorted.eq_of_id_eq {set : PackageSet} (sorted : set.Sorted) {left right : Package}
    (leftMember : left ∈ set.packages) (rightMember : right ∈ set.packages)
    (same : left.id = right.id) : left = right :=
  PackageSet.eq_of_id_eq sorted.distinct leftMember rightMember same

/-- A sorted set is determined by its members. -/
theorem Sorted.ext_of_mem {left right : PackageSet} (leftSorted : left.Sorted)
    (rightSorted : right.Sorted)
    (members : ∀ package, package ∈ left.packages ↔ package ∈ right.packages) : left = right := by
  have distinct {set : PackageSet} (sorted : set.Sorted) : set.packages.Nodup := by
    refine sorted.distinct.imp fun different equal => different ?_
    rw [equal]
  have equal : left.packages = right.packages := by
    refine List.Perm.eq_of_pairwise ?_ leftSorted rightSorted
      ((List.perm_ext_iff_of_nodup (distinct leftSorted) (distinct rightSorted)).mpr members)
    intro first second _ _ less greater
    exact absurd (PackageId.lt_trans less greater) (PackageId.lt_irrefl first.id)
  cases left
  cases right
  exact congrArg PackageSet.mk equal

theorem get?_id {set : PackageSet} {id : PackageId} {package : Package}
    (found : set.get? id = some package) : package.id = id := by
  have equal := List.find?_some found
  exact of_decide_eq_true equal

theorem mem_of_get? {set : PackageSet} {id : PackageId} {package : Package}
    (found : set.get? id = some package) : package ∈ set.packages :=
  List.mem_of_find?_eq_some found

theorem get?_eq_none_iff (set : PackageSet) (id : PackageId) :
    set.get? id = none ↔ ∀ package ∈ set.packages, package.id ≠ id := by
  simp [get?]

/-- Where ids are distinct, the package that is read is the one with the id. -/
theorem get?_eq_some_iff {set : PackageSet}
    (distinct : set.packages.Pairwise fun left right => left.id ≠ right.id) (id : PackageId)
    (package : Package) :
    set.get? id = some package ↔ package ∈ set.packages ∧ package.id = id := by
  constructor
  · exact fun found => ⟨mem_of_get? found, get?_id found⟩
  · rintro ⟨member, rfl⟩
    cases found : set.get? package.id with
    | none => exact absurd rfl ((get?_eq_none_iff set package.id).mp found package member)
    | some other => rw [eq_of_id_eq distinct (mem_of_get? found) member (get?_id found)]

theorem Sorted.get?_eq_some_iff {set : PackageSet} (sorted : set.Sorted) (id : PackageId)
    (package : Package) :
    set.get? id = some package ↔ package ∈ set.packages ∧ package.id = id :=
  PackageSet.get?_eq_some_iff sorted.distinct id package

theorem mem_of_ownerOf? {set : PackageSet} {path : Path} {owner : Package}
    (found : set.ownerOf? path = some owner) :
    owner ∈ set.packages ∧ owner.files.contains path = true := by
  have present := List.find?_some found
  exact ⟨List.mem_of_find?_eq_some found, present⟩

theorem ownerOf?_eq_none_iff (set : PackageSet) (path : Path) :
    set.ownerOf? path = none ↔ ∀ package ∈ set.packages, package.files.contains path = false := by
  simp [ownerOf?]

/-! ### The set of given packages -/

theorem mem_ofList (packages : List Package) (package : Package) :
    package ∈ (ofList packages).packages ↔ package ∈ packages :=
  List.mem_mergeSort

/-- Packages with distinct ids make a sorted set. -/
theorem sorted_ofList {packages : List Package}
    (distinct : packages.Pairwise fun left right => left.id ≠ right.id) :
    (ofList packages).Sorted := by
  have transitive (first second third : Package) (left : decide (first.id ≤ second.id) = true)
      (right : decide (second.id ≤ third.id) = true) : decide (first.id ≤ third.id) = true := by
    have lower : first.id.text ≤ second.id.text := String.not_lt.mp (of_decide_eq_true left)
    have upper : second.id.text ≤ third.id.text := String.not_lt.mp (of_decide_eq_true right)
    exact decide_eq_true (String.not_lt.mpr (String.le_trans lower upper))
  have total (left right : Package) :
      (decide (left.id ≤ right.id) || decide (right.id ≤ left.id)) = true := by
    rw [Bool.or_eq_true, decide_eq_true_eq, decide_eq_true_eq]
    exact (String.le_total left.id.text right.id.text).imp String.not_lt.mpr String.not_lt.mpr
  have ascending := List.pairwise_mergeSort transitive total packages
  have different := ((List.mergeSort_perm packages
    (fun left right : Package => decide (left.id ≤ right.id))).pairwise_iff Ne.symm).mpr distinct
  refine (ascending.and different).imp fun {left right} facts => ?_
  exact PackageId.lt_of_not_lt_of_ne (of_decide_eq_true facts.1) facts.2.symm

/-! ### Changing a package -/

/-- Changing the first package with an id changes every package with it, where there is at most
one. -/
theorem packages_modify {set : PackageSet} (sorted : set.Sorted) (id : PackageId)
    (change : Package → Package) :
    (set.modify id change).packages =
      set.packages.map fun package => if package.id = id then change package else package := by
  obtain ⟨packages⟩ := set
  have distinct := sorted.distinct
  simp only [modify] at distinct ⊢
  induction packages with
  | nil => rfl
  | cons package later inductionHypothesis =>
    obtain ⟨different, laterDistinct⟩ := List.pairwise_cons.mp distinct
    obtain ⟨_, laterSorted⟩ := List.pairwise_cons.mp sorted
    by_cases same : package.id = id
    · have unchanged : later.map (fun other => if other.id = id then change other else other) =
          later := by
        refine (List.map_congr_left fun other member => if_neg fun equal => ?_).trans
          (List.map_id' later)
        exact different other member (same.trans equal.symm)
      simp only [List.findIdx_cons, same, decide_true, cond_true, List.modify_zero_cons,
        List.map_cons, if_true, unchanged]
    · simp only [List.findIdx_cons, same, decide_false, cond_false, List.modify_succ_cons,
        List.map_cons, if_false, inductionHypothesis laterSorted laterDistinct]

theorem mem_modify {set : PackageSet} (sorted : set.Sorted) (id : PackageId)
    (change : Package → Package) (package : Package) :
    package ∈ (set.modify id change).packages ↔
      package ∈ set.packages ∧ package.id ≠ id ∨
        ∃ old ∈ set.packages, old.id = id ∧ change old = package := by
  rw [packages_modify sorted, List.mem_map]
  constructor
  · rintro ⟨old, member, rfl⟩
    split
    · next same => exact .inr ⟨old, member, same, rfl⟩
    · next different => exact .inl ⟨member, different⟩
  · rintro (⟨member, different⟩ | ⟨old, member, same, rfl⟩)
    · exact ⟨package, member, if_neg different⟩
    · exact ⟨old, member, if_pos same⟩

theorem sorted_modify {set : PackageSet} (sorted : set.Sorted) (id : PackageId)
    (change : Package → Package) (sameId : ∀ package, (change package).id = package.id) :
    (set.modify id change).Sorted := by
  unfold Sorted
  rw [packages_modify sorted, List.pairwise_map]
  refine sorted.imp fun {left right} less => ?_
  have unchanged (package : Package) :
      (if package.id = id then change package else package).id = package.id := by
    split
    · exact sameId package
    · rfl
  rw [unchanged, unchanged]
  exact less

/-! ### Settling a package -/

/-- Settling an id turns the package with it into what is left of it. The ids need not ascend. -/
theorem packages_settle_of_distinct {set : PackageSet}
    (distinct : set.packages.Pairwise fun left right => left.id ≠ right.id) (id : PackageId) :
    (set.settle id).packages =
      set.packages.filterMap fun package =>
        if package.id = id then package.remainder? else some package := by
  obtain ⟨packages⟩ := set
  induction packages with
  | nil => rfl
  | cons package later inductionHypothesis =>
    obtain ⟨different, laterDistinct⟩ := List.pairwise_cons.mp distinct
    have settled := inductionHypothesis laterDistinct
    by_cases same : package.id = id
    · have unchanged : later.filterMap (fun other =>
          if other.id = id then other.remainder? else some other) = later := by
        refine (List.filterMap_congr fun other member => if_neg fun equal => ?_).trans
          List.filterMap_some
        exact different other member (same.trans equal.symm)
      rw [List.filterMap_cons, if_pos same, unchanged]
      by_cases empty : package.files.isEmpty <;>
        simp [settle, get?, modify, Package.remainder?, List.findIdx_cons, same, empty]
    · rw [List.filterMap_cons, if_neg same, ← settled]
      have sameFound :
          (PackageSet.mk (package :: later)).get? id = (PackageSet.mk later).get? id := by
        simp [get?, same]
      rw [settle, settle, sameFound]
      cases (PackageSet.mk later).get? id with
      | none => rfl
      | some old =>
        by_cases empty : old.files.isEmpty <;>
          simp [modify, List.findIdx_cons, same, empty]

theorem packages_settle {set : PackageSet} (sorted : set.Sorted) (id : PackageId) :
    (set.settle id).packages =
      set.packages.filterMap fun package =>
        if package.id = id then package.remainder? else some package :=
  packages_settle_of_distinct sorted.distinct id

theorem mem_settle {set : PackageSet} (sorted : set.Sorted) (id : PackageId)
    (package : Package) :
    package ∈ (set.settle id).packages ↔
      package ∈ set.packages ∧ package.id ≠ id ∨
        ∃ old ∈ set.packages, old.id = id ∧ old.remainder? = some package := by
  rw [packages_settle sorted, List.mem_filterMap]
  constructor
  · rintro ⟨old, member, equal⟩
    split at equal
    · next same => exact .inr ⟨old, member, same, equal⟩
    · next different =>
      obtain rfl := Option.some_inj.mp equal
      exact .inl ⟨member, different⟩
  · rintro (⟨member, different⟩ | ⟨old, member, same, equal⟩)
    · exact ⟨package, member, if_neg different⟩
    · exact ⟨old, member, (if_pos same).trans equal⟩

theorem sorted_settle {set : PackageSet} (sorted : set.Sorted) (id : PackageId) :
    (set.settle id).Sorted := by
  unfold Sorted
  rw [packages_settle sorted, List.pairwise_filterMap]
  have sameId {package left : Package}
      (equal : (if package.id = id then package.remainder? else some package) = some left) :
      left.id = package.id := by
    split at equal
    · exact Package.remainder?_id equal
    · rw [Option.some_inj.mp equal]
  refine sorted.imp fun {first second} less left leftEqual right rightEqual => ?_
  rw [sameId leftEqual, sameId rightEqual]
  exact less

theorem get?_settle_self {set : PackageSet} (sorted : set.Sorted) {id : PackageId}
    {package : Package} (found : set.get? id = some package) :
    (set.settle id).get? id = package.remainder? := by
  refine Option.ext fun left => ?_
  obtain ⟨member, rfl⟩ := (sorted.get?_eq_some_iff id package).mp found
  rw [(sorted_settle sorted package.id).get?_eq_some_iff, mem_settle sorted]
  constructor
  · rintro ⟨⟨_, different⟩ | ⟨old, oldMember, same, remains⟩, leftId⟩
    · exact absurd leftId different
    · rwa [← sorted.eq_of_id_eq oldMember member same]
  · intro remains
    exact ⟨.inr ⟨package, member, rfl, remains⟩, Package.remainder?_id remains⟩

theorem get?_settle_of_ne {set : PackageSet} (sorted : set.Sorted) {id other : PackageId}
    (different : other ≠ id) : (set.settle id).get? other = set.get? other := by
  refine Option.ext fun package => ?_
  rw [(sorted_settle sorted id).get?_eq_some_iff, sorted.get?_eq_some_iff, mem_settle sorted]
  constructor
  · rintro ⟨⟨member, _⟩ | ⟨old, _, same, remains⟩, rfl⟩
    · exact ⟨member, rfl⟩
    · exact absurd ((Package.remainder?_id remains).trans same) different
  · rintro ⟨member, rfl⟩
    exact ⟨.inl ⟨member, different⟩, rfl⟩

/-! ### Putting a package in -/

/-- Bisection of a sorted set ends at the last package whose id is not above the given one, or at
the first package if all ids are above it. -/
theorem bisect_spec {packages : List Package} (sorted : (PackageSet.mk packages).Sorted)
    (id : PackageId) (base size : Nat) (nonempty : 0 < size)
    (bound : base + size ≤ packages.length) :
    let index := bisect packages id base size
    base ≤ index ∧ index < base + size ∧
      (∀ later package, index < later → later < base + size →
        packages[later]? = some package → id < package.id) ∧
      (index = base ∨ ∀ package, packages[index]? = some package → ¬ id < package.id) := by
  fun_induction bisect packages id base size with
  | case1 base size small =>
    refine ⟨Nat.le_refl _, by omega, fun later package after before => ?_, .inl rfl⟩
    omega
  | case2 base size large half middle above inductionHypothesis =>
    obtain ⟨least, less, rest, position⟩ := inductionHypothesis (by omega) (by omega)
    refine ⟨least, by omega, fun later package after before found => ?_, position⟩
    by_cases within : later < base + (size - half)
    · exact rest later package after within found
    · -- Beyond the half that is searched, ids are at least the one in the middle.
      obtain ⟨pivot, atMiddle, pivotAbove⟩ := (Option.any_eq_true _ _).mp above
      obtain ⟨middleBound, rfl⟩ := List.getElem?_eq_some_iff.mp atMiddle
      obtain ⟨laterBound, rfl⟩ := List.getElem?_eq_some_iff.mp found
      rcases Nat.lt_or_ge middle later with beyond | atMost
      · exact PackageId.lt_trans (of_decide_eq_true pivotAbove)
          (List.pairwise_iff_getElem.mp sorted middle later middleBound laterBound beyond)
      · obtain rfl : later = middle := by omega
        exact of_decide_eq_true pivotAbove
  | case3 base size large half middle notAbove inductionHypothesis =>
    obtain ⟨least, less, rest, position⟩ := inductionHypothesis (by omega) (by omega)
    refine ⟨by omega, by omega, fun later package after before found =>
      rest later package after (by omega) found, .inr ?_⟩
    rcases position with atMiddle | below
    · rw [atMiddle]
      intro package found less
      simp [found, less] at notAbove
    · exact below

/-- A package that stands between the lower and the higher ids of a sorted set. -/
theorem sorted_placed {before after : List Package} {package : Package}
    (sorted : (PackageSet.mk (before ++ after)).Sorted)
    (below : ∀ other ∈ before, other.id < package.id)
    (above : ∀ other ∈ after, package.id < other.id) :
    (PackageSet.mk (before ++ package :: after)).Sorted ∧
      ∀ other, other ∈ before ++ package :: after ↔
        other = package ∨ other ∈ before ++ after ∧ other.id ≠ package.id := by
  obtain ⟨beforeSorted, afterSorted, across⟩ := List.pairwise_append.mp sorted
  constructor
  · refine List.pairwise_append.mpr
      ⟨beforeSorted, List.pairwise_cons.mpr ⟨above, afterSorted⟩,
        fun left inBefore right member => ?_⟩
    rcases List.mem_cons.mp member with rfl | inAfter
    · exact below left inBefore
    · exact across left inBefore right inAfter
  · intro other
    have belowDifferent := fun inBefore => PackageId.ne_of_lt (below other inBefore)
    have aboveDifferent := fun inAfter => (PackageId.ne_of_lt (above other inAfter)).symm
    grind

theorem insertIdx_length (before after : List Package) (package : Package) :
    (before ++ after).insertIdx before.length package = before ++ package :: after := by
  induction before with
  | nil => rfl
  | cons head later inductionHypothesis => simpa using inductionHypothesis

/-- Putting a package in replaces the package with its id, or else adds it at its place. -/
theorem upsert_spec {set : PackageSet} (sorted : set.Sorted) (package : Package) :
    (set.upsert package).Sorted ∧
      ∀ other, other ∈ (set.upsert package).packages ↔
        other = package ∨ other ∈ set.packages ∧ other.id ≠ package.id := by
  obtain ⟨packages⟩ := set
  unfold upsert
  simp only
  by_cases nonempty : 0 < packages.length
  · obtain ⟨_, indexBound, above, position⟩ :=
      bisect_spec sorted package.id 0 packages.length nonempty (by omega)
    generalize bisect packages package.id 0 packages.length = index at *
    rw [Nat.zero_add] at indexBound above
    -- The set is cut at the index that the bisection found.
    obtain ⟨before, after, found, rfl, rfl⟩ : ∃ before after found,
        packages = before ++ found :: after ∧ before.length = index :=
      ⟨packages.take index, packages.drop (index + 1), packages[index], by simp, by simp; omega⟩
    have afterAbove : ∀ other ∈ after, package.id < other.id := by
      intro other member
      obtain ⟨offset, offsetBound, rfl⟩ := List.getElem_of_mem member
      exact above (before.length + 1 + offset) _ (by omega) (by simp; omega) (by grind)
    obtain ⟨beforeSorted, foundSorted, across⟩ := List.pairwise_append.mp sorted
    obtain ⟨foundBelow, afterSorted⟩ := List.pairwise_cons.mp foundSorted
    have beforeBelow : ∀ other ∈ before, other.id < found.id := fun other member =>
      across other member found List.mem_cons_self
    simp only [List.getElem?_append_right (Nat.le_refl _), Nat.sub_self, List.getElem?_cons_zero]
    split
    · next same =>
      have restSorted : (PackageSet.mk (before ++ after)).Sorted :=
        List.Pairwise.sublist (List.Sublist.append_left (List.sublist_cons_self found after) before)
          sorted
      obtain ⟨placedSorted, members⟩ := sorted_placed restSorted
        (fun other member => same ▸ beforeBelow other member) afterAbove
      have equal : (before ++ found :: after).set before.length package =
          before ++ package :: after := by simp
      rw [equal]
      refine ⟨placedSorted, fun other => (members other).trans ?_⟩
      simp only [List.mem_append, List.mem_cons]
      grind
    · next different =>
      split
      · next less =>
        have below : ∀ other ∈ before ++ [found], other.id < package.id := by
          intro other member
          rcases List.mem_append.mp member with inBefore | isFound
          · exact PackageId.lt_trans (beforeBelow other inBefore) less
          · rwa [List.mem_singleton.mp isFound]
        have regrouped : before ++ found :: after = before ++ [found] ++ after := by simp
        have last : before.length + 1 = (before ++ [found]).length := by simp
        rw [regrouped] at sorted ⊢
        rw [last, insertIdx_length]
        exact sorted_placed sorted below afterAbove
      · next notLess =>
        have foundAbove : package.id < found.id := PackageId.lt_of_not_lt_of_ne notLess different
        -- Only the first index is reached with an id above the given one.
        rcases position with first | notAbove
        · obtain rfl : before = [] := List.length_eq_zero_iff.mp first
          refine sorted_placed sorted (fun other member => absurd member List.not_mem_nil) ?_
          intro other member
          rcases List.mem_cons.mp member with rfl | inAfter
          · exact foundAbove
          · exact afterAbove other inAfter
        · exact absurd foundAbove (notAbove found (by simp))
  · obtain rfl : packages = [] := List.length_eq_zero_iff.mp (by omega)
    exact ⟨List.pairwise_singleton _ _, by simp [bisect]⟩

theorem sorted_upsert {set : PackageSet} (sorted : set.Sorted) (package : Package) :
    (set.upsert package).Sorted :=
  (upsert_spec sorted package).1

theorem mem_upsert {set : PackageSet} (sorted : set.Sorted) (package other : Package) :
    other ∈ (set.upsert package).packages ↔
      other = package ∨ other ∈ set.packages ∧ other.id ≠ package.id :=
  (upsert_spec sorted package).2 other

theorem get?_upsert_self {set : PackageSet} (sorted : set.Sorted) (package : Package) :
    (set.upsert package).get? package.id = some package :=
  ((sorted_upsert sorted package).get?_eq_some_iff package.id package).mpr
    ⟨(mem_upsert sorted package package).mpr (.inl rfl), rfl⟩

theorem get?_upsert_of_ne {set : PackageSet} (sorted : set.Sorted) {package : Package}
    {id : PackageId} (different : id ≠ package.id) :
    (set.upsert package).get? id = set.get? id := by
  refine Option.ext fun other => ?_
  rw [(sorted_upsert sorted package).get?_eq_some_iff, sorted.get?_eq_some_iff, mem_upsert sorted]
  grind

/-- Changing the package with an id is putting the changed package in. -/
theorem modify_eq_upsert {set : PackageSet} (sorted : set.Sorted) {id : PackageId}
    {old : Package} {change : Package → Package} (found : set.get? id = some old)
    (sameId : ∀ package, (change package).id = package.id) :
    set.modify id change = set.upsert (change old) := by
  refine (sorted_modify sorted id change sameId).ext_of_mem (sorted_upsert sorted _)
    fun package => ?_
  obtain ⟨member, rfl⟩ := (sorted.get?_eq_some_iff id old).mp found
  rw [mem_modify sorted, mem_upsert sorted, sameId]
  constructor
  · rintro (kept | ⟨other, otherMember, same, rfl⟩)
    · exact .inr kept
    · rw [sorted.eq_of_id_eq otherMember member same]
      exact .inl rfl
  · rintro (rfl | kept)
    · exact .inr ⟨old, member, rfl, rfl⟩
    · exact .inl kept

end PackageSet

end WorkspaceSync
