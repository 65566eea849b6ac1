/-
This file says what the entries of a path map are after each of its operations.

The order of the entries is fixed by their paths, so a map is determined by the
set of its entries. One equation for each operation, `mem_alter`, `mem_insert`
and `mem_erase`, therefore describes it completely; what looking up a path gives
follows from them.

A map answers for all spellings of a path but remembers only the first of them.
`spelling` names it, so that the equations hold for the entries as they are and
not merely up to the spelling of their paths.
-/
import WorkspaceSync.PathMap

namespace WorkspaceSync

namespace Path

theorem Same.refl (path : Path) : path.Same path := rfl

theorem Same.symm {left right : Path} (same : left.Same right) : right.Same left :=
  Eq.symm same

theorem Same.trans {first second third : Path} (left : first.Same second)
    (right : second.Same third) : first.Same third :=
  Eq.trans left right

/-- A path that is strictly before another one is no spelling of it. -/
theorem Before.not_same {left right : Path} (before : left.Before right) : ¬ left.Same right :=
  fun same => not_before_self right (Before.of_same_left same.symm before)

/-- Rows in strictly ascending order of paths are equal if they have the same members. -/
theorem eq_of_ascending {Item : Type} (path : Item → Path) {left right : List Item}
    (leftAscending : left.Pairwise fun first second => (path first).Before (path second))
    (rightAscending : right.Pairwise fun first second => (path first).Before (path second))
    (members : ∀ item, item ∈ left ↔ item ∈ right) : left = right := by
  have distinct {row : List Item}
      (ascending : row.Pairwise fun first second => (path first).Before (path second)) :
      row.Nodup := by
    refine ascending.imp fun before equal => before.not_same ?_
    rw [equal]
    exact Same.refl _
  refine List.Perm.eq_of_pairwise ?_ leftAscending rightAscending
    ((List.perm_ext_iff_of_nodup (distinct leftAscending) (distinct rightAscending)).mpr members)
  intro first second _ _ before after
  exact absurd (before.trans after) (not_before_self (path first))

/-- Of distinct paths each is the first spelling of itself. -/
theorem find?_same_eq_some_iff {paths : List Path}
    (distinct : paths.Pairwise fun left right => ¬ left.Same right) (path : Path) :
    paths.find? (fun other => other.Same path) = some path ↔ path ∈ paths := by
  refine ⟨List.mem_of_find?_eq_some, fun member => ?_⟩
  induction paths with
  | nil => exact absurd member List.not_mem_nil
  | cons first later inductionHypothesis =>
    obtain ⟨different, laterDistinct⟩ := List.pairwise_cons.mp distinct
    rcases List.mem_cons.mp member with rfl | inLater
    · simp [Same.refl]
    · simp [different path inLater, inductionHypothesis laterDistinct inLater]

end Path

namespace PathMap

variable {Value : Type}

/-! ### Entries -/

/-- Two entries of a map for one path are one entry. -/
theorem entry_unique (map : PathMap Value) {first second : Path × Value}
    (firstMember : first ∈ map.entries) (secondMember : second ∈ map.entries)
    (same : first.1.Same second.1) : first = second := by
  obtain ⟨left, leftBound, rfl⟩ := List.getElem_of_mem firstMember
  obtain ⟨right, rightBound, rfl⟩ := List.getElem_of_mem secondMember
  have ordered := List.pairwise_iff_getElem.mp map.ascending
  rcases Nat.lt_trichotomy left right with less | rfl | greater
  · exact absurd same (ordered left right leftBound rightBound less).not_same
  · rfl
  · exact absurd same.symm (ordered right left rightBound leftBound greater).not_same

/-- A map is determined by the set of its entries. -/
theorem ext_of_mem {left right : PathMap Value}
    (members : ∀ entry, entry ∈ left.entries ↔ entry ∈ right.entries) : left = right :=
  PathMap.ext (Path.eq_of_ascending Prod.fst left.ascending right.ascending members)

theorem ascending_paths (map : PathMap Value) : map.paths.Pairwise Path.Before :=
  List.pairwise_map.mpr map.ascending

/-! ### Looking up -/

/-- The entry of a map for a path. -/
def entry? (map : PathMap Value) (path : Path) : Option (Path × Value) :=
  map.entries.find? fun entry => entry.1.Same path

theorem entry?_eq_some_iff (map : PathMap Value) (path : Path) (entry : Path × Value) :
    map.entry? path = some entry ↔ entry ∈ map.entries ∧ entry.1.Same path := by
  constructor
  · intro lookup
    have same := List.find?_some lookup
    exact ⟨List.mem_of_find?_eq_some lookup, of_decide_eq_true same⟩
  · rintro ⟨member, same⟩
    cases lookup : map.entry? path with
    | none =>
      have different := List.find?_eq_none.mp lookup entry member
      exact absurd same (by simpa using different)
    | some other =>
      have otherSame := List.find?_some lookup
      rw [map.entry_unique (List.mem_of_find?_eq_some lookup) member
        ((of_decide_eq_true otherSame : other.1.Same path).trans same.symm)]

/-- The entry for a path is the only one for it. -/
theorem filter_entries_same (map : PathMap Value) (path : Path) :
    map.entries.filter (fun entry => entry.1.Same path) = (map.entry? path).toList := by
  obtain ⟨entries, ascending⟩ := map
  unfold entry?
  induction entries with
  | nil => rfl
  | cons head later inductionHypothesis =>
    obtain ⟨beforeLater, laterAscending⟩ := List.pairwise_cons.mp ascending
    by_cases same : head.1.Same path
    · have noneLater : later.filter (fun entry => entry.1.Same path) = [] := by
        refine List.filter_eq_nil_iff.mpr fun entry member atPath => ?_
        exact (beforeLater entry member).not_same (same.trans (of_decide_eq_true atPath).symm)
      simp [same, noneLater]
    · simpa [same] using inductionHypothesis laterAscending

theorem entry?_congr (map : PathMap Value) {left right : Path} (same : left.Same right) :
    map.entry? left = map.entry? right := by
  refine Option.ext fun entry => ?_
  rw [entry?_eq_some_iff, entry?_eq_some_iff]
  exact and_congr_right fun _ =>
    ⟨fun atLeft => atLeft.trans same, fun atRight => atRight.trans same.symm⟩

theorem find?_eq (map : PathMap Value) (path : Path) :
    map.find? path = (map.entry? path).map Prod.snd := rfl

theorem find?_eq_some_iff (map : PathMap Value) (path : Path) (value : Value) :
    map.find? path = some value ↔ ∃ entry ∈ map.entries, entry.1.Same path ∧ entry.2 = value := by
  rw [find?_eq, Option.map_eq_some_iff]
  simp only [entry?_eq_some_iff, and_assoc]

theorem mem_entries_iff (map : PathMap Value) (entry : Path × Value) :
    entry ∈ map.entries ↔ entry.1 ∈ map.paths ∧ map.find? entry.1 = some entry.2 := by
  rw [find?_eq_some_iff]
  constructor
  · exact fun member => ⟨List.mem_map_of_mem member, entry, member, Path.Same.refl _, rfl⟩
  · rintro ⟨listed, found, inMap, same, value⟩
    obtain ⟨other, member, spelled⟩ := List.mem_map.mp listed
    rw [← spelled] at same
    rw [map.entry_unique inMap member same] at value
    rwa [← Prod.ext spelled value]

/-- A map is determined by its paths, as they are spelled, and by what looking them up gives. -/
theorem ext_of_paths {left right : PathMap Value}
    (paths : ∀ path, path ∈ left.paths ↔ path ∈ right.paths)
    (values : ∀ path, left.find? path = right.find? path) : left = right := by
  refine ext_of_mem fun entry => ?_
  rw [mem_entries_iff, mem_entries_iff, paths, values]

theorem find?_congr (map : PathMap Value) {left right : Path} (same : left.Same right) :
    map.find? left = map.find? right := by
  rw [find?_eq, find?_eq, map.entry?_congr same]

theorem contains_iff (map : PathMap Value) (path : Path) :
    map.contains path = true ↔ ∃ entry ∈ map.entries, entry.1.Same path := by
  simp only [contains, List.any_eq_true, decide_eq_true_eq]

theorem contains_of_mem (map : PathMap Value) {entry : Path × Value}
    (member : entry ∈ map.entries) : map.contains entry.1 = true :=
  (map.contains_iff entry.1).mpr ⟨entry, member, Path.Same.refl _⟩

theorem contains_eq_isSome (map : PathMap Value) (path : Path) :
    map.contains path = (map.find? path).isSome := by
  rw [Bool.eq_iff_iff, contains_iff, Option.isSome_iff_exists]
  simp only [find?_eq_some_iff]
  constructor
  · rintro ⟨entry, member, same⟩
    exact ⟨entry.2, entry, member, same, rfl⟩
  · rintro ⟨_, entry, member, same, _⟩
    exact ⟨entry, member, same⟩

theorem contains_congr (map : PathMap Value) {left right : Path} (same : left.Same right) :
    map.contains left = map.contains right := by
  rw [contains_eq_isSome, contains_eq_isSome, map.find?_congr same]

/-- The spelling under which a map has a path; a path that it does not have is spelled as it is
given. -/
def spelling (map : PathMap Value) (path : Path) : Path :=
  ((map.entry? path).map Prod.fst).getD path

theorem spelling_same (map : PathMap Value) (path : Path) : (map.spelling path).Same path := by
  unfold spelling
  cases lookup : map.entry? path with
  | none => exact Path.Same.refl path
  | some entry => exact ((map.entry?_eq_some_iff path entry).mp lookup).2

/-- The spelling of a path that the map has is the one in its entry. -/
theorem spelling_of_mem (map : PathMap Value) {entry : Path × Value} {path : Path}
    (member : entry ∈ map.entries) (same : entry.1.Same path) : map.spelling path = entry.1 := by
  rw [spelling, (map.entry?_eq_some_iff path entry).mpr ⟨member, same⟩]
  rfl

theorem spelling_of_not_contains (map : PathMap Value) {path : Path}
    (absent : map.contains path = false) : map.spelling path = path := by
  rw [contains_eq_isSome, find?_eq, Option.isSome_map] at absent
  rw [spelling, Option.isSome_eq_false_iff.mp absent |> Option.isNone_iff_eq_none.mp]
  rfl

/-! ### Writing -/

/-- Changing a path leaves the entries for the others alone and has one entry for the path, under
the spelling that was there. -/
theorem mem_alter (map : PathMap Value) (path : Path) (change : Option Value → Value)
    (entry : Path × Value) :
    entry ∈ (map.alter path change).entries ↔
      entry ∈ map.entries ∧ ¬ entry.1.Same path ∨
        entry = (map.spelling path, change (map.find? path)) := by
  obtain ⟨entries, ascending⟩ := map
  simp only [alter, spelling, find?_eq, entry?]
  induction entries with
  | nil => simp [alterEntries]
  | cons head later inductionHypothesis =>
    obtain ⟨other, value⟩ := head
    obtain ⟨beforeLater, laterAscending⟩ := List.pairwise_cons.mp ascending
    unfold alterEntries
    split
    · next same =>
      -- The head is the entry for the path, and no later one is.
      have laterDifferent : ∀ entry ∈ later, ¬ entry.1.Same path := fun entry member atPath =>
        (beforeLater entry member).not_same (same.symm.trans atPath.symm)
      simp only [List.find?_cons, decide_eq_true same.symm]
      grind [Path.Same.symm]
    · next different =>
      have notSame : ¬ other.Same path := fun same => different same.symm
      split
      · next before =>
        -- The path comes before every entry, so there is none for it.
        have allDifferent : ∀ entry ∈ (other, value) :: later, ¬ entry.1.Same path := by
          intro entry member atPath
          rcases List.mem_cons.mp member with rfl | inLater
          · exact notSame atPath
          · exact (before.trans (beforeLater entry inLater)).not_same atPath.symm
        have absent : ((other, value) :: later).find? (fun entry => entry.1.Same path) = none :=
          List.find?_eq_none.mpr fun entry member => by simpa using allDifferent entry member
        rw [absent]
        grind
      · simp only [List.find?_cons, decide_eq_false notSame, List.mem_cons,
          inductionHypothesis laterAscending]
        grind

theorem mem_insert (map : PathMap Value) (path : Path) (value : Value) (entry : Path × Value) :
    entry ∈ (map.insert path value).entries ↔
      entry ∈ map.entries ∧ ¬ entry.1.Same path ∨ entry = (map.spelling path, value) :=
  map.mem_alter path (fun _ => value) entry

theorem mem_erase (map : PathMap Value) (path : Path) (entry : Path × Value) :
    entry ∈ (map.erase path).entries ↔ entry ∈ map.entries ∧ ¬ entry.1.Same path := by
  simp [erase]

theorem erase_of_not_contains {map : PathMap Value} {path : Path}
    (absent : map.contains path = false) : map.erase path = map := by
  refine ext_of_mem fun entry => ?_
  rw [mem_erase, and_iff_left_iff_imp]
  intro member same
  exact absurd ((map.contains_iff path).mpr ⟨entry, member, same⟩) (by simp [absent])

theorem find?_alter_self (map : PathMap Value) {path other : Path}
    (change : Option Value → Value) (same : other.Same path) :
    (map.alter path change).find? other = some (change (map.find? path)) := by
  rw [find?_eq_some_iff]
  exact ⟨_, (map.mem_alter path change _).mpr (.inr rfl),
    (map.spelling_same path).trans same.symm, rfl⟩

theorem find?_alter_of_not_same (map : PathMap Value) {path other : Path}
    (change : Option Value → Value) (different : ¬ other.Same path) :
    (map.alter path change).find? other = map.find? other := by
  refine Option.ext fun value => ?_
  rw [find?_eq_some_iff, find?_eq_some_iff]
  constructor
  · rintro ⟨entry, member, same, rfl⟩
    rcases (map.mem_alter path change entry).mp member with ⟨kept, _⟩ | rfl
    · exact ⟨entry, kept, same, rfl⟩
    · exact absurd (same.symm.trans (map.spelling_same path)) different
  · rintro ⟨entry, member, same, rfl⟩
    refine ⟨entry, (map.mem_alter path change entry).mpr (.inl ⟨member, fun atPath => ?_⟩), same,
      rfl⟩
    exact different (same.symm.trans atPath)

theorem contains_alter (map : PathMap Value) (path other : Path)
    (change : Option Value → Value) :
    (map.alter path change).contains other = true ↔
      other.Same path ∨ map.contains other = true := by
  rw [contains_eq_isSome, contains_eq_isSome]
  by_cases same : other.Same path
  · simp [map.find?_alter_self _ same, same]
  · simp [map.find?_alter_of_not_same _ same, same]

theorem contains_insert (map : PathMap Value) (path other : Path) (value : Value) :
    (map.insert path value).contains other = true ↔
      other.Same path ∨ map.contains other = true :=
  map.contains_alter path other fun _ => value

/-- A path that is there keeps its spelling, and one that is not is added as it is spelled. -/
theorem mem_paths_alter (map : PathMap Value) (path other : Path)
    (change : Option Value → Value) :
    other ∈ (map.alter path change).paths ↔
      other ∈ map.paths ∨ map.contains path = false ∧ other = path := by
  simp only [paths, List.mem_map, mem_alter]
  by_cases present : map.contains path = true
  · obtain ⟨found, inMap, same⟩ := (map.contains_iff path).mp present
    rw [map.spelling_of_mem inMap same]
    constructor
    · rintro ⟨entry, ⟨member, _⟩ | rfl, rfl⟩
      · exact .inl ⟨entry, member, rfl⟩
      · exact .inl ⟨found, inMap, rfl⟩
    · rintro (⟨entry, member, rfl⟩ | ⟨absent, _⟩)
      · by_cases atPath : entry.1.Same path
        · exact ⟨_, .inr rfl, by rw [map.entry_unique member inMap (atPath.trans same.symm)]⟩
        · exact ⟨entry, .inl ⟨member, atPath⟩, rfl⟩
      · exact absurd present (by simp [absent])
  · have absent : map.contains path = false := Bool.not_eq_true _ ▸ present
    rw [map.spelling_of_not_contains absent]
    constructor
    · rintro ⟨entry, ⟨member, _⟩ | rfl, rfl⟩
      · exact .inl ⟨entry, member, rfl⟩
      · exact .inr ⟨absent, rfl⟩
    · rintro (⟨entry, member, rfl⟩ | ⟨_, rfl⟩)
      · refine ⟨entry, .inl ⟨member, fun same => present ?_⟩, rfl⟩
        exact (map.contains_iff path).mpr ⟨entry, member, same⟩
      · exact ⟨_, .inr rfl, rfl⟩

theorem contains_erase (map : PathMap Value) (path other : Path) :
    (map.erase path).contains other = true ↔ ¬ other.Same path ∧ map.contains other = true := by
  simp only [contains_iff, mem_erase]
  constructor
  · rintro ⟨entry, ⟨member, different⟩, same⟩
    exact ⟨fun atPath => different (same.trans atPath), entry, member, same⟩
  · rintro ⟨different, entry, member, same⟩
    exact ⟨entry, ⟨member, fun atPath => different (same.symm.trans atPath)⟩, same⟩

/-- Sets the value at a path, or removes the path if there is none. -/
def write (map : PathMap Value) (path : Path) : Option Value → PathMap Value
  | some value => map.insert path value
  | none => map.erase path

theorem mem_write (map : PathMap Value) (path : Path) (content : Option Value)
    (entry : Path × Value) :
    entry ∈ (map.write path content).entries ↔
      entry ∈ map.entries ∧ ¬ entry.1.Same path ∨
        ∃ value, content = some value ∧ entry = (map.spelling path, value) := by
  cases content with
  | none => simp [write, mem_erase]
  | some value => simp [write, mem_insert]

theorem contains_write (map : PathMap Value) (path other : Path) (content : Option Value) :
    (map.write path content).contains other = true ↔
      if other.Same path then content.isSome = true else map.contains other = true := by
  cases content with
  | none =>
    refine (map.contains_erase path other).trans ?_
    by_cases same : other.Same path <;> simp [same]
  | some value =>
    refine (map.contains_insert path other value).trans ?_
    by_cases same : other.Same path <;> simp [same]

theorem find?_write_self (map : PathMap Value) (path : Path) (content : Option Value) :
    (map.write path content).find? path = content := by
  ext value
  rw [find?_eq_some_iff]
  constructor
  · rintro ⟨entry, member, same, rfl⟩
    rcases (map.mem_write path content entry).mp member with ⟨_, different⟩ | ⟨value, found, rfl⟩
    · exact absurd same different
    · exact found
  · intro found
    exact ⟨_, (map.mem_write path content _).mpr (.inr ⟨value, found, rfl⟩),
      map.spelling_same path, rfl⟩

/-- The entries whose paths are to be kept. -/
def filter (map : PathMap Value) (keep : Path → Bool) : PathMap Value :=
  ⟨map.entries.filter fun entry => keep entry.1, map.ascending.filter _⟩

theorem mem_filter (map : PathMap Value) (keep : Path → Bool) (entry : Path × Value) :
    entry ∈ (map.filter keep).entries ↔ entry ∈ map.entries ∧ keep entry.1 = true :=
  List.mem_filter

/-- Puts a row of entries in, one after the other. -/
def insertAll (map : PathMap Value) (entries : List (Path × Value)) : PathMap Value :=
  entries.foldl (fun result entry => result.insert entry.1 entry.2) map

/-- Entries for distinct paths that a map does not have are added as they are. -/
theorem mem_insertAll {map : PathMap Value} {entries : List (Path × Value)}
    (distinct : entries.Pairwise fun left right => ¬ left.1.Same right.1)
    (fresh : ∀ entry ∈ entries, map.contains entry.1 = false) (entry : Path × Value) :
    entry ∈ (map.insertAll entries).entries ↔ entry ∈ map.entries ∨ entry ∈ entries := by
  induction entries generalizing map with
  | nil => simp [insertAll]
  | cons first later inductionHypothesis =>
    obtain ⟨different, laterDistinct⟩ := List.pairwise_cons.mp distinct
    have firstFresh := fresh first List.mem_cons_self
    have laterFresh : ∀ entry ∈ later, (map.insert first.1 first.2).contains entry.1 = false := by
      intro entry member
      rw [← Bool.not_eq_true, contains_insert, not_or]
      exact ⟨fun same => different entry member same.symm,
        by simp [fresh entry (List.mem_cons_of_mem _ member)]⟩
    have absent : entry ∈ map.entries → ¬ entry.1.Same first.1 := fun member same =>
      absurd ((map.contains_iff first.1).mpr ⟨entry, member, same⟩) (by simp [firstFresh])
    rw [insertAll, List.foldl_cons, ← insertAll, inductionHypothesis laterDistinct laterFresh,
      mem_insert, map.spelling_of_not_contains firstFresh]
    grind

/-! ### Emptiness -/

theorem contains_empty (path : Path) : (empty : PathMap Value).contains path = false := rfl

theorem isEmpty_iff (map : PathMap Value) : map.isEmpty = true ↔ map = empty := by
  rw [isEmpty, List.isEmpty_iff]
  exact ⟨fun none => PathMap.ext none, fun equal => by rw [equal]; rfl⟩

theorem isEmpty_eq_false_of_contains (map : PathMap Value) {path : Path}
    (present : map.contains path = true) : map.isEmpty = false := by
  rw [← Bool.not_eq_true, isEmpty_iff]
  rintro rfl
  exact absurd present (by simp [contains_empty])

theorem exists_mem_of_isEmpty_eq_false {map : PathMap Value} (nonempty : map.isEmpty = false) :
    ∃ entry, entry ∈ map.entries := by
  refine List.exists_mem_of_ne_nil map.entries fun none => ?_
  rw [isEmpty, none] at nonempty
  exact nomatch nonempty

end PathMap

end WorkspaceSync
