/-
This file defines finite maps from paths.

A map is a list of entries in strictly ascending order of the keys of their
paths, so it holds at most one entry for all spellings of a path. Every write
goes through `alter`: a path that is already there keeps the spelling it was
first written with, and a new one takes its place in the order.
-/
import WorkspaceSync.Path

namespace WorkspaceSync

/-- One path of a map stands strictly before another. -/
def Path.Before (left right : Path) : Prop :=
  left.key < right.key

instance (left right : Path) : Decidable (left.Before right) :=
  inferInstanceAs (Decidable (left.key < right.key))

/-- The entries stand in strictly ascending order of their paths. -/
def Ascending {Value : Type} (entries : List (Path × Value)) : Prop :=
  entries.Pairwise fun left right => left.1.Before right.1

/-- A finite map from paths. -/
structure PathMap (Value : Type) where
  entries : List (Path × Value)
  ascending : Ascending entries

/-- A finite set of paths. -/
abbrev PathSet := PathMap Unit

namespace Path

theorem Before.trans {first second third : Path} (left : first.Before second)
    (right : second.Before third) : first.Before third :=
  List.lt_trans left right

theorem Before.of_same_left {first second third : Path} (same : first.Same second)
    (before : second.Before third) : first.Before third := by
  unfold Before at before ⊢
  unfold Same at same
  rwa [same]

theorem Before.of_same_right {first second third : Path} (before : first.Before second)
    (same : second.Same third) : first.Before third := by
  unfold Before at before ⊢
  unfold Same at same
  rwa [← same]

theorem not_before_self (path : Path) : ¬ path.Before path :=
  List.lt_irrefl path.key

/-- Of two paths one is before the other, unless they are the same. -/
theorem before_of_not {left right : Path} (notBefore : ¬ left.Before right)
    (different : ¬ left.Same right) : right.Before left := by
  by_cases before : right.key < left.key
  · exact before
  · exact absurd (List.le_antisymm (List.not_lt.mp before) (List.not_lt.mp notBefore)) different

end Path

namespace PathMap

variable {Value : Type}

/-! ### Writing -/

/-- Changes the value at a path, or puts in a first value for it. -/
def alterEntries (path : Path) (change : Option Value → Value) :
    List (Path × Value) → List (Path × Value)
  | [] => [(path, change none)]
  | (other, value) :: later =>
    if path.Same other then (other, change (some value)) :: later
    else if path.Before other then (path, change none) :: (other, value) :: later
    else (other, value) :: alterEntries path change later

theorem before_of_mem_alterEntries {path first : Path} {change : Option Value → Value}
    {entries : List (Path × Value)} (beforePath : first.Before path)
    (beforeAll : ∀ entry ∈ entries, first.Before entry.1) :
    ∀ entry ∈ alterEntries path change entries, first.Before entry.1 := by
  induction entries with
  | nil => simpa [alterEntries] using beforePath
  | cons head later inductionHypothesis =>
    obtain ⟨other, value⟩ := head
    have beforeLater : ∀ entry ∈ later, first.Before entry.1 :=
      fun entry member => beforeAll entry (List.mem_cons_of_mem _ member)
    have beforeOther : first.Before other := beforeAll (other, value) List.mem_cons_self
    unfold alterEntries
    split
    · intro entry member
      rcases List.mem_cons.mp member with rfl | inLater
      · exact beforeOther
      · exact beforeLater entry inLater
    · split
      · intro entry member
        rcases List.mem_cons.mp member with rfl | inRest
        · exact beforePath
        · exact beforeAll entry inRest
      · intro entry member
        rcases List.mem_cons.mp member with rfl | inRest
        · exact beforeOther
        · exact inductionHypothesis beforeLater entry inRest

theorem ascending_alterEntries (path : Path) (change : Option Value → Value)
    {entries : List (Path × Value)} (ascending : Ascending entries) :
    Ascending (alterEntries path change entries) := by
  induction entries with
  | nil => simp [alterEntries, Ascending]
  | cons head later inductionHypothesis =>
    obtain ⟨other, value⟩ := head
    obtain ⟨beforeLater, laterAscending⟩ := List.pairwise_cons.mp ascending
    unfold alterEntries
    split
    · exact List.pairwise_cons.mpr ⟨beforeLater, laterAscending⟩
    · next different =>
      split
      · next before =>
        refine List.pairwise_cons.mpr ⟨fun entry member => ?_, ascending⟩
        rcases List.mem_cons.mp member with rfl | inLater
        · exact before
        · exact Path.Before.trans before (beforeLater entry inLater)
      · next notBefore =>
        have otherFirst : other.Before path := Path.before_of_not notBefore different
        exact List.pairwise_cons.mpr
          ⟨before_of_mem_alterEntries otherFirst beforeLater, inductionHypothesis laterAscending⟩

/-- The map without entries. -/
def empty : PathMap Value := ⟨[], List.Pairwise.nil⟩

instance : Inhabited (PathMap Value) := ⟨empty⟩

/-- Changes the value at a path, or puts in a first value for it. -/
def alter (map : PathMap Value) (path : Path) (change : Option Value → Value) : PathMap Value :=
  ⟨alterEntries path change map.entries, ascending_alterEntries path change map.ascending⟩

/-- Sets the value at a path. -/
def insert (map : PathMap Value) (path : Path) (value : Value) : PathMap Value :=
  map.alter path fun _ => value

/-- Removes a path, whatever its spelling. -/
def erase (map : PathMap Value) (path : Path) : PathMap Value :=
  ⟨map.entries.filter fun entry => !decide (entry.1.Same path), map.ascending.filter _⟩

/-! ### Reading -/

/-- The value at a path. -/
def find? (map : PathMap Value) (path : Path) : Option Value :=
  (map.entries.find? fun entry => entry.1.Same path).map Prod.snd

/-- Whether the map has a value for a path. -/
def contains (map : PathMap Value) (path : Path) : Bool :=
  map.entries.any fun entry => entry.1.Same path

/-- The paths of the map in ascending order. -/
def paths (map : PathMap Value) : List Path :=
  map.entries.map Prod.fst

/-- The number of paths of the map. -/
def size (map : PathMap Value) : Nat :=
  map.entries.length

/-- Whether the map has no path. -/
def isEmpty (map : PathMap Value) : Bool :=
  map.entries.isEmpty

@[simp] theorem entries_empty : (empty : PathMap Value).entries = [] := rfl

/-- Two maps with the same entries are equal. -/
@[ext] theorem ext {left right : PathMap Value} (entries : left.entries = right.entries) :
    left = right := by
  cases left
  cases right
  simp_all

end PathMap

end WorkspaceSync
