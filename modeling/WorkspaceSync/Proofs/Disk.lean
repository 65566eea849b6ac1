/-
This file says what a tree on a disk looks like and how its entries are reached.

In a sound tree the entries of every directory have distinct names, and each
name is one that a path can lead through. There the entry reached by a row of
names is unique, and the path that is built from the names one by one has them
as its components.
-/
import Mathlib.Data.List.Induction
import Mathlib.Data.List.Nodup
import WorkspaceSync.Disk
import WorkspaceSync.Proofs.Path

namespace WorkspaceSync

open WorkspaceSync.Path (IsName Component)

namespace Node

/-! ### Sound trees -/

mutual

/-- The names in every directory of the tree are distinct and can be led through. -/
def isSound : Node → Bool
  | .directory entries => decide (entries.map Prod.fst).Nodup && areSound entries
  | _ => true

/-- Every entry has a name that can be led through and is the root of a sound tree. -/
def areSound : List (String × Node) → Bool
  | [] => true
  | (name, node) :: rest => decide (IsName name.toList) && node.isSound && areSound rest

end

theorem areSound_iff (entries : List (String × Node)) :
    areSound entries = true ↔
      ∀ entry ∈ entries, IsName entry.1.toList ∧ entry.2.isSound = true := by
  induction entries with
  | nil => simp [areSound]
  | cons entry rest inductionHypothesis =>
    obtain ⟨name, node⟩ := entry
    simp only [areSound, Bool.and_eq_true, decide_eq_true_eq, inductionHypothesis,
      List.forall_mem_cons]

theorem isSound_directory_iff (entries : List (String × Node)) :
    (directory entries).isSound = true ↔
      (entries.map Prod.fst).Nodup ∧
        ∀ entry ∈ entries, IsName entry.1.toList ∧ entry.2.isSound = true := by
  rw [isSound, Bool.and_eq_true, decide_eq_true_eq, areSound_iff]

/-! ### Reaching entries -/

theorem mem_of_child? {entries : List (String × Node)} {name : String} {child : Node}
    (found : (directory entries).child? name = some child) : (name, child) ∈ entries := by
  obtain ⟨entry, lookup, rfl⟩ := Option.map_eq_some_iff.mp found
  have named := List.find?_some lookup
  have equal : entry.1 = name := of_decide_eq_true named
  rw [← equal]
  exact List.mem_of_find?_eq_some lookup

/-- In a directory with distinct names the entry with a name is the one that is found. -/
theorem child?_eq_some_iff {entries : List (String × Node)}
    (distinct : (entries.map Prod.fst).Nodup)
    (name : String) (child : Node) :
    (directory entries).child? name = some child ↔ (name, child) ∈ entries := by
  refine ⟨mem_of_child?, fun member => ?_⟩
  cases found : (directory entries).child? name with
  | none =>
    have absent := List.find?_eq_none.mp (Option.map_eq_none_iff.mp found) _ member
    exact absurd (decide_eq_true rfl) absent
  | some other =>
    have otherMember := mem_of_child? found
    have equal := List.inj_on_of_nodup_map distinct member otherMember rfl
    rw [(Prod.mk.inj equal).2]

theorem descend?_append (node : Node) (left right : List String) :
    node.descend? (left ++ right) =
      (node.descend? left).bind fun inner => inner.descend? right := by
  induction left generalizing node with
  | nil => rfl
  | cons name rest inductionHypothesis =>
    simp only [List.cons_append, descend?, Option.bind_assoc]
    exact Option.bind_congr fun child _ => inductionHypothesis child

theorem descend?_singleton (node : Node) (name : String) :
    node.descend? [name] = node.child? name := by
  rw [descend?]
  cases node.child? name <;> rfl

/-- What is reached in a sound tree is a sound tree, and all names on the way can be led
through. -/
theorem isSound_of_descend? {node inner : Node} {names : List String}
    (sound : node.isSound = true) (reached : node.descend? names = some inner) :
    inner.isSound = true ∧ ∀ name ∈ names, IsName name.toList := by
  induction names generalizing node with
  | nil =>
    obtain rfl := Option.some_inj.mp reached
    exact ⟨sound, fun name member => absurd member List.not_mem_nil⟩
  | cons name rest inductionHypothesis =>
    obtain ⟨child, found, later⟩ := Option.bind_eq_some_iff.mp reached
    cases node with
    | file content => exact absurd found (by simp [child?])
    | link target => exact absurd found (by simp [child?])
    | directory entries =>
      obtain ⟨_, entrySound⟩ := (isSound_directory_iff entries).mp sound
      obtain ⟨isName, childSound⟩ := entrySound (name, child) (mem_of_child? found)
      obtain ⟨innerSound, restNames⟩ := inductionHypothesis childSound later
      exact ⟨innerSound, List.forall_mem_cons.mpr ⟨isName, restNames⟩⟩

end Node

/-- What a path leads to on a disk with a sound tree is the root of a sound tree. -/
theorem Disk.isSound_of_entry {disk : Disk} {path : Path} {node : Node}
    (sound : disk.root.isSound = true) (found : disk.entry path = .ok node) :
    node.isSound = true := by
  unfold Disk.entry at found
  split at found
  · exact absurd found (by simp)
  · next place _ =>
    split at found
    · exact absurd found (by simp)
    · next inner reached =>
      obtain rfl := Except.ok.inj found
      exact (Node.isSound_of_descend? sound reached).1

/-! ### Paths along names -/

namespace Path

/-- The path that leads from a base along a row of names. -/
def along (base : Path) (names : List String) : Path :=
  names.foldl (fun path name => path.join ⟨name⟩) base

@[simp] theorem along_nil (base : Path) : base.along [] = base := rfl

theorem along_concat (base : Path) (names : List String) (name : String) :
    base.along (names ++ [name]) = (base.along names).join ⟨name⟩ := by
  simp [along]

theorem components_along (base : Path) {names : List String}
    (isName : ∀ name ∈ names, IsName name.toList) :
    (base.along names).components =
      base.components ++ (names.map String.toList).map .entry := by
  induction names using List.reverseRecOn with
  | nil => simp
  | append_singleton before last inductionHypothesis =>
    have beforeNames : ∀ name ∈ before, IsName name.toList := fun name member =>
      isName name (List.mem_append_left _ member)
    rw [along_concat, components_join _ (isName last (by simp)), inductionHypothesis beforeNames]
    simp

end Path

end WorkspaceSync
