/-
This file shows that a collection tells how it was built.

A collection is built from the empty one by making files present, adding
diagnostics and adding other collections, which were built the same way. Adding
a collection hands its diagnostics over file by file, in the order of the paths
and not in the order in which they came. Still the files have the diagnostics
that they would have if everything had been delivered to one collection in
order: a history is a row of deliveries, whatever was put together before it was
added. What is found for a file, how the files are listed and how much there is
of both then follow from what a row of deliveries does.
-/
import Mathlib.Data.List.Dedup
import WorkspaceSync.Proofs.FileDiagnostics

namespace WorkspaceSync

namespace FileDiagnostics

/-- How a collection was built from the empty one. Collections that were added to it were built
likewise. -/
inductive History where
  | empty
  | touch (earlier : History) (file : Path)
  | push (earlier : History) (diagnostic : Diagnostic)
  | append (earlier other : History)

namespace History

/-- The collection that was built. -/
def collection : History → FileDiagnostics
  | .empty => .empty
  | .touch earlier file => FileDiagnostics.touch earlier.collection file
  | .push earlier diagnostic => FileDiagnostics.push earlier.collection diagnostic
  | .append earlier other => FileDiagnostics.append earlier.collection other.collection

/-- What was delivered to which files, in order. -/
def deliveries : History → List (Path × List Diagnostic)
  | .empty => []
  | .touch earlier file => earlier.deliveries ++ [(file, [])]
  | .push earlier diagnostic => earlier.deliveries ++ [(diagnostic.file, [diagnostic])]
  | .append earlier other => earlier.deliveries ++ other.deliveries

/-- The files that were made present and those of the diagnostics that were added, in order. -/
def named (history : History) : List Path :=
  history.deliveries.map Prod.fst

/-- The diagnostics that were added, in order. -/
def pushed (history : History) : List Diagnostic :=
  history.deliveries.flatMap Prod.snd

/-! ### Histories as rows of deliveries -/

theorem own_deliveries (history : History) :
    ∀ delivery ∈ history.deliveries, ∀ diagnostic ∈ delivery.2, diagnostic.file = delivery.1 := by
  induction history with
  | empty => simp [deliveries]
  | touch earlier file inductionHypothesis =>
    exact List.forall_mem_append.mpr ⟨inductionHypothesis, by simp⟩
  | push earlier diagnostic inductionHypothesis =>
    exact List.forall_mem_append.mpr ⟨inductionHypothesis, by simp⟩
  | append earlier other earlierHypothesis otherHypothesis =>
    exact List.forall_mem_append.mpr ⟨earlierHypothesis, otherHypothesis⟩

/-- What was built is what the deliveries make of the empty collection. -/
theorem collection_eq (history : History) :
    history.collection = extendAll .empty history.deliveries := by
  induction history with
  | empty => rfl
  | touch earlier file inductionHypothesis =>
    rw [collection, deliveries, inductionHypothesis, extendAll_append]
    rfl
  | push earlier diagnostic inductionHypothesis =>
    rw [collection, deliveries, inductionHypothesis, extendAll_append]
    rfl
  | append earlier other earlierHypothesis otherHypothesis =>
    rw [collection, deliveries, earlierHypothesis, otherHypothesis, append_extendAll, append_empty,
      extendAll_append]

/-! ### What a collection tells -/

theorem find?_collection (history : History) (file : Path) :
    history.collection.find? file =
      if ∃ path ∈ history.named, path.Same file then
        some (history.pushed.filter fun diagnostic => diagnostic.file.Same file)
      else none := by
  rw [collection_eq, find?_extendAll, deliveredTo_eq_filter history.own_deliveries,
    PathMap.contains_empty]
  refine if_congr ?_ rfl rfl
  simp [named]

theorem mem_paths_collection (history : History) (file : Path) :
    file ∈ history.collection.paths ↔
      history.named.find? (fun path => path.Same file) = some file := by
  rw [collection_eq, mem_paths_extendAll, PathMap.contains_empty]
  simp [named, PathMap.paths]

theorem entries_collection (history : History) :
    history.collection.entries = history.collection.paths.map fun file =>
      (file, history.pushed.filter fun diagnostic => diagnostic.file.Same file) := by
  rw [PathMap.paths, List.map_map, List.map_congr_left, List.map_id]
  intro entry member
  have lookup := ((PathMap.mem_entries_iff _ entry).mp member).2
  rw [find?_collection, Option.ite_none_right_eq_some, Option.some_inj] at lookup
  exact Prod.ext rfl lookup.2

/-- There are as many files as there are keys among those of the files that were named. -/
theorem size_collection (history : History) :
    history.collection.size = (history.named.map Path.key).dedup.length := by
  have distinct : (history.collection.paths.map Path.key).Nodup :=
    List.pairwise_map.mpr (history.collection.ascending_paths.imp Path.Before.not_same)
  have members (key : List (List Nat)) : key ∈ history.collection.paths.map Path.key ↔
      key ∈ (history.named.map Path.key).dedup := by
    rw [List.mem_dedup, List.mem_map, List.mem_map]
    constructor
    · rintro ⟨path, listed, rfl⟩
      exact ⟨path, List.mem_of_find?_eq_some ((history.mem_paths_collection path).mp listed), rfl⟩
    · rintro ⟨path, named, rfl⟩
      have found := history.find?_collection path
      rw [if_pos ⟨path, named, Path.Same.refl path⟩, PathMap.find?_eq_some_iff] at found
      obtain ⟨entry, member, same, -⟩ := found
      exact ⟨entry.1, List.mem_map_of_mem member, same⟩
  have permuted := (List.perm_ext_iff_of_nodup distinct (List.nodup_dedup _)).mpr members
  rw [← permuted.length_eq, List.length_map, PathMap.paths, List.length_map, PathMap.size]

theorem count_collection (history : History) :
    FileDiagnostics.count history.collection = history.pushed.length := by
  rw [collection_eq, count_extendAll]
  exact Nat.zero_add _

/-- A collection tells a history. -/
structure ToldBy (history : History) (collection : FileDiagnostics) : Prop where
  /-- A file is found if it was named, and has the diagnostics on it in the order in which they
  were added. -/
  found : ∀ file, collection.find? file =
    if ∃ path ∈ history.named, path.Same file then
      some (history.pushed.filter fun diagnostic => diagnostic.file.Same file)
    else none
  /-- The files are listed once each, in the order of their paths. -/
  ascending : collection.paths.Pairwise Path.Before
  /-- A file is listed under the first of the spellings that it was named by. -/
  spelled : ∀ file, file ∈ collection.paths ↔
    history.named.find? (fun path => path.Same file) = some file
  /-- Each file is listed with what is found for it. -/
  listed : collection.entries = collection.paths.map fun file =>
    (file, history.pushed.filter fun diagnostic => diagnostic.file.Same file)
  /-- All spellings of a file are counted as one. -/
  size : collection.size = (history.named.map Path.key).dedup.length
  count : FileDiagnostics.count collection = history.pushed.length

/-- Every collection tells the history by which it was built, and adding collections to each other
is associative with the empty collection on either side changing nothing. -/
theorem collection_tells_history :
    (∀ history : History, history.ToldBy history.collection) ∧
      (∀ first second third : FileDiagnostics,
        FileDiagnostics.append (FileDiagnostics.append first second) third =
          FileDiagnostics.append first (FileDiagnostics.append second third)) ∧
      ∀ collection : FileDiagnostics,
        FileDiagnostics.append .empty collection = collection ∧
          FileDiagnostics.append collection .empty = collection := by
  refine ⟨fun history => ?_, append_assoc, fun collection => ?_⟩
  · exact {
      found := history.find?_collection
      ascending := history.collection.ascending_paths
      spelled := history.mem_paths_collection
      listed := history.entries_collection
      size := history.size_collection
      count := history.count_collection }
  · exact ⟨empty_append collection, append_empty collection⟩

/-- A file that is named again under another spelling keeps the first one, and what comes with a
collection stands behind what is there. -/
example :
    let remark (file message : String) : Diagnostic := ⟨⟨file⟩, message, .error, .start, none⟩
    let added := (History.empty.push (remark "b/x" "second")).touch ⟨"a"⟩
    let history := (History.empty.push (remark "b//x" "first")).append added
    history.collection.entries.map (fun entry => (entry.1.text, entry.2.map Diagnostic.message)) =
      [("a", []), ("b//x", ["first", "second"])] := by
  decide +kernel

end History

end FileDiagnostics

end WorkspaceSync
