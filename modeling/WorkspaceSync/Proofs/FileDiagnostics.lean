/-
This file says what a collection has for a file once diagnostics were added to
it.

Making files present, adding diagnostics one by one and adding a whole other
collection are all rows of deliveries to files. One equation, `find?_extendAll`,
therefore covers them: a file is present if it was or if something is delivered
to it, and it has what it had, followed by what is delivered to it, in order.
Its companion `mem_paths_extendAll` says how the files are spelled. From the two
follow the laws of adding collections to each other.
-/
import WorkspaceSync.FileDiagnostics
import WorkspaceSync.Proofs.PathMap

namespace WorkspaceSync

namespace FileDiagnostics

/-- Adds a row of deliveries to their files, one after the other. -/
def extendAll (collection : FileDiagnostics) (deliveries : List (Path × List Diagnostic)) :
    FileDiagnostics :=
  deliveries.foldl (fun result delivery => extend result delivery.1 delivery.2) collection

/-- What a row of deliveries brings to a file, in order. -/
def deliveredTo (file : Path) (deliveries : List (Path × List Diagnostic)) : List Diagnostic :=
  (deliveries.filter fun delivery => delivery.1.Same file).flatMap Prod.snd

theorem extendAll_append (collection : FileDiagnostics)
    (earlier later : List (Path × List Diagnostic)) :
    extendAll collection (earlier ++ later) = extendAll (extendAll collection earlier) later :=
  List.foldl_append

theorem find?_extend (collection : FileDiagnostics) (file other : Path)
    (delivered : List Diagnostic) :
    (extend collection file delivered).find? other =
      if other.Same file then some ((collection.find? other).getD [] ++ delivered)
      else collection.find? other := by
  unfold extend
  split
  · next same =>
    rw [PathMap.find?_alter_self collection _ same, PathMap.find?_congr collection same]
  · next different => exact PathMap.find?_alter_of_not_same collection _ different

/-- A file has what it had and what is delivered to it, and is present if either says so. -/
theorem find?_extendAll (collection : FileDiagnostics) (deliveries : List (Path × List Diagnostic))
    (file : Path) :
    (extendAll collection deliveries).find? file =
      if collection.contains file = true ∨ ∃ delivery ∈ deliveries, delivery.1.Same file then
        some ((collection.find? file).getD [] ++ deliveredTo file deliveries)
      else none := by
  induction deliveries generalizing collection with
  | nil =>
    rw [PathMap.contains_eq_isSome]
    cases found : collection.find? file <;> simp [extendAll, deliveredTo, found]
  | cons delivery later inductionHypothesis =>
    rw [extendAll, List.foldl_cons, ← extendAll, inductionHypothesis, PathMap.contains_eq_isSome,
      PathMap.contains_eq_isSome, find?_extend]
    by_cases same : file.Same delivery.1
    · have here : delivery.1.Same file := same.symm
      simp [deliveredTo, same, here]
    · have elsewhere : ¬ delivery.1.Same file := fun atFile => same atFile.symm
      have onlyLater : (∃ other ∈ delivery :: later, other.1.Same file) ↔
          ∃ other ∈ later, other.1.Same file := by
        simp [elsewhere]
      simp only [if_neg same, onlyLater, deliveredTo, List.filter_cons, elsewhere, decide_false,
        Bool.false_eq_true, if_false]

/-! ### The files that are present -/

/-- A file that was present keeps its spelling. Another one is spelled as it is delivered to for the
first time. -/
theorem mem_paths_extendAll (collection : FileDiagnostics)
    (deliveries : List (Path × List Diagnostic)) (file : Path) :
    file ∈ (extendAll collection deliveries).paths ↔
      file ∈ collection.paths ∨ collection.contains file = false ∧
        (deliveries.map Prod.fst).find? (fun other => other.Same file) = some file := by
  induction deliveries generalizing collection with
  | nil => simp [extendAll]
  | cons delivery later inductionHypothesis =>
    have absent : (extend collection delivery.1 delivery.2).contains file = false ↔
        ¬ file.Same delivery.1 ∧ collection.contains file = false := by
      rw [← Bool.not_eq_true, extend, PathMap.contains_alter, not_or, Bool.not_eq_true]
    rw [extendAll, List.foldl_cons, ← extendAll, inductionHypothesis, absent, extend,
      PathMap.mem_paths_alter, List.map_cons, List.find?_cons]
    by_cases same : delivery.1.Same file
    · rw [collection.contains_congr same, decide_eq_true same, Option.some_inj]
      simp only [same.symm, not_true_eq_false, false_and, or_false, eq_comm]
    · have different : ¬ file.Same delivery.1 := fun atFile => same atFile.symm
      have notEqual : file ≠ delivery.1 := by
        rintro rfl
        exact same (Path.Same.refl _)
      simp [same, different, notEqual]

/-- What is delivered to files that are present adds no file. -/
theorem mem_paths_extendAll_of_contains {collection : FileDiagnostics}
    {deliveries : List (Path × List Diagnostic)}
    (present : ∀ delivery ∈ deliveries, collection.contains delivery.1 = true) (file : Path) :
    file ∈ (extendAll collection deliveries).paths ↔ file ∈ collection.paths := by
  rw [mem_paths_extendAll, or_iff_left_iff_imp]
  rintro ⟨absent, delivered⟩
  obtain ⟨delivery, member, rfl⟩ := List.mem_map.mp (List.mem_of_find?_eq_some delivered)
  rw [present delivery member] at absent
  exact nomatch absent

/-- What is delivered to distinct files adds those that were not present, as they are spelled. -/
theorem mem_paths_extendAll_of_distinct {deliveries : List (Path × List Diagnostic)}
    (distinct : deliveries.Pairwise fun left right => ¬ left.1.Same right.1)
    (collection : FileDiagnostics) (file : Path) :
    file ∈ (extendAll collection deliveries).paths ↔
      file ∈ collection.paths ∨
        collection.contains file = false ∧ file ∈ deliveries.map Prod.fst := by
  rw [mem_paths_extendAll, Path.find?_same_eq_some_iff (List.pairwise_map.mpr distinct)]

/-- No file is present but those that were and those that something is delivered to. -/
theorem mem_or_mem_of_mem_paths_extendAll {collection : FileDiagnostics}
    {deliveries : List (Path × List Diagnostic)} {file : Path}
    (present : file ∈ (extendAll collection deliveries).paths) :
    file ∈ collection.paths ∨ file ∈ deliveries.map Prod.fst :=
  ((mem_paths_extendAll collection deliveries file).mp present).imp_right fun added =>
    List.mem_of_find?_eq_some added.2

/-! ### The ways to add diagnostics -/

theorem foldl_touch (collection : FileDiagnostics) (files : List Path) :
    files.foldl touch collection = extendAll collection (files.map fun file => (file, [])) := by
  rw [extendAll, List.foldl_map]
  rfl

theorem foldl_push (collection : FileDiagnostics) (diagnostics : List Diagnostic) :
    diagnostics.foldl push collection =
      extendAll collection (diagnostics.map fun diagnostic => (diagnostic.file, [diagnostic])) := by
  rw [extendAll, List.foldl_map]
  rfl

theorem append_eq (collection other : FileDiagnostics) :
    append collection other = extendAll collection other.entries := rfl

theorem deliveredTo_map_nil (file : Path) (files : List Path) :
    deliveredTo file (files.map fun other => (other, [])) = [] := by
  simp [deliveredTo]

/-- Where every delivery holds diagnostics on its own file, what comes to a file are the diagnostics
on it. -/
theorem deliveredTo_eq_filter {deliveries : List (Path × List Diagnostic)}
    (own : ∀ delivery ∈ deliveries, ∀ diagnostic ∈ delivery.2, diagnostic.file = delivery.1)
    (file : Path) :
    deliveredTo file deliveries =
      (deliveries.flatMap Prod.snd).filter fun diagnostic => diagnostic.file.Same file := by
  induction deliveries with
  | nil => rfl
  | cons delivery later inductionHypothesis =>
    obtain ⟨ownHere, ownLater⟩ := List.forall_mem_cons.mp own
    rw [List.flatMap_cons, List.filter_append, ← inductionHypothesis ownLater]
    by_cases same : delivery.1.Same file
    · have kept : delivery.2.filter (fun diagnostic => diagnostic.file.Same file) = delivery.2 := by
        refine List.filter_eq_self.mpr fun diagnostic member => decide_eq_true ?_
        rwa [ownHere diagnostic member]
      simp [deliveredTo, same, kept]
    · have dropped : delivery.2.filter (fun diagnostic => diagnostic.file.Same file) = [] := by
        refine List.filter_eq_nil_iff.mpr fun diagnostic member => ?_
        rwa [ownHere diagnostic member, decide_eq_true_eq]
      simp [deliveredTo, same, dropped]

/-- Diagnostics that are added one by one reach the files they name. -/
theorem deliveredTo_map_singleton (file : Path) (diagnostics : List Diagnostic) :
    deliveredTo file (diagnostics.map fun diagnostic => (diagnostic.file, [diagnostic])) =
      diagnostics.filter fun diagnostic => diagnostic.file.Same file := by
  rw [deliveredTo_eq_filter (by simp), List.flatMap_map, List.flatMap_singleton']

/-- The collection of a list has for a file the diagnostics on it, and does not have the file if
there are none. -/
theorem find?_ofList (diagnostics : List Diagnostic) (file : Path) :
    (ofList diagnostics).find? file =
      if (diagnostics.filter fun diagnostic => diagnostic.file.Same file) = [] then none
      else some (diagnostics.filter fun diagnostic => diagnostic.file.Same file) := by
  have delivered : (∃ delivery ∈ diagnostics.map fun diagnostic => (diagnostic.file, [diagnostic]),
      delivery.1.Same file) ↔
        (diagnostics.filter fun diagnostic => diagnostic.file.Same file) ≠ [] := by
    constructor
    · rintro ⟨_, member, same⟩
      obtain ⟨diagnostic, inList, rfl⟩ := List.mem_map.mp member
      exact List.ne_nil_of_mem (List.mem_filter.mpr ⟨inList, decide_eq_true same⟩)
    · intro someOn
      obtain ⟨diagnostic, member⟩ := List.exists_mem_of_ne_nil _ someOn
      obtain ⟨inList, same⟩ := List.mem_filter.mp member
      exact ⟨_, List.mem_map_of_mem inList, of_decide_eq_true same⟩
  rw [ofList, foldl_push, find?_extendAll, deliveredTo_map_singleton]
  simp only [PathMap.contains_empty, Bool.false_eq_true, false_or, delivered, ne_eq, ite_not]
  rfl

/-- The files of the collection of a list are those that its diagnostics name. -/
theorem mem_of_mem_paths_ofList {diagnostics : List Diagnostic} {file : Path}
    (present : file ∈ (ofList diagnostics).paths) :
    ∃ diagnostic ∈ diagnostics, diagnostic.file = file := by
  rw [ofList, foldl_push] at present
  rcases mem_or_mem_of_mem_paths_extendAll present with inEmpty | delivered
  · exact absurd inEmpty List.not_mem_nil
  · simpa using delivered

/-- A whole collection delivers to a file what it has for it. -/
theorem deliveredTo_entries (file : Path) (collection : FileDiagnostics) :
    deliveredTo file collection.entries = (collection.find? file).getD [] := by
  rw [deliveredTo, PathMap.filter_entries_same, PathMap.find?_eq]
  cases PathMap.entry? collection file <;> simp

/-! ### Adding a collection -/

theorem find?_append (collection other : FileDiagnostics) (file : Path) :
    (append collection other).find? file =
      if collection.contains file = true ∨ other.contains file = true then
        some ((collection.find? file).getD [] ++ (other.find? file).getD [])
      else none := by
  rw [append_eq, find?_extendAll, deliveredTo_entries]
  simp only [PathMap.contains_iff]

theorem contains_append (collection other : FileDiagnostics) (file : Path) :
    (append collection other).contains file = true ↔
      collection.contains file = true ∨ other.contains file = true := by
  rw [PathMap.contains_eq_isSome, find?_append]
  split <;> simp_all

theorem mem_paths_append (collection other : FileDiagnostics) (file : Path) :
    file ∈ (append collection other).paths ↔
      file ∈ collection.paths ∨ collection.contains file = false ∧ file ∈ other.paths :=
  mem_paths_extendAll_of_distinct (other.ascending.imp Path.Before.not_same) collection file

theorem append_empty (collection : FileDiagnostics) : append collection .empty = collection := rfl

theorem empty_append (collection : FileDiagnostics) : append .empty collection = collection := by
  refine PathMap.ext_of_paths (fun file => ?_) fun file => ?_
  · rw [mem_paths_append, PathMap.contains_empty]
    simp [PathMap.paths]
  · rw [find?_append, PathMap.contains_empty, PathMap.contains_eq_isSome]
    cases PathMap.find? collection file <;> simp [PathMap.find?]

/-- In what order collections are put together does not matter, not even for how their files are
spelled. -/
theorem append_assoc (first second third : FileDiagnostics) :
    append (append first second) third = append first (append second third) := by
  refine PathMap.ext_of_paths (fun file => ?_) fun file => ?_
  · have absent : (append first second).contains file = false ↔
        first.contains file = false ∧ second.contains file = false := by
      rw [← Bool.not_eq_true, contains_append, not_or, Bool.not_eq_true, Bool.not_eq_true]
    simp only [mem_paths_append, absent]
    grind
  · simp only [find?_append, PathMap.contains_eq_isSome]
    cases PathMap.find? first file <;> cases PathMap.find? second file <;>
      cases PathMap.find? third file <;> simp

theorem append_extend (collection other : FileDiagnostics) (file : Path)
    (delivered : List Diagnostic) :
    append collection (extend other file delivered) =
      extend (append collection other) file delivered := by
  -- One delivery is a collection of its own that is added.
  have single (base : FileDiagnostics) :
      extend base file delivered = append base (extend .empty file delivered) := rfl
  rw [single other, single (append collection other), append_assoc]

/-- Adding a collection is delivering what the collection was made of. -/
theorem append_extendAll (collection other : FileDiagnostics)
    (deliveries : List (Path × List Diagnostic)) :
    append collection (extendAll other deliveries) =
      extendAll (append collection other) deliveries := by
  induction deliveries generalizing other with
  | nil => rfl
  | cons delivery later inductionHypothesis =>
    rw [extendAll, List.foldl_cons, ← extendAll, inductionHypothesis, append_extend]
    rfl

/-! ### Counting -/

theorem count_eq (collection : FileDiagnostics) :
    count collection = (collection.entries.flatMap Prod.snd).length := by
  unfold count
  induction collection.entries with
  | nil => rfl
  | cons entry later inductionHypothesis =>
    rw [List.foldr_cons, inductionHypothesis, List.flatMap_cons, List.length_append]

theorem count_extend (collection : FileDiagnostics) (file : Path) (delivered : List Diagnostic) :
    count (extend collection file delivered) = count collection + delivered.length := by
  rw [count_eq, count_eq]
  unfold extend PathMap.alter
  simp only
  induction collection.entries with
  | nil => simp [PathMap.alterEntries]
  | cons entry later inductionHypothesis =>
    obtain ⟨other, present⟩ := entry
    unfold PathMap.alterEntries
    split
    · simp only [List.flatMap_cons, Option.getD_some, List.length_append]
      omega
    · split
      · simp only [List.flatMap_cons, Option.getD_none, List.length_append, List.length_nil]
        omega
      · simp only [List.flatMap_cons, List.length_append, inductionHypothesis]
        omega

theorem count_extendAll (collection : FileDiagnostics)
    (deliveries : List (Path × List Diagnostic)) :
    count (extendAll collection deliveries) =
      count collection + (deliveries.flatMap Prod.snd).length := by
  induction deliveries generalizing collection with
  | nil => rfl
  | cons delivery later inductionHypothesis =>
    rw [extendAll, List.foldl_cons, ← extendAll, inductionHypothesis, count_extend,
      List.flatMap_cons, List.length_append, Nat.add_assoc]

end FileDiagnostics

end WorkspaceSync
