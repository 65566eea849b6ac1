/-
This file says what following a path does in a tree without links.

There a walk is a fold of single steps (`walk_eq_foldlM`), each of which looks
at one directory. Empty steps and `.` only ask for a directory, which the step
after them asks for as well, so that a path that ends in a name is followed
along its components (`locate_eq`): all its spellings lead to one entry, unless
their length makes the difference.
-/
import WorkspaceSync.Proofs.Loading

namespace WorkspaceSync

open WorkspaceSync.Path (IsName Component)

/-! ### Trees without links -/

namespace Node

mutual

/-- Nothing in the tree is a link. -/
def isLinkFree : Node → Bool
  | .file _ => true
  | .directory entries => areLinkFree entries
  | .link _ => false

/-- Every entry is the root of a tree without links. -/
def areLinkFree : List (String × Node) → Bool
  | [] => true
  | (_, node) :: rest => node.isLinkFree && areLinkFree rest

end

theorem areLinkFree_iff (entries : List (String × Node)) :
    areLinkFree entries = true ↔ ∀ entry ∈ entries, entry.2.isLinkFree = true := by
  induction entries with
  | nil => simp [areLinkFree]
  | cons entry rest inductionHypothesis =>
    obtain ⟨name, node⟩ := entry
    simp only [areLinkFree, Bool.and_eq_true, inductionHypothesis, List.forall_mem_cons]

theorem isLinkFree_of_child? {node child : Node} {name : String}
    (linkFree : node.isLinkFree = true) (found : node.child? name = some child) :
    child.isLinkFree = true := by
  cases node with
  | file content => exact absurd found (by simp [child?])
  | link target => exact absurd found (by simp [child?])
  | directory entries => exact (areLinkFree_iff entries).mp linkFree _ (mem_of_child? found)

theorem isLinkFree_of_descend? {node inner : Node} {names : List String}
    (linkFree : node.isLinkFree = true) (reached : node.descend? names = some inner) :
    inner.isLinkFree = true := by
  induction names generalizing node with
  | nil =>
    obtain rfl := Option.some_inj.mp reached
    exact linkFree
  | cons name rest inductionHypothesis =>
    obtain ⟨child, found, later⟩ := Option.bind_eq_some_iff.mp reached
    exact inductionHypothesis (isLinkFree_of_child? linkFree found) later

end Node

/-! ### Walking step by step -/

namespace Disk

variable {root : Node}

/-- Whether a step leads anywhere: the empty step and `.` do not. -/
def isProper (step : String) : Bool :=
  step ≠ "" ∧ step ≠ "."

/-- One step of a walk that meets no links, from a directory given by its names in reverse. -/
def stepFrom (root : Node) (reached : List String) (step : String) :
    Except DiskError (List String) :=
  match root.descend? reached.reverse with
  | none => .error .notFound
  | some here =>
    if !here.isDirectory then .error .notADirectory
    else if !isProper step then .ok reached
    else if step = ".." then .ok reached.tail
    else if step.utf8ByteSize > 255 then .error .nameTooLong
    else if (here.child? step).isNone then .error .notFound
    else .ok (step :: reached)

/-- Without links a walk is a fold of steps. -/
theorem walk_eq_foldlM (linkFree : root.isLinkFree = true) (final : Bool) (links : Nat)
    (reached pending : List String) :
    walk root final links reached pending = pending.foldlM (stepFrom root) reached := by
  induction pending generalizing reached with
  | nil =>
    rw [walk]
    rfl
  | cons step rest inductionHypothesis =>
    have improper : (step = "" ∨ step = ".") ↔ (!isProper step) = true := by
      simp [isProper, or_iff_not_imp_left]
    rw [walk, List.foldlM_cons, stepFrom]
    cases here : root.descend? reached.reverse with
    | none => rfl
    | some node =>
      simp only [inductionHypothesis, improper]
      cases found : node.child? step with
      | none =>
        simp only [Option.isNone_none, if_true]
        split_ifs <;> rfl
      | some child =>
        simp only [Option.isNone_some, Bool.false_eq_true, if_false]
        -- What is found in a tree without links is no link, so the walk never starts anew.
        have childLinkFree := Node.isLinkFree_of_child?
          (Node.isLinkFree_of_descend? linkFree here) found
        cases child with
        | link target => exact absurd childLinkFree (by simp [Node.isLinkFree])
        | file content => split_ifs <;> rfl
        | directory entries => split_ifs <;> rfl

/-- Without links the place that a path leads to can be computed. -/
theorem locate_eq_foldlM {disk : Disk} (linkFree : disk.root.isLinkFree = true) (final : Bool)
    (path : Path) :
    disk.locate final path =
      if path.text.toList.contains (Char.ofNat 0) then .error .nulInName
      else if path.text = "" then .error .notFound
      else if path.text.utf8ByteSize ≥ 4096 then .error .nameTooLong
      else
        ((steps path).foldlM (stepFrom disk.root)
          (if path.isAbsolute then [] else disk.working.reverse)).map List.reverse := by
  unfold locate
  rw [walk_eq_foldlM linkFree]

theorem foldlM_cons_eq_ok_iff (reached : List String) (step : String) (later place : List String) :
    (step :: later).foldlM (stepFrom root) reached = .ok place ↔
      ∃ middle, stepFrom root reached step = .ok middle ∧
        later.foldlM (stepFrom root) middle = .ok place := by
  rw [List.foldlM_cons]
  cases stepFrom root reached step with
  | error error => exact ⟨fun failed => (nomatch failed), fun ⟨_, failed, _⟩ => (nomatch failed)⟩
  | ok middle => exact ⟨fun walked => ⟨middle, rfl, walked⟩,
      fun ⟨_, same, walked⟩ => Except.ok.inj same ▸ walked⟩

theorem stepFrom_of_not_isProper {step : String} (improper : isProper step = false)
    {reached place : List String} (stepped : stepFrom root reached step = .ok place) :
    place = reached := by
  unfold stepFrom at stepped
  grind

/-- Asking for a directory before a step that asks for one changes nothing. -/
theorem stepFrom_bind_stepFrom {improper : String} (isImproper : isProper improper = false)
    (reached : List String) (step : String) :
    (stepFrom root reached improper >>= fun place => stepFrom root place step) =
      stepFrom root reached step := by
  cases here : root.descend? reached.reverse with
  | none => simp [stepFrom, here, bind, Except.bind]
  | some node =>
    cases leaf : node.isDirectory <;> simp [stepFrom, here, leaf, isImproper, bind, Except.bind]

/-- Steps that lead nowhere can be left out in front of one that does. -/
theorem foldlM_filter (before : List String) {last : String} (proper : isProper last = true)
    (reached : List String) :
    ((before ++ [last]).filter isProper).foldlM (stepFrom root) reached =
      (before ++ [last]).foldlM (stepFrom root) reached := by
  induction before generalizing reached with
  | nil => simp [proper]
  | cons step later inductionHypothesis =>
    rw [List.cons_append, List.filter_cons]
    cases stepProper : isProper step with
    | true =>
      rw [if_pos rfl, List.foldlM_cons, List.foldlM_cons]
      exact congrArg _ (funext inductionHypothesis)
    | false =>
      -- The step that is left out asks for a directory, and so does the next one: there is one.
      rw [if_neg Bool.false_ne_true, inductionHypothesis]
      cases shape : later ++ [last] with
      | nil => exact absurd shape (by simp)
      | cons next rest =>
        simp only [List.foldlM_cons]
        rw [← stepFrom_bind_stepFrom stepProper reached next, bind_assoc]

/-- A walk that succeeds does so without the steps that lead nowhere. -/
theorem foldlM_filter_of_ok {steps reached place : List String}
    (walked : steps.foldlM (stepFrom root) reached = .ok place) :
    (steps.filter isProper).foldlM (stepFrom root) reached = .ok place := by
  induction steps generalizing reached with
  | nil => exact walked
  | cons step later inductionHypothesis =>
    obtain ⟨middle, stepped, laterWalked⟩ := (foldlM_cons_eq_ok_iff _ _ _ _).mp walked
    rw [List.filter_cons]
    cases proper : isProper step with
    | true =>
      rw [if_pos rfl, foldlM_cons_eq_ok_iff]
      exact ⟨middle, stepped, inductionHypothesis laterWalked⟩
    | false =>
      rw [stepFrom_of_not_isProper proper stepped] at laterWalked
      exact inductionHypothesis laterWalked

theorem isProper_of_isName {name : String} (isName : IsName name.toList) :
    isProper name = true ∧ name ≠ ".." := by
  obtain ⟨notEmpty, notCurrent, notParent, _⟩ := isName
  refine ⟨?_, fun equal => notParent (by rw [equal]; rfl)⟩
  simp only [isProper, decide_eq_true_eq]
  exact ⟨fun equal => notEmpty (by rw [equal]; rfl), fun equal => notCurrent (by rw [equal]; rfl)⟩

/-- A walk along names that ends does so at these names. -/
theorem place_of_names {names reached place : List String}
    (isName : ∀ name ∈ names, IsName name.toList)
    (walked : names.foldlM (stepFrom root) reached = .ok place) :
    place = names.reverse ++ reached := by
  induction names generalizing reached with
  | nil => exact (Except.ok.inj walked).symm
  | cons name later inductionHypothesis =>
    obtain ⟨here, laterNames⟩ := List.forall_mem_cons.mp isName
    obtain ⟨middle, stepped, laterWalked⟩ := (foldlM_cons_eq_ok_iff _ _ _ _).mp walked
    obtain ⟨proper, notParent⟩ := isProper_of_isName here
    have next : middle = name :: reached := by
      unfold stepFrom at stepped
      grind
    rw [inductionHypothesis laterNames laterWalked, next]
    simp

/-- A walk along names that lead somewhere ends, unless one of them is too long. -/
theorem foldlM_of_descend? {names reached : List String} {here inner : Node}
    (isName : ∀ name ∈ names, IsName name.toList)
    (start : root.descend? reached.reverse = some here)
    (reaches : here.descend? names = some inner) :
    names.foldlM (stepFrom root) reached = .ok (names.reverse ++ reached) ∨
      names.foldlM (stepFrom root) reached = .error .nameTooLong := by
  induction names generalizing reached here with
  | nil => exact .inl rfl
  | cons name later inductionHypothesis =>
    obtain ⟨nameIsName, laterNames⟩ := List.forall_mem_cons.mp isName
    obtain ⟨proper, notParent⟩ := isProper_of_isName nameIsName
    obtain ⟨child, found, laterReaches⟩ := Option.bind_eq_some_iff.mp reaches
    have directory : here.isDirectory = true := by
      cases here <;> first | rfl | exact nomatch found
    have stepped : stepFrom root reached name =
        if name.utf8ByteSize > 255 then .error .nameTooLong else .ok (name :: reached) := by
      simp [stepFrom, start, directory, proper, notParent, found]
    rw [List.foldlM_cons, stepped]
    split_ifs
    · exact .inr rfl
    · have next : root.descend? (name :: reached).reverse = some child := by
        rw [List.reverse_cons, Node.descend?_append, start, Option.bind_some,
          Node.descend?_singleton, found]
      rcases inductionHypothesis laterNames next laterReaches with walked | failed
      · refine .inl (walked.trans ?_)
        simp
      · exact .inr failed

end Disk

/-! ### Paths that end in a name -/

/-- The characters of a text, but for the separators, are those of its pieces. -/
theorem Text.mem_iff_mem_splitOn {separator character : Char} (different : character ≠ separator)
    (characters : List Char) :
    character ∈ characters ↔ ∃ piece ∈ characters.splitOn separator, character ∈ piece := by
  have joined : [separator].intercalate (characters.splitOn separator) = characters :=
    List.intercalate_splitOn separator
  generalize characters.splitOn separator = pieces at joined
  rw [← joined]
  clear joined
  induction pieces with
  | nil => simp
  | cons piece later inductionHypothesis =>
    cases later with
    | nil => simp
    | cons next others =>
      rw [List.intercalate_cons_cons, List.append_assoc, List.singleton_append, List.mem_append,
        List.mem_cons, or_iff_right different]
      refine (or_congr_right inductionHypothesis).trans ?_
      simp

namespace Path

/-- A path in normal form: all pieces between its separators are names. -/
def IsNormal (path : Path) : Prop :=
  ∀ piece ∈ path.dissect.2, IsName piece

instance (path : Path) : Decidable path.IsNormal :=
  inferInstanceAs (Decidable (∀ piece ∈ path.dissect.2, IsName piece))

/-- The last step of the path is a name. -/
def EndsInName (path : Path) : Prop :=
  ∃ before last, Disk.steps path = before ++ [last] ∧ IsName last.toList

theorem text_of_isAbsolute {path : Path} (absolute : path.isAbsolute = true) :
    ∃ body, path.text.toList = '/' :: body ∧
      path.dissect = (some .root, List.splitOn '/' body) := by
  have start : path.text.toList.head? = some '/' := by simpa [isAbsolute] using absolute
  obtain ⟨body, shape⟩ := List.head?_eq_some_iff.mp start
  refine ⟨body, shape, ?_⟩
  rw [dissect, shape]
  rfl

theorem isAbsolute_iff (path : Path) :
    path.isAbsolute = true ↔ path.components.head? = some .root := by
  refine ⟨head?_of_isAbsolute, fun first => ?_⟩
  have notRoot (piece : List Char) : Component.ofPiece? piece ≠ some .root := by
    unfold Component.ofPiece?
    grind
  rw [components_eq, headOf] at first
  by_cases start : path.text.toList.head? = some '/'
  · simpa [isAbsolute] using start
  · rw [if_neg start] at first
    split at first
    · exact absurd first (by simp)
    · rw [List.nil_append] at first
      obtain ⟨piece, _, stands⟩ := List.mem_filterMap.mp (List.mem_of_mem_head? first)
      exact absurd stands (notRoot piece)

theorem isAbsolute_congr {left right : Path} (same : left.Same right) :
    left.isAbsolute = true ↔ right.isAbsolute = true := by
  rw [isAbsolute_iff, isAbsolute_iff, (same_iff left right).mp same]

theorem IsNormal.endsInName {path : Path} (normal : path.IsNormal)
    (absolute : path.isAbsolute = true) : path.EndsInName := by
  obtain ⟨body, shape, dissected⟩ := text_of_isAbsolute absolute
  rw [IsNormal, dissected] at normal
  rcases List.eq_nil_or_concat (List.splitOn '/' body) with none | ⟨before, last, cut⟩
  · exact absurd none (List.splitOn_ne_nil '/' body)
  · rw [List.concat_eq_append] at cut
    refine ⟨([] :: before).map String.ofList, String.ofList last, ?_, ?_⟩
    · rw [Disk.steps, shape, ← List.nil_append ('/' :: body), List.splitOn_append_cons_self, cut]
      simp
    · rw [String.toList_ofList]
      exact normal last (by simp [cut])

/-- Two spellings in normal form are one. -/
theorem IsNormal.eq_of_same {left right : Path} (leftNormal : left.IsNormal)
    (rightNormal : right.IsNormal) (absolute : left.isAbsolute = true) (same : left.Same right) :
    left = right := by
  have pieces {path : Path} (normal : path.IsNormal) :
      path.dissect.2.filterMap Component.ofPiece? = path.dissect.2.map .entry :=
    List.filterMap_eq_map_iff_forall_eq_some.mpr fun piece member =>
      ofPiece?_of_isName (normal piece member)
  obtain ⟨leftBody, leftShape, leftDissected⟩ := text_of_isAbsolute absolute
  obtain ⟨rightBody, rightShape, rightDissected⟩ :=
    text_of_isAbsolute ((isAbsolute_congr same).mp absolute)
  have equal := (same_iff left right).mp same
  rw [components, components, pieces leftNormal, pieces rightNormal, leftDissected,
    rightDissected, List.append_cancel_left_eq] at equal
  have samePieces : List.splitOn '/' leftBody = List.splitOn '/' rightBody :=
    List.map_injective_iff.mpr (fun _ _ names => Component.entry.inj names) equal
  have sameBody : leftBody = rightBody :=
    calc leftBody
        = ['/'].intercalate (leftBody.splitOn '/') := (List.intercalate_splitOn '/').symm
      _ = ['/'].intercalate (rightBody.splitOn '/') := by rw [samePieces]
      _ = rightBody := List.intercalate_splitOn '/'
  have sameText : left.text = right.text := by
    rw [← String.toList_inj, leftShape, rightShape, sameBody]
  cases left
  cases right
  exact congrArg Path.mk sameText

/-- Joining a name gives a path that ends in it. -/
theorem endsInName_join (base : Path) {name : String} (isName : IsName name.toList) :
    (base.join ⟨name⟩).EndsInName := by
  have ofText {path : Path} (left : List Char)
      (shape : path.text.toList = left ++ '/' :: name.toList) : path.EndsInName := by
    refine ⟨(List.splitOn '/' left).map String.ofList, name, ?_, isName⟩
    rw [Disk.steps, shape, List.splitOn_append_cons_self,
      List.splitOn_eq_singleton isName.2.2.2]
    simp
  have relative : (Path.mk name).isAbsolute = false := by
    simpa [isAbsolute] using head?_of_isName isName
  unfold join
  rw [if_neg (by simp [relative])]
  split
  · refine ⟨[], name, ?_, isName⟩
    rw [Disk.steps, List.splitOn_eq_singleton isName.2.2.2]
    simp
  · next last =>
    obtain ⟨left, shape⟩ := List.getLast?_eq_some_iff.mp last
    refine ofText left ?_
    rw [String.toList_append, shape]
    simp
  · refine ofText base.text.toList ?_
    rw [String.toList_append, String.toList_append]
    simp

/-- Whether a character stands in a path can be read off the components, unless it is used to
spell them. -/
theorem mem_text_iff (path : Path) {character : Char} (notSeparator : character ≠ '/')
    (notDot : character ≠ '.') :
    character ∈ path.text.toList ↔
      ∃ name, Component.entry name ∈ path.components ∧ character ∈ name := by
  rw [Text.mem_iff_mem_splitOn notSeparator]
  constructor
  · rintro ⟨piece, member, inPiece⟩
    have stands : Component.ofPiece? piece = some (.entry piece) := by
      unfold Component.ofPiece?
      grind
    refine ⟨piece, ?_, inPiece⟩
    rw [components_eq]
    exact List.mem_append_right _ (List.mem_filterMap.mpr ⟨piece, member, stands⟩)
  · rintro ⟨name, member, inName⟩
    rw [components_eq, List.mem_append] at member
    rcases member with inHead | inBody
    · exact absurd inHead (entry_not_mem_headOf _ name)
    · obtain ⟨piece, pieceMember, stands⟩ := List.mem_filterMap.mp inBody
      have equal : piece = name := by
        unfold Component.ofPiece? at stands
        grind
      exact ⟨piece, pieceMember, equal ▸ inName⟩

end Path

/-! ### Following the components of a path -/

namespace Disk

variable {disk : Disk} {path : Path}

/-- The step that a component stands for; the root and a leading `.` need none. -/
def stepOf? : Component → Option String
  | .root | .current => none
  | .parent => some ".."
  | .entry name => some (String.ofList name)

theorem stepOf?_ofPiece? (piece : List Char) :
    (Component.ofPiece? piece).bind stepOf? =
      if isProper (String.ofList piece) then some (String.ofList piece) else none := by
  have empty : String.ofList piece = "" ↔ piece = [] := by
    rw [← String.toList_inj, String.toList_ofList]
    rfl
  have current : String.ofList piece = "." ↔ piece = ['.'] := by
    rw [← String.toList_inj, String.toList_ofList]
    rfl
  unfold Component.ofPiece?
  simp only [isProper, ne_eq, empty, current, decide_eq_true_eq]
  split_ifs <;> first | rfl | simp_all [stepOf?]

/-- The steps of an absolute path that lead anywhere are those of its components. -/
theorem filter_steps (absolute : path.isAbsolute = true) :
    (steps path).filter isProper = path.components.filterMap stepOf? := by
  have ofPieces (pieces : List (List Char)) :
      (pieces.map String.ofList).filter isProper =
        (pieces.filterMap Component.ofPiece?).filterMap stepOf? := by
    rw [List.filterMap_filterMap]
    induction pieces with
    | nil => rfl
    | cons piece later inductionHypothesis =>
      rw [List.map_cons, List.filter_cons, List.filterMap_cons, stepOf?_ofPiece?,
        inductionHypothesis]
      split_ifs <;> rfl
  have start : path.text.toList.head? = some '/' := by simpa [Path.isAbsolute] using absolute
  rw [steps, ofPieces, Path.components_eq, Path.headOf, if_pos start, List.filterMap_append]
  rfl

/-- Without links an absolute path that ends in a name is followed along its components. -/
theorem locate_eq (linkFree : disk.root.isLinkFree = true) (absolute : path.isAbsolute = true)
    (ends : path.EndsInName) :
    disk.locate true path =
      if path.text.toList.contains (Char.ofNat 0) then .error .nulInName
      else if path.text.utf8ByteSize ≥ 4096 then .error .nameTooLong
      else ((path.components.filterMap stepOf?).foldlM (stepFrom disk.root) []).map
        List.reverse := by
  obtain ⟨before, last, shape, isName⟩ := ends
  have walked : (steps path).foldlM (stepFrom disk.root) [] =
      (path.components.filterMap stepOf?).foldlM (stepFrom disk.root) [] := by
    rw [← filter_steps absolute, shape, foldlM_filter before (isProper_of_isName isName).1]
  have nonempty : path.text ≠ "" := by
    intro empty
    rw [Path.isAbsolute, empty] at absolute
    exact absurd absolute (by decide)
  rw [locate_eq_foldlM linkFree, if_neg nonempty, if_pos absolute, walked]

/-- All spellings of an absolute path that end in a name lead to one entry, unless the limit on the
length of paths tells them apart. -/
theorem entry_congr (linkFree : disk.root.isLinkFree = true) {left right : Path}
    (same : left.Same right) (absolute : left.isAbsolute = true) (leftEnds : left.EndsInName)
    (rightEnds : right.EndsInName)
    (length : left.text.utf8ByteSize < 4096 ↔ right.text.utf8ByteSize < 4096) :
    disk.entry left = disk.entry right := by
  have components := (Path.same_iff left right).mp same
  have nul : left.text.toList.contains (Char.ofNat 0) =
      right.text.toList.contains (Char.ofNat 0) := by
    rw [Bool.eq_iff_iff, List.contains_iff_mem, List.contains_iff_mem,
      left.mem_text_iff (by decide) (by decide), right.mem_text_iff (by decide) (by decide),
      components]
  have long : left.text.utf8ByteSize ≥ 4096 ↔ right.text.utf8ByteSize ≥ 4096 := by omega
  rw [entry, entry, locate_eq linkFree absolute leftEnds,
    locate_eq linkFree ((Path.isAbsolute_congr same).mp absolute) rightEnds, components, nul]
  simp only [long]

theorem entry_eq_ok_iff (disk : Disk) (path : Path) (node : Node) :
    disk.entry path = .ok node ↔
      ∃ place, disk.locate true path = .ok place ∧ disk.root.descend? place = some node := by
  unfold entry
  cases disk.locate true path with
  | error error => simp
  | ok place => cases reached : disk.root.descend? place <;> simp [reached]

/-- Where the components of an absolute path that leads to an entry lead. -/
theorem exists_place_of_entry (linkFree : disk.root.isLinkFree = true)
    (absolute : path.isAbsolute = true) {node : Node} (found : disk.entry path = .ok node) :
    ∃ place, (path.components.filterMap stepOf?).foldlM (stepFrom disk.root) [] = .ok place ∧
      disk.root.descend? place.reverse = some node := by
  obtain ⟨place, located, reached⟩ := (entry_eq_ok_iff disk path node).mp found
  rw [locate_eq_foldlM linkFree] at located
  split_ifs at located
  cases walked : (steps path).foldlM (stepFrom disk.root) [] with
  | error error =>
    rw [walked] at located
    exact nomatch located
  | ok reversed =>
    rw [walked] at located
    obtain rfl := Except.ok.inj located
    refine ⟨reversed, ?_, reached⟩
    rw [← filter_steps absolute]
    exact foldlM_filter_of_ok walked

variable {base : Path} {names : List String} {here : Node}

/-- The components of a path that goes on from a base along names. -/
theorem filterMap_stepOf?_of_below
    (below : path.components = base.components ++ (names.map String.toList).map .entry) :
    path.components.filterMap stepOf? = base.components.filterMap stepOf? ++ names := by
  rw [below, List.filterMap_append, List.map_map, List.filterMap_map]
  simp [Function.comp_def, stepOf?]

/-- What a path leads to is reached along the names by which it goes on from a base. -/
theorem descend?_of_entry (linkFree : disk.root.isLinkFree = true)
    (baseAbsolute : base.isAbsolute = true) (absolute : path.isAbsolute = true)
    (isName : ∀ name ∈ names, IsName name.toList)
    (below : path.components = base.components ++ (names.map String.toList).map .entry)
    (start : disk.entry base = .ok here) {inner : Node} (found : disk.entry path = .ok inner) :
    here.descend? names = some inner := by
  obtain ⟨place, baseWalked, baseReached⟩ := exists_place_of_entry linkFree baseAbsolute start
  obtain ⟨last, walked, reached⟩ := exists_place_of_entry linkFree absolute found
  rw [filterMap_stepOf?_of_below below, List.foldlM_append, baseWalked] at walked
  -- The walk goes to the base first and on along the names from there.
  rw [place_of_names isName walked, List.reverse_append, List.reverse_reverse,
    Node.descend?_append, baseReached] at reached
  exact reached

/-- A path that goes on from a base along names to an entry leads there, unless its text is refused
as it is. -/
theorem entry_of_descend? (linkFree : disk.root.isLinkFree = true)
    (baseAbsolute : base.isAbsolute = true) (absolute : path.isAbsolute = true)
    (ends : path.EndsInName) (isName : ∀ name ∈ names, IsName name.toList)
    (below : path.components = base.components ++ (names.map String.toList).map .entry)
    (start : disk.entry base = .ok here) {inner : Node}
    (reaches : here.descend? names = some inner) :
    disk.entry path = .ok inner ∨ disk.entry path = .error .nulInName ∨
      disk.entry path = .error .nameTooLong := by
  obtain ⟨place, baseWalked, baseReached⟩ := exists_place_of_entry linkFree baseAbsolute start
  unfold entry
  rw [locate_eq linkFree absolute ends, filterMap_stepOf?_of_below below, List.foldlM_append,
    baseWalked]
  split_ifs
  · exact .inr (.inl rfl)
  · exact .inr (.inr rfl)
  · have walk := foldlM_of_descend? isName baseReached reaches
    rcases walk with walked | failed
    · have reached : disk.root.descend? (names.reverse ++ place).reverse = some inner := by
        rw [List.reverse_append, List.reverse_reverse, Node.descend?_append, baseReached]
        exact reaches
      left
      simp only [Except.map, bind, Except.bind, walked, reached]
    · right; right
      simp only [Except.map, bind, Except.bind, failed]

/-! ### Reading -/

theorem read_eq_absent_iff (disk : Disk) (path : Path) :
    disk.read path = .absent ↔ disk.entry path = .error .notFound := by
  unfold read readText
  cases disk.entry path with
  | error error => cases error <;> simp [Reading.ofError]
  | ok node =>
    cases node with
    | file content => cases decoded : String.fromUTF8? content <;> simp [decoded, Reading.ofError]
    | directory entries => simp [Reading.ofError]
    | link target => simp [Reading.ofError]

theorem read_of_file {content : ByteArray} {text : String}
    (found : disk.entry path = .ok (.file content))
    (decoded : String.fromUTF8? content = some text) : disk.read path = .text text := by
  simp only [read, readText, found, decoded]

theorem read_of_error {error : DiskError} (failed : disk.entry path = .error error) :
    disk.read path = .ofError error := by
  simp only [read, readText, failed]

theorem read_congr {left right : Path} (same : disk.entry left = disk.entry right) :
    disk.read left = disk.read right := by
  unfold read readText
  rw [same]

end Disk

/-! ### A workspace with two files -/

namespace Layout

/-- Two files of one directory that declare different names. -/
def twoFiles : List (String × Node) :=
  [("a.gunk", .file "package ws".toUTF8), ("b.gunk", .file "package other".toUTF8)]

/-- What is loaded for the two files. -/
def twoSources : PathMap SourceFile :=
  (PathMap.empty.insert ⟨"/.ws/a.gunk"⟩ (.ofDisk "package ws")).insert ⟨"/.ws/b.gunk"⟩
    (.ofDisk "package other")

theorem entry_twoFiles :
    (Disk.hidden twoFiles).entry ⟨"/.ws/a.gunk"⟩ = .ok (.file "package ws".toUTF8) ∧
      (Disk.hidden twoFiles).entry ⟨"/.ws/b.gunk"⟩ = .ok (.file "package other".toUTF8) := by
  have linkFree : (Disk.hidden twoFiles).root.isLinkFree = true := by decide
  constructor
  · rw [Disk.entry, Disk.locate_eq_foldlM linkFree]
    rfl
  · rw [Disk.entry, Disk.locate_eq_foldlM linkFree]
    rfl

theorem read_twoFiles :
    (Disk.hidden twoFiles).read ⟨"/.ws/a.gunk"⟩ = .text "package ws" ∧
      (Disk.hidden twoFiles).read ⟨"/.ws/b.gunk"⟩ = .text "package other" :=
  ⟨Disk.read_of_file entry_twoFiles.1 (by decide +kernel),
    Disk.read_of_file entry_twoFiles.2 (by decide +kernel)⟩

theorem filesIn_twoFiles :
    (ofRoot ⟨"/.ws"⟩).filesIn (Disk.hidden twoFiles).read ⟨"/.ws"⟩ twoFiles = twoSources := by
  have firstPath : Path.join ⟨"/.ws"⟩ ⟨"a.gunk"⟩ = ⟨"/.ws/a.gunk"⟩ := by decide
  have secondPath : Path.join ⟨"/.ws"⟩ ⟨"b.gunk"⟩ = ⟨"/.ws/b.gunk"⟩ := by decide
  have firstSource : (ofRoot ⟨"/.ws"⟩).isSource ⟨"/.ws/a.gunk"⟩ = true := by decide
  have secondSource : (ofRoot ⟨"/.ws"⟩).isSource ⟨"/.ws/b.gunk"⟩ = true := by decide
  simp only [filesIn, twoFiles, List.foldl_cons, List.foldl_nil, firstPath, secondPath,
    Node.isDirectory, firstSource, secondSource]
  rw [← twoFiles, read_twoFiles.1, read_twoFiles.2]
  rfl

theorem load_twoFiles :
    (ofRoot ⟨"/.ws"⟩).load (.hidden twoFiles) =
      .ok ⟨[{ Package.new ⟨"."⟩ ⟨"/.ws"⟩ with files := twoSources }.analyzed]⟩ := by
  have entry : (Disk.hidden twoFiles).entry (ofRoot ⟨"/.ws"⟩).root = .ok (.directory twoFiles) :=
    Disk.entry_hidden twoFiles
  have files : (ofRoot ⟨"/.ws"⟩).filesIn (Disk.hidden twoFiles).read (ofRoot ⟨"/.ws"⟩).root
      twoFiles = twoSources := filesIn_twoFiles
  have nonempty : twoSources.isEmpty = false := by decide
  have id : (ofRoot ⟨"/.ws"⟩).packageId (ofRoot ⟨"/.ws"⟩).root = .ok ⟨"."⟩ := by decide
  have below : packagesBelow (ofRoot ⟨"/.ws"⟩) (Disk.hidden twoFiles).read
      (ofRoot ⟨"/.ws"⟩).root twoFiles = .ok [] := rfl
  unfold load
  rw [entry]
  simp only [packagesUnder, packageIn, files, nonempty, id, below, bind, Except.bind,
    Bool.false_eq_true, if_false, List.append_nil]
  rw [PackageSet.ofList, List.mergeSort_singleton]
  rfl

end Layout

end WorkspaceSync
