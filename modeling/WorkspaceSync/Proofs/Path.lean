/-
This file says what joining paths and taking their parents do to components.

A path is cut at its separators, and the pieces stand for its components, apart
from the head of the text, which tells a leading separator and a leading `.`
from others. Both operations work on texts; the statements here are about
components only, and everything that compares paths follows from them:
`components_join` appends a name, `components_parent?` drops the last component.
-/
import Mathlib.Data.List.Basic
import WorkspaceSync.Proofs.PathMap

namespace WorkspaceSync

/-! ### Cutting and joining texts -/

namespace Text

/-- The pieces of a text do not have the separator in them. -/
theorem not_mem_of_mem_splitOn {separator : Char} {characters piece : List Char}
    (member : piece ∈ characters.splitOn separator) : separator ∉ piece := by
  induction characters generalizing piece with
  | nil =>
    rw [List.splitOn_nil, List.mem_singleton] at member
    rw [member]
    exact List.not_mem_nil
  | cons character rest inductionHypothesis =>
    rw [List.splitOn_cons_eq_if_modifyHead] at member
    split at member
    · rcases List.mem_cons.mp member with rfl | later
      · exact List.not_mem_nil
      · exact inductionHypothesis later
    · next different =>
      rw [beq_iff_eq] at different
      cases pieces : rest.splitOn separator with
      | nil => exact absurd pieces (List.splitOn_ne_nil separator rest)
      | cons first others =>
        rw [pieces] at member inductionHypothesis
        rcases List.mem_cons.mp member with rfl | later
        · rw [List.mem_cons, not_or]
          exact ⟨Ne.symm different, inductionHypothesis List.mem_cons_self⟩
        · exact inductionHypothesis (List.mem_cons_of_mem _ later)

/-- The pieces of two rows are joined with one more separator between the rows. -/
theorem intercalate_append (separator : Char) {left right : List (List Char)}
    (leftNonempty : left ≠ []) (rightNonempty : right ≠ []) :
    [separator].intercalate (left ++ right) =
      [separator].intercalate left ++ separator :: [separator].intercalate right := by
  induction left with
  | nil => exact absurd rfl leftNonempty
  | cons piece later inductionHypothesis =>
    cases later with
    | nil =>
      rw [List.singleton_append, List.intercalate_cons_of_ne_nil rightNonempty,
        List.intercalate_singleton, List.append_assoc, List.singleton_append]
    | cons next others =>
      have joined := inductionHypothesis (List.cons_ne_nil next others)
      rw [List.cons_append, List.cons_append, List.intercalate_cons_cons, ← List.cons_append,
        joined, List.intercalate_cons_cons, List.append_assoc, List.append_assoc,
        List.append_assoc]

end Text

namespace Path

/-! ### Names -/

/-- What a name of an entry of a directory looks like. -/
def IsName (name : List Char) : Prop :=
  name ≠ [] ∧ name ≠ ['.'] ∧ name ≠ ['.', '.'] ∧ '/' ∉ name

instance (name : List Char) : Decidable (IsName name) :=
  inferInstanceAs (Decidable (_ ∧ _ ∧ _ ∧ _))

theorem ofPiece?_of_isName {name : List Char} (isName : IsName name) :
    Component.ofPiece? name = some (.entry name) := by
  obtain ⟨notEmpty, notCurrent, notParent, _⟩ := isName
  simp [Component.ofPiece?, notEmpty, notCurrent, notParent]

theorem isName_of_ofPiece? {piece name : List Char} (noSeparator : '/' ∉ piece)
    (stands : Component.ofPiece? piece = some (.entry name)) : IsName name := by
  unfold Component.ofPiece? at stands
  grind [IsName]

theorem ofPiece?_ne_current (piece : List Char) : Component.ofPiece? piece ≠ some .current := by
  unfold Component.ofPiece?
  grind

/-! ### Components of a text -/

/-- The component that the head of a text stands for: a leading separator or a first piece `.`. -/
def headOf (text : List Char) : List Component :=
  if text.head? = some '/' then [.root]
  else if (List.splitOn '/' text).head? = some ['.'] then [.current]
  else []

/-- The components that the pieces of a text stand for. -/
def bodyOf (text : List Char) : List Component :=
  (List.splitOn '/' text).filterMap Component.ofPiece?

theorem bodyOf_append (left right : List Char) :
    bodyOf (left ++ '/' :: right) = bodyOf left ++ bodyOf right := by
  rw [bodyOf, List.splitOn_append_cons_self, List.filterMap_append]
  rfl

theorem bodyOf_intercalate {pieces : List (List Char)} (clean : ∀ piece ∈ pieces, '/' ∉ piece) :
    bodyOf (List.intercalate ['/'] pieces) = pieces.filterMap Component.ofPiece? := by
  cases pieces with
  | nil => rfl
  | cons piece later => rw [bodyOf, List.splitOn_intercalate '/' clean (by simp)]

theorem headOf_append {left : List Char} (nonempty : left ≠ []) (right : List Char) :
    headOf (left ++ '/' :: right) = headOf left := by
  have sameStart : (left ++ '/' :: right).head? = left.head? := by
    rw [List.head?_append_of_ne_nil _ nonempty]
  have samePiece : (List.splitOn '/' left ++ List.splitOn '/' right).head? =
      (List.splitOn '/' left).head? :=
    List.head?_append_of_ne_nil _ (List.splitOn_ne_nil '/' left)
  rw [headOf, headOf, List.splitOn_append_cons_self, sameStart, samePiece]

/-- The text before the first separator is the first piece. -/
theorem head_of_splitOn {text piece : List Char}
    (first : (List.splitOn '/' text).head? = some piece) :
    text = piece ∨ ∃ rest, text = piece ++ '/' :: rest := by
  have joined : ['/'].intercalate (text.splitOn '/') = text := List.intercalate_splitOn '/'
  cases pieces : List.splitOn '/' text with
  | nil => exact absurd pieces (List.splitOn_ne_nil '/' text)
  | cons head later =>
    rw [pieces, List.head?_cons, Option.some_inj] at first
    rw [pieces, first] at joined
    cases later with
    | nil =>
      rw [List.intercalate_singleton] at joined
      exact .inl joined.symm
    | cons next others =>
      rw [List.intercalate_cons_cons, List.append_assoc, List.singleton_append] at joined
      exact .inr ⟨_, joined.symm⟩

theorem headOf_text (path : Path) : headOf path.text.toList = path.dissect.1.toList := by
  unfold dissect
  split
  · next body shape =>
    rw [shape]
    rfl
  · next shape =>
    rw [shape]
    rfl
  · next body shape =>
    have regrouped : '.' :: '/' :: body = ['.'] ++ '/' :: body := rfl
    rw [shape, regrouped, headOf_append (by simp)]
    rfl
  · next notRoot notCurrent notBelowCurrent =>
    have noRoot : path.text.toList.head? ≠ some '/' := by
      intro start
      obtain ⟨rest, shape⟩ := List.head?_eq_some_iff.mp start
      exact notRoot rest shape
    have noCurrent : (List.splitOn '/' path.text.toList).head? ≠ some ['.'] := by
      intro first
      rcases head_of_splitOn first with shape | ⟨rest, shape⟩
      · exact notCurrent shape
      · exact notBelowCurrent rest shape
    rw [headOf, if_neg noRoot, if_neg noCurrent]
    rfl

theorem bodyOf_text (path : Path) :
    bodyOf path.text.toList = path.dissect.2.filterMap Component.ofPiece? := by
  unfold dissect
  split
  · next body shape =>
    rw [shape, ← List.nil_append ('/' :: body), bodyOf_append]
    rfl
  · next shape =>
    rw [shape]
    rfl
  · next body shape =>
    have regrouped : '.' :: '/' :: body = ['.'] ++ '/' :: body := rfl
    rw [shape, regrouped, bodyOf_append]
    rfl
  · rfl

/-- The components of a path are those of the head and of the pieces of its text. -/
theorem components_eq (path : Path) :
    path.components = headOf path.text.toList ++ bodyOf path.text.toList := by
  rw [headOf_text, bodyOf_text]
  rfl

/-! ### Joining -/

/-- What follows a separator has no influence on the head. -/
theorem headOf_append_separator (left right : List Char) :
    headOf (left ++ '/' :: right) = headOf (left ++ ['/']) := by
  by_cases nonempty : left = []
  · rw [nonempty]
    rfl
  · rw [headOf_append nonempty, headOf_append nonempty]

theorem components_of_separator (left right : List Char) :
    components ⟨String.ofList (left ++ '/' :: right)⟩ =
      components ⟨String.ofList (left ++ ['/'])⟩ ++ bodyOf right := by
  have noBody : bodyOf [] = [] := rfl
  rw [components_eq, components_eq, String.toList_ofList, String.toList_ofList,
    headOf_append_separator, bodyOf_append, bodyOf_append, noBody, List.append_nil,
    List.append_assoc]

/-- A relative step appends what its pieces stand for. -/
theorem components_join_of_relative {base step : Path} (relative : step.isAbsolute = false)
    (nonempty : base.text.toList ≠ []) :
    (base.join step).components = base.components ++ bodyOf step.text.toList := by
  unfold join
  rw [relative]
  simp only [Bool.false_eq_true, if_false]
  split
  · next noLast => exact absurd (List.getLast?_eq_none_iff.mp noLast) nonempty
  · next last =>
    obtain ⟨left, shape⟩ := List.getLast?_eq_some_iff.mp last
    have joined : base.text ++ step.text = String.ofList (left ++ '/' :: step.text.toList) := by
      rw [← String.toList_inj, String.toList_append, shape, String.toList_ofList]
      simp
    have baseText : base = ⟨String.ofList (left ++ ['/'])⟩ := by
      rw [← shape, String.ofList_toList]
    rw [joined, components_of_separator, ← baseText]
  · have joined : base.text ++ "/" ++ step.text =
        String.ofList (base.text.toList ++ '/' :: step.text.toList) := by
      rw [← String.toList_inj, String.toList_append, String.toList_append, String.toList_ofList]
      simp
    rw [joined, components_eq, components_eq, String.toList_ofList, headOf_append nonempty,
      bodyOf_append, List.append_assoc]

theorem bodyOf_of_isName {name : List Char} (isName : IsName name) :
    bodyOf name = [.entry name] := by
  rw [bodyOf, List.splitOn_eq_singleton isName.2.2.2, List.filterMap_cons,
    ofPiece?_of_isName isName]
  rfl

theorem head?_of_isName {name : List Char} (isName : IsName name) : name.head? ≠ some '/' :=
  fun start => isName.2.2.2 (List.mem_of_mem_head? start)

theorem headOf_of_isName {name : List Char} (isName : IsName name) : headOf name = [] := by
  rw [headOf, if_neg (head?_of_isName isName), List.splitOn_eq_singleton isName.2.2.2,
    List.head?_cons, if_neg (fun equal => isName.2.1 (Option.some_inj.mp equal))]

/-- Joining a name appends it. -/
theorem components_join (base : Path) {name : String} (isName : IsName name.toList) :
    (base.join ⟨name⟩).components = base.components ++ [.entry name.toList] := by
  have relative : (Path.mk name).isAbsolute = false := by
    simpa [isAbsolute] using head?_of_isName isName
  by_cases nonempty : base.text.toList = []
  · have joined : base.join ⟨name⟩ = ⟨name⟩ := by
      simp [join, relative, nonempty]
    have noComponents : base.components = [] := by
      rw [components_eq, nonempty]
      rfl
    rw [joined, noComponents, components_eq, headOf_of_isName isName, bodyOf_of_isName isName]
  · rw [components_join_of_relative relative nonempty, bodyOf_of_isName isName]

/-! ### Parents -/

/-- Dropping the pieces at the end that stand for nothing. -/
theorem filterMap_dropTrivial (pieces : List (List Char)) :
    (dropTrivial pieces).filterMap Component.ofPiece? = pieces.filterMap Component.ofPiece? := by
  have dropped (reversed : List (List Char)) :
      (reversed.dropWhile fun piece => (Component.ofPiece? piece).isNone).filterMap
          Component.ofPiece? =
        reversed.filterMap Component.ofPiece? := by
    induction reversed with
    | nil => rfl
    | cons piece later inductionHypothesis =>
      cases stands : Component.ofPiece? piece with
      | none => simp [stands, inductionHypothesis]
      | some component => simp [stands]
  rw [dropTrivial, List.filterMap_reverse, dropped, List.filterMap_reverse, List.reverse_reverse]

theorem dropTrivial_isPrefix (pieces : List (List Char)) : dropTrivial pieces <+: pieces := by
  rw [← List.reverse_suffix, dropTrivial, List.reverse_reverse]
  exact List.dropWhile_suffix _

/-- The last of the pieces that are left stands for a component. -/
theorem isSome_of_dropTrivial {pieces before : List (List Char)} {last : List Char}
    (shape : dropTrivial pieces = before ++ [last]) : (Component.ofPiece? last).isSome := by
  have reversed : (pieces.reverse.dropWhile fun piece => (Component.ofPiece? piece).isNone) =
      last :: before.reverse := by
    rw [← List.reverse_inj, ← dropTrivial, shape]
    simp
  have kept := List.head?_dropWhile_not (fun piece => (Component.ofPiece? piece).isNone)
    pieces.reverse
  rw [reversed] at kept
  simpa [Option.isSome_iff_ne_none] using kept

theorem components_below_current {kept pieces : List (List Char)}
    (clean : ∀ piece ∈ pieces, '/' ∉ piece) (initial : kept <+: [] :: pieces) :
    headOf (headText (some .current) ++ List.intercalate ['/'] kept) ++
        bodyOf (headText (some .current) ++ List.intercalate ['/'] kept) =
      (some Component.current).toList ++ kept.filterMap Component.ofPiece? := by
  rcases List.prefix_cons_iff.mp initial with rfl | ⟨later, rfl, laterInitial⟩
  · rfl
  · cases later with
    | nil => rfl
    | cons next others =>
      have laterClean : ∀ piece ∈ next :: others, '/' ∉ piece := fun piece member =>
        clean piece (laterInitial.subset member)
      have regrouped : headText (some .current) ++ List.intercalate ['/'] ([] :: next :: others) =
          ['.'] ++ '/' :: List.intercalate ['/'] (next :: others) := rfl
      rw [regrouped, headOf_append (by simp), bodyOf_append, bodyOf_intercalate laterClean]
      rfl

/-- Some of the first pieces of a path, under its head, stand for the components that one expects.
What is left of the text is cut at the same places as before. -/
theorem components_of_dissect {path : Path} {head : Option Component}
    {pieces kept : List (List Char)} (shape : path.dissect = (head, pieces))
    (initial : kept <+: pieces) :
    components ⟨String.ofList (headText head ++ List.intercalate ['/'] kept)⟩ =
      head.toList ++ kept.filterMap Component.ofPiece? := by
  rw [components_eq, String.toList_ofList]
  have headShape := headOf_text path
  rw [shape] at headShape
  unfold dissect at shape
  split at shape
  · next body text =>
    obtain ⟨rfl, rfl⟩ := Prod.mk.inj shape
    have clean : ∀ piece ∈ kept, '/' ∉ piece := fun piece member =>
      Text.not_mem_of_mem_splitOn (initial.subset member)
    have regrouped : headText (some .root) ++ List.intercalate ['/'] kept =
        [] ++ '/' :: List.intercalate ['/'] kept := rfl
    rw [regrouped, bodyOf_append, bodyOf_intercalate clean]
    rfl
  · next text =>
    obtain ⟨rfl, rfl⟩ := Prod.mk.inj shape
    exact components_below_current (fun piece member => absurd member List.not_mem_nil) initial
  · next body text =>
    obtain ⟨rfl, rfl⟩ := Prod.mk.inj shape
    exact components_below_current
      (fun piece member => Text.not_mem_of_mem_splitOn member) initial
  · next text =>
    obtain ⟨rfl, rfl⟩ := Prod.mk.inj shape
    have clean : ∀ piece ∈ kept, '/' ∉ piece := fun piece member =>
      Text.not_mem_of_mem_splitOn (initial.subset member)
    have noHead : headOf (List.intercalate ['/'] kept) = [] := by
      by_cases empty : List.intercalate ['/'] kept = []
      · rw [empty]
        rfl
      · -- The text goes on after the kept pieces, if at all, with a separator.
        obtain ⟨rest, split⟩ := initial
        have joined : ['/'].intercalate (path.text.toList.splitOn '/') = path.text.toList :=
          List.intercalate_splitOn '/'
        rw [← split] at joined
        by_cases all : rest = []
        · rw [all, List.append_nil] at joined
          rw [joined, headShape]
          rfl
        · have some : kept ≠ [] := fun none => empty (by rw [none]; rfl)
          rw [Text.intercalate_append '/' some all] at joined
          rw [← headOf_append empty, joined, headShape]
          rfl
    have noText : headText none ++ List.intercalate ['/'] kept = List.intercalate ['/'] kept := rfl
    rw [noText, noHead, bodyOf_intercalate clean]
    rfl

/-- The parent of a path has all its components but the last. -/
theorem components_parent? {path directory : Path} (parent : path.parent? = some directory) :
    directory.components = path.components.dropLast := by
  unfold parent? at parent
  have ofPath : path.components =
    path.dissect.1.toList ++ path.dissect.2.filterMap Component.ofPiece? := rfl
  cases shape : path.dissect with
  | mk head pieces =>
    rw [shape] at parent ofPath
    simp only at parent ofPath
    split at parent
    · next last before reversed =>
      obtain rfl := Option.some_inj.mp parent
      have cut : dropTrivial pieces = before.reverse ++ [last] := by
        rw [← List.reverse_inj, reversed]
        simp
      have initial : dropTrivial before.reverse <+: pieces :=
        (dropTrivial_isPrefix _).trans
          ((cut ▸ List.prefix_append before.reverse [last]).trans (dropTrivial_isPrefix pieces))
      obtain ⟨component, stands⟩ := Option.isSome_iff_exists.mp (isSome_of_dropTrivial cut)
      rw [components_of_dissect shape initial, filterMap_dropTrivial, ofPath,
        ← filterMap_dropTrivial pieces, cut, List.filterMap_append, List.filterMap_cons_some stands,
        List.filterMap_nil, ← List.append_assoc, List.dropLast_concat]
    · next none =>
      have trivial : pieces.filterMap Component.ofPiece? = [] := by
        rw [← filterMap_dropTrivial, List.reverse_eq_nil_iff.mp none]
        rfl
      rw [ofPath, trivial]
      split at parent
      · obtain rfl := Option.some_inj.mp parent
        rfl
      · exact absurd parent (by simp)

theorem fileName?_eq_some_iff (path : Path) (name : List Char) :
    path.fileName? = some name ↔ ∃ before, path.components = before ++ [.entry name] := by
  rw [← List.getLast?_eq_some_iff]
  unfold fileName?
  split
  · next other last => simp [last]
  · next notName =>
    exact ⟨fun impossible => absurd impossible (by simp), fun last => absurd last (notName name)⟩

theorem entry_not_mem_headOf (text name : List Char) : Component.entry name ∉ headOf text := by
  unfold headOf
  grind

/-- A path that ends in a name has a parent. -/
theorem exists_parent? {path : Path} {name : List Char} (named : path.fileName? = some name) :
    ∃ directory, path.parent? = some directory := by
  obtain ⟨before, shape⟩ := (fileName?_eq_some_iff path name).mp named
  unfold parent?
  split
  next head pieces dissected =>
  split
  · exact ⟨_, rfl⟩
  · next none =>
    have noBody : bodyOf path.text.toList = [] := by
      rw [bodyOf_text, dissected, ← filterMap_dropTrivial, List.reverse_eq_nil_iff.mp none]
      rfl
    rw [components_eq, noBody, List.append_nil] at shape
    exact absurd (shape ▸ List.mem_append_right before List.mem_cons_self)
      (entry_not_mem_headOf path.text.toList name)

/-! ### Names among the components -/

theorem isName_of_entry_mem {path : Path} {name : List Char}
    (member : Component.entry name ∈ path.components) : IsName name := by
  rw [components_eq, List.mem_append] at member
  rcases member with inHead | inBody
  · exact absurd inHead (entry_not_mem_headOf _ name)
  · obtain ⟨piece, pieceMember, stands⟩ := List.mem_filterMap.mp inBody
    exact isName_of_ofPiece? (Text.not_mem_of_mem_splitOn pieceMember) stands

theorem head?_of_isAbsolute {path : Path} (absolute : path.isAbsolute = true) :
    path.components.head? = some .root := by
  have start : path.text.toList.head? = some '/' := by simpa [isAbsolute] using absolute
  rw [components_eq, headOf, if_pos start]
  rfl

/-- Only the first component can be a `.`. -/
theorem head?_of_current_mem {path : Path} (member : Component.current ∈ path.components) :
    path.components.head? = some .current := by
  rw [components_eq, List.mem_append] at member
  rcases member with inHead | inBody
  · have alone : headOf path.text.toList = [.current] := by
      unfold headOf at inHead ⊢
      grind
    rw [components_eq, alone]
    rfl
  · obtain ⟨piece, _, stands⟩ := List.mem_filterMap.mp inBody
    exact absurd stands (ofPiece?_ne_current piece)

theorem code_injective : Function.Injective Component.code := by
  intro left right equal
  cases left <;> cases right <;> simp only [Component.code, List.cons.injEq] at equal
  case entry.entry first second =>
    have names := List.map_injective_iff.mpr (fun _ _ codes => Char.toNat_inj.mp codes) equal.2
    rw [names]
  all_goals first | rfl | omega

/-- Two paths are the same if and only if their components are. -/
theorem same_iff (left right : Path) : left.Same right ↔ left.components = right.components :=
  (List.map_injective_iff.mpr code_injective).eq_iff

end Path

end WorkspaceSync
