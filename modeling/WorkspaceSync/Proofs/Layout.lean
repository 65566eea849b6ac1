/-
This file says which paths have a place in a workspace and what their package is.

Whether a path has a place, and in which package, depends on its components
only: `home?_congr`. For a path that lies below the root by a row of names, the
answer can be read off the names: `home?_below`. The check that cuts the id of a
directory at its separators judges the same names as a walk that comes down to
the directory, because the id of a row of names determines the row:
`idOfNames_injective` and `leavesOut_idOfNames`.
-/
import WorkspaceSync.Layout
import WorkspaceSync.Proofs.Path

namespace WorkspaceSync

open WorkspaceSync.Path (IsName Component)

namespace Layout

/-! ### The names of a directory -/

/-- A row of components is read as names if and only if it consists of them. -/
theorem mapM_names_eq_some_iff (components : List Component) (names : List (List Char)) :
    (components.mapM fun component =>
        match component with
        | .entry name => some name
        | _ => none) = some names ↔
      components = names.map .entry := by
  induction components generalizing names with
  | nil =>
    cases names <;> simp
  | cons component later inductionHypothesis =>
    rw [List.mapM_cons]
    cases component with
    | entry name =>
      cases names with
      | nil => simp [Option.bind_eq_some_iff]
      | cons first others =>
        simp [Option.bind_eq_some_iff, inductionHypothesis, and_comm]
    | root | current | parent => cases names <;> simp

theorem namesBelow?_eq_some_iff (layout : Layout) (directory : Path) (names : List (List Char)) :
    layout.namesBelow? directory = some names ↔
      ∃ rest, directory.components = layout.root.components ++ rest ∧
        rest.filter (· ≠ .current) = names.map .entry := by
  unfold namesBelow? Path.below?
  constructor
  · intro found
    obtain ⟨rest, below, read⟩ := Option.bind_eq_some_iff.mp found
    exact ⟨rest, (List.isPrefixOf?_eq_some_iff_append_eq.mp below).symm,
      (mapM_names_eq_some_iff _ names).mp read⟩
  · rintro ⟨rest, below, read⟩
    exact Option.bind_eq_some_iff.mpr ⟨rest, List.isPrefixOf?_eq_some_iff_append_eq.mpr below.symm,
      (mapM_names_eq_some_iff _ names).mpr read⟩

theorem namesBelow?_congr (layout : Layout) {left right : Path}
    (same : left.components = right.components) :
    layout.namesBelow? left = layout.namesBelow? right := by
  unfold namesBelow? Path.below?
  rw [same]

/-- A directory that is reached from the root by a row of names has these names. -/
theorem namesBelow?_of_components (layout : Layout) {directory : Path} {names : List (List Char)}
    (below : directory.components = layout.root.components ++ names.map .entry) :
    layout.namesBelow? directory = some names := by
  refine (namesBelow?_eq_some_iff layout directory names).mpr ⟨_, below, ?_⟩
  rw [List.filter_eq_self]
  simp

/-- The names below the root are names that entries of directories can have. -/
theorem isName_of_mem_namesBelow? {layout : Layout} {directory : Path} {names : List (List Char)}
    {name : List Char} (below : layout.namesBelow? directory = some names)
    (member : name ∈ names) : IsName name := by
  obtain ⟨rest, components, read⟩ := (namesBelow?_eq_some_iff layout directory names).mp below
  have inRest : Component.entry name ∈ rest.filter (· ≠ .current) := by
    rw [read]
    exact List.mem_map_of_mem member
  have inDirectory : Component.entry name ∈ directory.components := by
    rw [components]
    exact List.mem_append_right _ (List.mem_of_mem_filter inRest)
  exact Path.isName_of_entry_mem inDirectory

/-- Below an absolute root no component is passed over. -/
theorem components_of_namesBelow? {layout : Layout} {directory : Path}
    {names : List (List Char)} (absolute : layout.root.isAbsolute = true)
    (below : layout.namesBelow? directory = some names) :
    directory.components = layout.root.components ++ names.map .entry := by
  obtain ⟨rest, components, read⟩ := (namesBelow?_eq_some_iff layout directory names).mp below
  have noCurrent : ∀ component ∈ rest, component ≠ .current := by
    rintro component member rfl
    have first : directory.components.head? = some .current :=
      Path.head?_of_current_mem (components ▸ List.mem_append_right _ member)
    have rootFirst := Path.head?_of_isAbsolute absolute
    rw [components, List.head?_append, rootFirst] at first
    exact absurd first (by simp)
  have kept : rest.filter (· ≠ .current) = rest := by
    rw [List.filter_eq_self]
    simpa using noCurrent
  rw [components, ← read, kept]

/-! ### Ids -/

theorem idOfNames_text_of_ne_nil {names : List (List Char)} (nonempty : names ≠ []) :
    (idOfNames names).text.toList = List.intercalate ['/'] names := by
  cases names with
  | nil => exact absurd rfl nonempty
  | cons name later => exact String.toList_ofList

/-- The id of a row of names other than the empty one is cut into these names. -/
theorem splitOn_idOfNames {names : List (List Char)} (nonempty : names ≠ [])
    (isName : ∀ name ∈ names, IsName name) :
    List.splitOn '/' (idOfNames names).text.toList = names := by
  rw [idOfNames_text_of_ne_nil nonempty,
    List.splitOn_intercalate '/' (fun name member => (isName name member).2.2.2) nonempty]

theorem idOfNames_ne_root {names : List (List Char)} (nonempty : names ≠ [])
    (isName : ∀ name ∈ names, IsName name) : (idOfNames names).text ≠ "." := by
  intro equal
  have pieces := splitOn_idOfNames nonempty isName
  have onlyDot : names = [['.']] := by
    rw [← pieces, equal]
    rfl
  exact (isName ['.'] (by simp [onlyDot])).2.1 rfl

/-- The id of a directory determines the names that lead to it. -/
theorem idOfNames_injective {left right : List (List Char)} (leftNames : ∀ name ∈ left, IsName name)
    (rightNames : ∀ name ∈ right, IsName name) (equal : idOfNames left = idOfNames right) :
    left = right := by
  by_cases leftEmpty : left = []
  · by_cases rightEmpty : right = []
    · rw [leftEmpty, rightEmpty]
    · rw [leftEmpty] at equal
      exact absurd (congrArg PackageId.text equal).symm (idOfNames_ne_root rightEmpty rightNames)
  · by_cases rightEmpty : right = []
    · rw [rightEmpty] at equal
      exact absurd (congrArg PackageId.text equal) (idOfNames_ne_root leftEmpty leftNames)
    · rw [← splitOn_idOfNames leftEmpty leftNames, equal, splitOn_idOfNames rightEmpty rightNames]

/-- Cutting the id of a directory judges exactly the names that lead to it. -/
theorem leavesOut_idOfNames (layout : Layout) {names : List (List Char)}
    (isName : ∀ name ∈ names, IsName name) :
    layout.leavesOut (idOfNames names) = names.any layout.skips := by
  by_cases empty : names = []
  · rw [empty]
    rfl
  · rw [leavesOut, splitOn_idOfNames empty isName,
      bne_iff_ne.mpr (idOfNames_ne_root empty isName), Bool.true_and]

theorem packageId_eq_ok_iff (layout : Layout) (directory : Path) (id : PackageId) :
    layout.packageId directory = .ok id ↔
      ∃ names, layout.namesBelow? directory = some names ∧ idOfNames names = id := by
  unfold packageId
  cases layout.namesBelow? directory <;> simp

/-- The pieces of an id are the names that it is made of; the root has none. -/
theorem bodyOf_idOfNames {names : List (List Char)} (isName : ∀ name ∈ names, IsName name) :
    Path.bodyOf (idOfNames names).text.toList = names.map .entry := by
  by_cases empty : names = []
  · rw [empty]
    rfl
  · rw [Path.bodyOf, splitOn_idOfNames empty isName]
    refine List.filterMap_eq_map_iff_forall_eq_some.mpr fun name member => ?_
    exact Path.ofPiece?_of_isName (isName name member)

theorem isAbsolute_idOfNames {names : List (List Char)} (isName : ∀ name ∈ names, IsName name) :
    (Path.mk (idOfNames names).text).isAbsolute = false := by
  by_cases empty : names = []
  · rw [empty]
    rfl
  · rw [← Bool.not_eq_true, Path.isAbsolute, beq_iff_eq, List.head?_eq_some_iff]
    rintro ⟨rest, shape⟩
    -- A leading separator would make the first name empty.
    have pieces := splitOn_idOfNames empty isName
    rw [shape, ← List.nil_append ('/' :: rest), List.splitOn_append_cons_self] at pieces
    exact (isName [] (pieces ▸ List.mem_append_left _ List.mem_cons_self)).1 rfl

/-- Below an absolute root, the path of a directory is its id seen from the root. -/
theorem same_join_of_packageId {layout : Layout} {directory : Path} {id : PackageId}
    (absolute : layout.root.isAbsolute = true) (found : layout.packageId directory = .ok id) :
    directory.Same (layout.root.join ⟨id.text⟩) := by
  obtain ⟨names, below, rfl⟩ := (packageId_eq_ok_iff layout directory id).mp found
  have isName : ∀ name ∈ names, IsName name := fun name => isName_of_mem_namesBelow? below
  have nonempty : layout.root.text.toList ≠ [] := by
    intro empty
    simp [Path.isAbsolute, empty] at absolute
  rw [Path.same_iff, components_of_namesBelow? absolute below,
    Path.components_join_of_relative (isAbsolute_idOfNames isName) nonempty,
    bodyOf_idOfNames isName]

/-! ### Places -/

/-- The package that a path belongs to, if it has a place in the workspace. -/
def home? (layout : Layout) (path : Path) : Option PackageId :=
  match layout.locate path with
  | .ok (id, _) => some id
  | .error _ => none

theorem home?_eq_some_iff (layout : Layout) (path : Path) (id : PackageId) :
    layout.home? path = some id ↔ ∃ directory, layout.locate path = .ok (id, directory) := by
  unfold home?
  split
  · next other directory located => simp [located]
  · next error located => simp [located]

theorem exists_place_iff (layout : Layout) (path : Path) :
    (∃ place, layout.locate path = .ok place) ↔ ∃ id, layout.home? path = some id := by
  simp only [home?_eq_some_iff, Prod.exists]

theorem locate_eq_ok_iff (layout : Layout) (path : Path) (id : PackageId) (directory : Path) :
    layout.locate path = .ok (id, directory) ↔
      layout.isSource path = true ∧ path.parent? = some directory ∧
        ∃ names, layout.namesBelow? directory = some names ∧
          names.any layout.skips = false ∧ idOfNames names = id := by
  unfold locate packageId
  by_cases source : layout.isSource path = true
  · simp only [source, Bool.not_true, Bool.false_eq_true, if_false, true_and]
    cases parent : path.parent? with
    | none => simp
    | some found =>
      simp only [Option.some_inj]
      cases below : layout.namesBelow? found with
      | none => grind
      | some names =>
        have judged := layout.leavesOut_idOfNames
          fun name member => isName_of_mem_namesBelow? below member
        simp only [judged]
        grind
  · simp [source]

theorem isSource_congr (layout : Layout) {left right : Path} (same : left.Same right) :
    layout.isSource left = layout.isSource right := by
  have components := (Path.same_iff left right).mp same
  rw [isSource, isSource, Path.extension?, Path.extension?, Path.fileName?, Path.fileName?,
    components]

theorem exists_parent?_of_isSource {layout : Layout} {path : Path}
    (source : layout.isSource path = true) : ∃ directory, path.parent? = some directory := by
  have extension : path.extension? = some layout.extension.toList := by
    simpa [isSource] using source
  obtain ⟨name, named, _⟩ := Option.bind_eq_some_iff.mp extension
  exact Path.exists_parent? named

/-- All spellings of a path have one place. -/
theorem locate_congr (layout : Layout) {left right directory : Path} {id : PackageId}
    (same : left.Same right) (located : layout.locate left = .ok (id, directory)) :
    ∃ other, layout.locate right = .ok (id, other) ∧ directory.Same other := by
  obtain ⟨source, parent, names, below, judged, equal⟩ :=
    (locate_eq_ok_iff layout left id directory).mp located
  have rightSource : layout.isSource right = true := by rwa [← layout.isSource_congr same]
  obtain ⟨other, otherParent⟩ := exists_parent?_of_isSource rightSource
  have components : directory.components = other.components := by
    rw [Path.components_parent? parent, Path.components_parent? otherParent,
      (Path.same_iff left right).mp same]
  have otherBelow : layout.namesBelow? other = some names := by
    rwa [← layout.namesBelow?_congr components]
  exact ⟨other, (locate_eq_ok_iff layout right id other).mpr
    ⟨rightSource, otherParent, names, otherBelow, judged, equal⟩,
    (Path.same_iff directory other).mpr components⟩

theorem home?_congr (layout : Layout) {left right : Path} (same : left.Same right) :
    layout.home? left = layout.home? right := by
  refine Option.ext fun id => ?_
  rw [home?_eq_some_iff, home?_eq_some_iff]
  constructor
  · rintro ⟨directory, located⟩
    obtain ⟨other, otherLocated, _⟩ := layout.locate_congr same located
    exact ⟨other, otherLocated⟩
  · rintro ⟨directory, located⟩
    obtain ⟨other, otherLocated, _⟩ := layout.locate_congr same.symm located
    exact ⟨other, otherLocated⟩

/-- The place of a path that lies below the root by a row of names: the last name has to have the
extension of source files, and none of the others may be left out. -/
theorem home?_below (layout : Layout) {path : Path} {names : List (List Char)} {name : List Char}
    (below : path.components = layout.root.components ++ names.map .entry ++ [.entry name]) :
    layout.home? path =
      if Path.extensionOf? name = some layout.extension.toList ∧ names.any layout.skips = false
      then some (idOfNames names) else none := by
  have named : path.fileName? = some name := (Path.fileName?_eq_some_iff path name).mpr ⟨_, below⟩
  obtain ⟨directory, parent⟩ := Path.exists_parent? named
  have directoryNames : layout.namesBelow? directory = some names := by
    refine layout.namesBelow?_of_components ?_
    rw [Path.components_parent? parent, below, List.dropLast_concat]
  refine Option.ext fun id => ?_
  rw [home?_eq_some_iff]
  simp only [locate_eq_ok_iff, isSource, Path.extension?, named, Option.bind_some, beq_iff_eq,
    parent, Option.some_inj]
  grind

/-- The directory that a file is located in is the home of its package. -/
theorem packageId_of_locate {layout : Layout} {path directory : Path} {id : PackageId}
    (located : layout.locate path = .ok (id, directory)) : layout.packageId directory = .ok id := by
  obtain ⟨_, _, names, below, _, equal⟩ := (locate_eq_ok_iff layout path id directory).mp located
  exact (packageId_eq_ok_iff layout directory id).mpr ⟨names, below, equal⟩

end Layout

end WorkspaceSync
