/-
This file says which packages loading a workspace gives.

The walk over the tree prunes directories by their names, while the place of a
single path is worked out from the id of its directory. Both follow one rule:
`packagesUnder_spec` describes the packages that the walk meets by the rows of
names that lead to them, `home?_along` describes the place of a path in the same
terms, and `Loaded` puts the two together.
-/
import WorkspaceSync.Loading
import WorkspaceSync.Proofs.Disk
import WorkspaceSync.Proofs.Layout
import WorkspaceSync.Proofs.PackageSet

namespace WorkspaceSync

open WorkspaceSync.Path (IsName Component)

namespace Layout

/-! ### The files of a directory -/

theorem same_join_iff (directory : Path) {left right : String} (leftName : IsName left.toList)
    (rightName : IsName right.toList) :
    (directory.join ⟨left⟩).Same (directory.join ⟨right⟩) ↔ left = right := by
  rw [Path.same_iff, Path.components_join directory leftName,
    Path.components_join directory rightName, List.append_cancel_left_eq, List.cons.injEq,
    Component.entry.injEq, String.toList_inj]
  simp

theorem isSource_join_iff (layout : Layout) (directory : Path) {name : String}
    (isName : IsName name.toList) :
    layout.isSource (directory.join ⟨name⟩) = true ↔
      Path.extensionOf? name.toList = some layout.extension.toList := by
  have named : (directory.join ⟨name⟩).fileName? = some name.toList :=
    (Path.fileName?_eq_some_iff _ _).mpr ⟨_, Path.components_join directory isName⟩
  rw [isSource, Path.extension?, named, beq_iff_eq]
  rfl

/-- The entries of a directory that are source files, with what reading them gives. -/
def sourcesIn (layout : Layout) (read : Path → Reading) (directory : Path)
    (entries : List (String × Node)) : List (Path × SourceFile) :=
  (entries.filter fun entry =>
      !entry.2.isDirectory && layout.isSource (directory.join ⟨entry.1⟩)).map
    fun entry => (directory.join ⟨entry.1⟩, .ofReading (read (directory.join ⟨entry.1⟩)))

theorem filesIn_eq (layout : Layout) (read : Path → Reading) (directory : Path)
    (entries : List (String × Node)) :
    layout.filesIn read directory entries =
      PathMap.empty.insertAll (layout.sourcesIn read directory entries) := by
  rw [PathMap.insertAll, sourcesIn, List.foldl_map, List.foldl_filter]
  rfl

theorem mem_filesIn (layout : Layout) (read : Path → Reading) (directory : Path)
    {entries : List (String × Node)} (distinct : (entries.map Prod.fst).Nodup)
    (named : ∀ entry ∈ entries, IsName entry.1.toList) (file : Path × SourceFile) :
    file ∈ (layout.filesIn read directory entries).entries ↔
      ∃ entry ∈ entries, entry.2.isDirectory = false ∧
        layout.isSource (directory.join ⟨entry.1⟩) = true ∧
        file = (directory.join ⟨entry.1⟩, .ofReading (read (directory.join ⟨entry.1⟩))) := by
  have different : (layout.sourcesIn read directory entries).Pairwise
      fun left right => ¬ left.1.Same right.1 := by
    have names : entries.Pairwise fun left right => left.1 ≠ right.1 :=
      List.pairwise_map.mp distinct
    rw [sourcesIn, List.pairwise_map]
    refine List.Pairwise.filter _ (names.imp_of_mem fun leftMember rightMember unequal same => ?_)
    exact unequal
      ((same_join_iff directory (named _ leftMember) (named _ rightMember)).mp same)
  rw [filesIn_eq, PathMap.mem_insertAll different fun _ _ => PathMap.contains_empty _]
  simp only [PathMap.entries_empty, List.not_mem_nil, false_or, sourcesIn, List.mem_map,
    List.mem_filter, Bool.and_eq_true, Bool.not_eq_true', and_assoc]
  grind

/-! ### The walk -/

/-- The names that lead from the root to a directory, as the names of the directory. -/
theorem namesBelow?_along (layout : Layout) {names : List String}
    (isName : ∀ name ∈ names, IsName name.toList) :
    layout.namesBelow? (layout.root.along names) = some (names.map String.toList) :=
  layout.namesBelow?_of_components (Path.components_along layout.root isName)

theorem isName_concat {names : List String} {last : String}
    (isName : ∀ name ∈ names, IsName name.toList) (lastName : IsName last.toList) :
    ∀ name ∈ names ++ [last], IsName name.toList := by
  intro name member
  rcases List.mem_append.mp member with before | isLast
  · exact isName name before
  · rwa [List.mem_singleton.mp isLast]

theorem packageId_along (layout : Layout) {names : List String}
    (isName : ∀ name ∈ names, IsName name.toList) :
    layout.packageId (layout.root.along names) = .ok (idOfNames (names.map String.toList)) :=
  (packageId_eq_ok_iff layout _ _).mpr ⟨_, layout.namesBelow?_along isName, rfl⟩

/-- The package of the directory that a row of names leads to. -/
def packageAt (layout : Layout) (read : Path → Reading) (names : List String)
    (entries : List (String × Node)) : Package :=
  { Package.new (idOfNames (names.map String.toList)) (layout.root.along names) with
    files := layout.filesIn read (layout.root.along names) entries }.analyzed

/-- The package of the directory that a row of names leads to, unless it has no files. -/
def ownPackage (layout : Layout) (read : Path → Reading) (names : List String)
    (entries : List (String × Node)) : List Package :=
  if (layout.filesIn read (layout.root.along names) entries).isEmpty then []
  else [layout.packageAt read names entries]

theorem mem_ownPackage_iff (layout : Layout) (read : Path → Reading) (names : List String)
    (entries : List (String × Node)) (package : Package) :
    package ∈ layout.ownPackage read names entries ↔
      package = layout.packageAt read names entries ∧ package.files.isEmpty = false := by
  have files : (layout.packageAt read names entries).files =
    layout.filesIn read (layout.root.along names) entries := rfl
  unfold ownPackage
  split
  · next empty => grind
  · next nonempty => grind

theorem packageIn_along (layout : Layout) (read : Path → Reading) {names : List String}
    (isName : ∀ name ∈ names, IsName name.toList) (entries : List (String × Node)) :
    layout.packageIn read (layout.root.along names) entries =
      .ok (layout.ownPackage read names entries) := by
  unfold packageIn ownPackage
  simp only [layout.packageId_along isName]
  split <;> rfl

/-- The package is that of a directory in the tree at the given names, and no directory on the way
to it is left out. -/
def Meets (layout : Layout) (read : Path → Reading) (names : List String) (node : Node)
    (package : Package) : Prop :=
  ∃ further entries, (∀ name ∈ further, layout.skips name.toList = false) ∧
    node.descend? further = some (.directory entries) ∧
    package = layout.packageAt read (names ++ further) entries ∧ package.files.isEmpty = false

theorem meets_directory_iff (layout : Layout) (read : Path → Reading) (names : List String)
    {entries : List (String × Node)} (distinct : (entries.map Prod.fst).Nodup)
    (package : Package) :
    layout.Meets read names (.directory entries) package ↔
      (package = layout.packageAt read names entries ∧ package.files.isEmpty = false) ∨
        ∃ entry ∈ entries, layout.skips entry.1.toList = false ∧
          layout.Meets read (names ++ [entry.1]) entry.2 package := by
  constructor
  · rintro ⟨further, inner, judged, reached, equal, nonempty⟩
    cases further with
    | nil =>
      obtain rfl := Node.directory.inj (Option.some_inj.mp reached)
      rw [List.append_nil] at equal
      exact .inl ⟨equal, nonempty⟩
    | cons name rest =>
      obtain ⟨child, found, later⟩ := Option.bind_eq_some_iff.mp reached
      refine .inr ⟨(name, child), Node.mem_of_child? found, judged name List.mem_cons_self, rest,
        inner, fun other member => judged other (List.mem_cons_of_mem _ member), later, ?_,
        nonempty⟩
      rw [equal, List.append_assoc]
      rfl
  · rintro (⟨equal, nonempty⟩ | ⟨⟨name, child⟩, member, kept, rest, inner, judged, reached, equal,
      nonempty⟩)
    · refine ⟨[], entries, fun name member => absurd member List.not_mem_nil, rfl, ?_, nonempty⟩
      rw [List.append_nil]
      exact equal
    · refine ⟨name :: rest, inner, List.forall_mem_cons.mpr ⟨kept, judged⟩, ?_, ?_, nonempty⟩
      · exact Option.bind_eq_some_iff.mpr
          ⟨child, (Node.child?_eq_some_iff distinct name child).mpr member, reached⟩
      · rw [equal, List.append_assoc]
        rfl

theorem not_meets_of_not_directory {layout : Layout} {read : Path → Reading} {names : List String}
    {node : Node} (leaf : node.isDirectory = false) (package : Package) :
    ¬ layout.Meets read names node package := by
  rintro ⟨further, entries, _, reached, _⟩
  cases node with
  | directory inner => exact absurd leaf (by simp [Node.isDirectory])
  | file content => cases further <;> exact absurd reached (by simp [Node.descend?, Node.child?])
  | link target => cases further <;> exact absurd reached (by simp [Node.descend?, Node.child?])

theorem names_eq_of_id_eq {left right : List String}
    (leftNames : ∀ name ∈ left, IsName name.toList)
    (rightNames : ∀ name ∈ right, IsName name.toList)
    (equal : idOfNames (left.map String.toList) = idOfNames (right.map String.toList)) :
    left = right := by
  have characters := idOfNames_injective (List.forall_mem_map.mpr leftNames)
    (List.forall_mem_map.mpr rightNames) equal
  exact List.map_injective_iff.mpr (fun _ _ => String.toList_inj.mp) characters

/-- The id of a package that is met comes from the names that lead to it. -/
theorem id_of_meets {layout : Layout} {read : Path → Reading} {names : List String} {node : Node}
    {package : Package} (isName : ∀ name ∈ names, IsName name.toList)
    (sound : node.isSound = true) (meets : layout.Meets read names node package) :
    ∃ further, package.id = idOfNames ((names ++ further).map String.toList) ∧
      ∀ name ∈ names ++ further, IsName name.toList := by
  obtain ⟨further, inner, _, reached, rfl, _⟩ := meets
  refine ⟨further, rfl, fun name member => ?_⟩
  rcases List.mem_append.mp member with before | after
  · exact isName name before
  · exact (Node.isSound_of_descend? sound reached).2 name after

mutual

/-- The walk from a directory on succeeds and meets every package once. -/
theorem packagesUnder_spec (layout : Layout) (read : Path → Reading) {names : List String}
    (isName : ∀ name ∈ names, IsName name.toList) (node : Node) (sound : node.isSound = true) :
    ∃ packages, layout.packagesUnder read (layout.root.along names) node = .ok packages ∧
      (∀ package, package ∈ packages ↔ layout.Meets read names node package) ∧
      packages.Pairwise fun left right => left.id ≠ right.id := by
  cases node with
  | file content =>
    refine ⟨[], rfl, fun package => ?_, List.Pairwise.nil⟩
    simpa using not_meets_of_not_directory rfl package
  | link target =>
    refine ⟨[], rfl, fun package => ?_, List.Pairwise.nil⟩
    simpa using not_meets_of_not_directory rfl package
  | directory entries =>
    obtain ⟨distinct, entrySound⟩ := (Node.isSound_directory_iff entries).mp sound
    obtain ⟨others, walked, members, othersDistinct⟩ :=
      packagesBelow_spec layout read isName entries distinct entrySound
    refine ⟨layout.ownPackage read names entries ++ others, ?_, fun package => ?_, ?_⟩
    · rw [packagesUnder, packageIn_along layout read isName, walked]
      rfl
    · rw [meets_directory_iff layout read names distinct, List.mem_append, members,
        mem_ownPackage_iff]
    · refine List.pairwise_append.mpr ⟨?_, othersDistinct, fun own ownMember other member => ?_⟩
      · unfold ownPackage
        split
        · exact List.Pairwise.nil
        · exact List.pairwise_singleton _ _
      · obtain ⟨rfl, _⟩ := (mem_ownPackage_iff layout read names entries own).mp ownMember
        obtain ⟨⟨name, child⟩, inEntries, _, meets⟩ := (members other).mp member
        obtain ⟨entryName, childSound⟩ := entrySound (name, child) inEntries
        obtain ⟨further, equal, allNames⟩ :=
          id_of_meets (isName_concat isName entryName) childSound meets
        intro same
        have lists := names_eq_of_id_eq isName allNames (same.trans equal)
        have lengths := congrArg List.length lists
        simp at lengths

/-- The walk over the entries of a directory succeeds and meets every package once. -/
theorem packagesBelow_spec (layout : Layout) (read : Path → Reading) {names : List String}
    (isName : ∀ name ∈ names, IsName name.toList) (entries : List (String × Node))
    (distinct : (entries.map Prod.fst).Nodup)
    (sound : ∀ entry ∈ entries, IsName entry.1.toList ∧ entry.2.isSound = true) :
    ∃ packages, layout.packagesBelow read (layout.root.along names) entries = .ok packages ∧
      (∀ package, package ∈ packages ↔
        ∃ entry ∈ entries, layout.skips entry.1.toList = false ∧
          layout.Meets read (names ++ [entry.1]) entry.2 package) ∧
      packages.Pairwise fun left right => left.id ≠ right.id := by
  cases entries with
  | nil => exact ⟨[], rfl, by simp, List.Pairwise.nil⟩
  | cons entry rest =>
    obtain ⟨name, node⟩ := entry
    obtain ⟨absent, restDistinct⟩ := List.nodup_cons.mp distinct
    obtain ⟨⟨entryName, nodeSound⟩, restSound⟩ := List.forall_mem_cons.mp sound
    obtain ⟨others, walked, members, othersDistinct⟩ :=
      packagesBelow_spec layout read isName rest restDistinct restSound
    have longer := isName_concat isName entryName
    obtain ⟨first, firstWalked, firstMembers, firstDistinct⟩ :=
      packagesUnder_spec layout read longer node nodeSound
    rw [Path.along_concat] at firstWalked
    by_cases skipped : layout.skips name.toList = true
    · refine ⟨others, ?_, fun package => ?_, othersDistinct⟩
      · rw [packagesBelow, if_pos skipped, walked]
        rfl
      · rw [members]
        simp [skipped]
    · refine ⟨first ++ others, ?_, fun package => ?_, ?_⟩
      · rw [packagesBelow, if_neg skipped, firstWalked, walked]
        rfl
      · rw [List.mem_append, firstMembers, members]
        simp [skipped]
      · refine List.pairwise_append.mpr
          ⟨firstDistinct, othersDistinct, fun left leftMember right rightMember same => ?_⟩
        obtain ⟨further, leftEqual, leftNames⟩ :=
          id_of_meets longer nodeSound ((firstMembers left).mp leftMember)
        obtain ⟨⟨other, child⟩, inRest, _, meets⟩ := (members right).mp rightMember
        obtain ⟨otherName, childSound⟩ := restSound (other, child) inRest
        obtain ⟨otherFurther, rightEqual, rightNames⟩ :=
          id_of_meets (isName_concat isName otherName) childSound meets
        have lists := names_eq_of_id_eq leftNames rightNames
          (leftEqual.symm.trans (same.trans rightEqual))
        simp only [List.append_assoc, List.append_cancel_left_eq, List.singleton_append,
          List.cons.injEq] at lists
        exact absent (List.mem_map.mpr ⟨(other, child), inRest, lists.1.symm⟩)

end

/-! ### The loaded set -/

/-- Loading a directory succeeds, and the set has exactly the packages that the walk meets. -/
theorem load_eq_ok {layout : Layout} {disk : Disk} {entries : List (String × Node)}
    (root : disk.entry layout.root = .ok (.directory entries))
    (sound : (Node.directory entries).isSound = true) :
    ∃ set, layout.load disk = .ok set ∧ set.Sorted ∧
      ∀ package, package ∈ set.packages ↔
        layout.Meets disk.read [] (.directory entries) package := by
  obtain ⟨packages, walked, members, distinct⟩ := packagesUnder_spec layout disk.read
    (fun name member => absurd member List.not_mem_nil) (.directory entries) sound
  refine ⟨.ofList packages, ?_, PackageSet.sorted_ofList distinct, fun package => ?_⟩
  · rw [Path.along_nil] at walked
    rw [load, root]
    simp only [walked]
    rfl
  · rw [PackageSet.mem_ofList, members]

/-- Loading succeeds on directories only, and the set has what the walk met there. -/
theorem exists_entries_of_load {layout : Layout} {disk : Disk} {set : PackageSet}
    (sound : disk.root.isSound = true) (loaded : layout.load disk = .ok set) :
    ∃ entries, disk.entry layout.root = .ok (.directory entries) ∧
      (Node.directory entries).isSound = true ∧ set.Sorted ∧
      ∀ package, package ∈ set.packages ↔
        layout.Meets disk.read [] (.directory entries) package := by
  cases root : disk.entry layout.root with
  | error error => exact absurd loaded (by simp [load, root])
  | ok node =>
    have nodeSound := Disk.isSound_of_entry sound root
    cases node with
    | file content => exact absurd loaded (by simp [load, root])
    | link target => exact absurd loaded (by simp [load, root])
    | directory entries =>
      obtain ⟨found, equal, sorted, members⟩ := load_eq_ok root nodeSound
      obtain rfl := Except.ok.inj (loaded.symm.trans equal)
      exact ⟨entries, rfl, nodeSound, sorted, members⟩

/-- What a successful loading met. -/
theorem exists_tree_of_load {layout : Layout} {disk : Disk} {set : PackageSet}
    (sound : disk.root.isSound = true) (loaded : layout.load disk = .ok set) :
    ∃ tree, tree.isSound = true ∧ set.Sorted ∧
      ∀ package, package ∈ set.packages ↔ layout.Meets disk.read [] tree package := by
  obtain ⟨entries, _, met⟩ := exists_entries_of_load sound loaded
  exact ⟨.directory entries, met⟩

/-- The files of a package are the source files of its directory, each under the path that leads
to it and with what reading it gives. -/
theorem mem_files_packageAt {layout : Layout} {read : Path → Reading} {node : Node}
    {names : List String} {entries : List (String × Node)} (sound : node.isSound = true)
    (reached : node.descend? names = some (.directory entries)) (file : Path × SourceFile) :
    file ∈ (layout.packageAt read names entries).files.entries ↔
      ∃ last child, node.descend? (names ++ [last]) = some child ∧ child.isDirectory = false ∧
        Path.extensionOf? last.toList = some layout.extension.toList ∧
        file = (layout.root.along (names ++ [last]),
          .ofReading (read (layout.root.along (names ++ [last])))) := by
  obtain ⟨innerSound, _⟩ := Node.isSound_of_descend? sound reached
  obtain ⟨distinct, entrySound⟩ := (Node.isSound_directory_iff entries).mp innerSound
  have files : (layout.packageAt read names entries).files =
    layout.filesIn read (layout.root.along names) entries := rfl
  rw [files, mem_filesIn layout read _ distinct fun entry member => (entrySound entry member).1]
  simp only [Path.along_concat, Node.descend?_append, reached, Option.bind_some,
    Node.descend?_singleton, Node.child?_eq_some_iff distinct]
  constructor
  · rintro ⟨⟨name, child⟩, member, leaf, source, equal⟩
    exact ⟨name, child, member, leaf,
      (layout.isSource_join_iff _ (entrySound _ member).1).mp source, equal⟩
  · rintro ⟨name, child, member, leaf, extension, equal⟩
    exact ⟨(name, child), member, leaf,
      (layout.isSource_join_iff _ (entrySound _ member).1).mpr extension, equal⟩

/-- A row of names leads from the root to an entry that is no directory, and the path is a spelling
of it. All on the way are directories, and none of them is a link. -/
def Leads (layout : Layout) (tree : Node) (names : List String) (path : Path) : Prop :=
  path.Same (layout.root.along names) ∧
    ∃ child, tree.descend? names = some child ∧ child.isDirectory = false

/-- The place of a path that a row of names leads to. -/
theorem home?_along (layout : Layout) {names : List String} {last : String} {path : Path}
    (isName : ∀ name ∈ names ++ [last], IsName name.toList)
    (same : path.Same (layout.root.along (names ++ [last]))) :
    layout.home? path =
      if Path.extensionOf? last.toList = some layout.extension.toList ∧
        ∀ name ∈ names, layout.skips name.toList = false
      then some (idOfNames (names.map String.toList)) else none := by
  have components : path.components = layout.root.components ++
      (names.map String.toList).map .entry ++ [.entry last.toList] := by
    rw [(Path.same_iff _ _).mp same, Path.components_along layout.root isName]
    simp
  have judged : (names.map String.toList).any layout.skips = false ↔
      ∀ name ∈ names, layout.skips name.toList = false := by
    simp [List.any_eq_false]
  rw [layout.home?_below components]
  simp only [judged]

/-- A row of names that leads from a directory to something else has a last name. -/
theorem exists_last_of_leads {layout : Layout} {entries : List (String × Node)}
    {names : List String} {path : Path} (leads : layout.Leads (.directory entries) names path) :
    ∃ before last inner child, names = before ++ [last] ∧
      (Node.directory entries).descend? before = some (.directory inner) ∧
      (Node.directory entries).descend? (before ++ [last]) = some child ∧
      child.isDirectory = false := by
  obtain ⟨_, child, reached, leaf⟩ := leads
  rcases List.eq_nil_or_concat names with rfl | ⟨before, last, rfl⟩
  · obtain rfl := Option.some_inj.mp reached
    exact absurd leaf (by simp [Node.isDirectory])
  · have steps := reached
    rw [List.concat_eq_append] at steps ⊢
    rw [Node.descend?_append] at steps
    obtain ⟨home, homeReached, step⟩ := Option.bind_eq_some_iff.mp steps
    rw [Node.descend?_singleton] at step
    cases home with
    | directory inner =>
      exact ⟨before, last, inner, child, rfl, homeReached, by simpa using reached, leaf⟩
    | file content => exact absurd step (by simp [Node.child?])
    | link target => exact absurd step (by simp [Node.child?])

/-- The files of a package that is met have their place in it, and names lead to them. -/
theorem home?_of_meets {layout : Layout} {read : Path → Reading} {node : Node} {package : Package}
    {path : Path} (sound : node.isSound = true) (meets : layout.Meets read [] node package)
    (present : package.files.contains path = true) :
    layout.home? path = some package.id ∧ ∃ names, layout.Leads node names path := by
  obtain ⟨names, entries, judged, homeReached, rfl, _⟩ := meets
  obtain ⟨file, member, same⟩ := (PathMap.contains_iff _ path).mp present
  obtain ⟨last, child, reached, leaf, extension, rfl⟩ :=
    (mem_files_packageAt sound homeReached file).mp member
  have isName := (Node.isSound_of_descend? sound reached).2
  refine ⟨?_, names ++ [last], same.symm, child, reached, leaf⟩
  rw [layout.home?_along isName same.symm, if_pos ⟨extension, judged⟩]
  rfl

/-- A path that names lead to and that has a place is a file of a package that is met. -/
theorem meets_of_leads {layout : Layout} (read : Path → Reading) {node : Node}
    {names : List String} {last : String} {inner : List (String × Node)} {child : Node}
    {path : Path} {id : PackageId} (sound : node.isSound = true)
    (homeReached : node.descend? names = some (.directory inner))
    (reached : node.descend? (names ++ [last]) = some child) (leaf : child.isDirectory = false)
    (same : path.Same (layout.root.along (names ++ [last])))
    (home : layout.home? path = some id) :
    ∃ package, layout.Meets read [] node package ∧ package.id = id ∧
      package.files.find? path =
        some (.ofReading (read (layout.root.along (names ++ [last])))) := by
  have isName := (Node.isSound_of_descend? sound reached).2
  rw [layout.home?_along isName same] at home
  obtain ⟨⟨extension, judged⟩, equal⟩ := Option.ite_none_right_eq_some.mp home
  have found : (layout.packageAt read names inner).files.find? path =
      some (.ofReading (read (layout.root.along (names ++ [last])))) := by
    rw [PathMap.find?_eq_some_iff]
    exact ⟨_, (mem_files_packageAt sound homeReached _).mpr
      ⟨last, child, reached, leaf, extension, rfl⟩, same.symm, rfl⟩
  refine ⟨layout.packageAt read names inner, ⟨names, inner, judged, homeReached, rfl, ?_⟩,
    Option.some_inj.mp equal, found⟩
  have present : (layout.packageAt read names inner).files.contains path = true := by
    rw [PathMap.contains_eq_isSome, found]
    rfl
  exact PathMap.isEmpty_eq_false_of_contains _ present

/-- In the set of all packages that are met, a path that names lead to and that has a place is in
the package of its place only, with what reading it gives. -/
theorem exists_owner_of_leads {layout : Layout} {read : Path → Reading}
    {entries : List (String × Node)} {set : PackageSet} {path directory : Path}
    {names : List String} {id : PackageId} (sound : (Node.directory entries).isSound = true)
    (sorted : set.Sorted)
    (members : ∀ package, package ∈ set.packages ↔
      layout.Meets read [] (.directory entries) package)
    (leads : layout.Leads (.directory entries) names path)
    (located : layout.locate path = .ok (id, directory)) :
    ∃ package ∈ set.packages, package.id = id ∧
      package.files.find? path = some (.ofReading (read (layout.root.along names))) ∧
      ∀ other ∈ set.packages, other.files.contains path = true → other = package := by
  obtain ⟨before, last, inner, child, rfl, homeReached, reached, leaf⟩ := exists_last_of_leads leads
  have home := (home?_eq_some_iff layout path id).mpr ⟨directory, located⟩
  obtain ⟨package, meets, equal, found⟩ :=
    meets_of_leads read sound homeReached reached leaf leads.1 home
  refine ⟨package, (members package).mpr meets, equal, found, fun other member present => ?_⟩
  have otherHome := (home?_of_meets sound ((members other).mp member) present).1
  rw [home, Option.some_inj] at otherHome
  exact sorted.eq_of_id_eq member ((members package).mpr meets) (otherHome.symm.trans equal.symm)

end Layout

/-- A file records what reading it gave: the text, or why there is none. -/
def SourceFile.Records (file : SourceFile) : Reading → Prop
  | .text text => file = { text, origin := .disk, readError := none }
  | .absent =>
    file = { text := "", origin := .disk, readError := some DiskError.notFound.message }
  | .failed reason => file = { text := "", origin := .disk, readError := some reason }

theorem SourceFile.records_ofReading (reading : Reading) : (ofReading reading).Records reading := by
  cases reading <;> rfl

namespace Layout

/-- What loading gives for the tree at the root. -/
structure Loaded (layout : Layout) (disk : Disk) (tree : Node) (set : PackageSet) : Prop where
  /-- A path is tracked if and only if it is reached from the root through directories, is itself
  no directory, and has a place in the workspace. -/
  tracked : ∀ path, (∃ package ∈ set.packages, package.files.contains path = true) ↔
    (∃ names, layout.Leads tree names path) ∧ ∃ place, layout.locate path = .ok place
  /-- A tracked path is in the package of its place and in no other, with its text on the disk or
  the reason why it cannot be read. -/
  content : ∀ path names id directory, layout.Leads tree names path →
    layout.locate path = .ok (id, directory) →
    ∃ package ∈ set.packages, package.id = id ∧
      (∃ file, package.files.find? path = some file ∧
        file.Records (disk.read (layout.root.along names))) ∧
      ∀ other ∈ set.packages, other.files.contains path = true → other = package
  /-- Distinct directories have distinct ids. -/
  distinct : ∀ left right leftEntries rightEntries,
    tree.descend? left = some (.directory leftEntries) →
    tree.descend? right = some (.directory rightEntries) →
    layout.packageId (layout.root.along left) = layout.packageId (layout.root.along right) →
    left = right
  /-- Every package has a file, is clean and has nothing to clear. -/
  settled : ∀ package ∈ set.packages,
    package.files.isEmpty = false ∧ package.state = .clean ∧ package.removed = .empty
  ascending : set.Sorted
  /-- Names are judged below the root only: the last by its extension, the others by the rules for
  directories. -/
  judged : ∀ names last, (∀ name ∈ names ++ [last], IsName name.toList) →
    ((∃ place, layout.locate (layout.root.along (names ++ [last])) = .ok place) ↔
      Path.extensionOf? last.toList = some layout.extension.toList ∧
        ∀ name ∈ names, layout.skips name.toList = false)

/-- Loading succeeds on every directory of a sound tree and tracks exactly the files that have a
place in the workspace. -/
theorem load_tracks_exactly {layout : Layout} {disk : Disk} {entries : List (String × Node)}
    (diskSound : disk.root.isSound = true)
    (root : disk.entry layout.root = .ok (.directory entries)) :
    ∃ set, layout.load disk = .ok set ∧ layout.Loaded disk (.directory entries) set := by
  have sound := Disk.isSound_of_entry diskSound root
  obtain ⟨set, loaded, sorted, members⟩ := load_eq_ok root sound
  refine ⟨set, loaded, fun path => ⟨?_, ?_⟩, ?_, ?_, ?_, sorted, ?_⟩
  · rintro ⟨package, member, present⟩
    obtain ⟨home, leads⟩ := home?_of_meets sound ((members package).mp member) present
    exact ⟨leads, (layout.exists_place_iff path).mpr ⟨_, home⟩⟩
  · rintro ⟨⟨names, leads⟩, ⟨id, directory⟩, located⟩
    obtain ⟨package, member, _, found, _⟩ :=
      exists_owner_of_leads sound sorted members leads located
    exact ⟨package, member, by simp [PathMap.contains_eq_isSome, found]⟩
  · intro path names id directory leads located
    obtain ⟨package, member, sameId, found, unique⟩ :=
      exists_owner_of_leads sound sorted members leads located
    exact ⟨package, member, sameId, ⟨_, found, SourceFile.records_ofReading _⟩, unique⟩
  · intro left right leftEntries rightEntries leftReached rightReached equal
    have leftNames := (Node.isSound_of_descend? sound leftReached).2
    have rightNames := (Node.isSound_of_descend? sound rightReached).2
    rw [layout.packageId_along leftNames, layout.packageId_along rightNames] at equal
    exact names_eq_of_id_eq leftNames rightNames (Except.ok.inj equal)
  · intro package member
    obtain ⟨names, inner, _, _, rfl, nonempty⟩ := (members package).mp member
    exact ⟨nonempty, rfl, rfl⟩
  · intro names last isName
    rw [exists_place_iff, layout.home?_along isName (Path.Same.refl _)]
    simp

end Layout

/-- The disk with a single directory, whose name is hidden, and the given entries in it. -/
def Disk.hidden (entries : List (String × Node)) : Disk :=
  ⟨.directory [(".ws", .directory entries)], []⟩

theorem Disk.entry_hidden (entries : List (String × Node)) :
    (Disk.hidden entries).entry ⟨"/.ws"⟩ = .ok (.directory entries) := by
  have steps : steps ⟨"/.ws"⟩ = ["", ".ws"] := by decide
  have nameSize : ".ws".utf8ByteSize ≤ 255 := by decide
  have pathSize : ¬ 4096 ≤ "/.ws".utf8ByteSize := by decide
  have walked : walk (.directory [(".ws", .directory entries)]) true linkLimit [] ["", ".ws"] =
      .ok [".ws"] := by
    simp [walk, Node.descend?, Node.isDirectory, Node.child?, nameSize]
  simp [entry, locate, hidden, steps, Path.isAbsolute, walked, pathSize, Node.descend?, Node.child?,
    Except.map]

namespace Layout

/-- A tree with a source file, a directory that is left out by its name, a hidden one, and a link
that leads nowhere and has the name of a source file. -/
def mixedEntries : List (String × Node) :=
  [("api", .directory [("a.gunk", .file "package api".toUTF8)]),
    ("vendor", .directory [("v.gunk", .file "package v".toUTF8)]),
    (".git", .directory [("g.gunk", .file "package g".toUTF8)]),
    ("lost.gunk", .link ⟨"nowhere"⟩)]

/-- A workspace whose own directory is hidden is loaded all the same. -/
theorem load_tracks_exactly_hidden :
    ∃ set, (ofRoot ⟨"/.ws"⟩).load (.hidden mixedEntries) = .ok set ∧
      (ofRoot ⟨"/.ws"⟩).Loaded (.hidden mixedEntries) (.directory mixedEntries) set :=
  load_tracks_exactly (by decide) (Disk.entry_hidden mixedEntries)

end Layout

end WorkspaceSync
