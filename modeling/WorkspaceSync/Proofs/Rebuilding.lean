/-
This file shows that a workspace can be built up file by file.

Loading walks the tree, groups the files of each directory, analyses every
package once and sorts the packages in the end. Showing the same files one after
the other analyses a package anew with each of its files and puts new packages in
by bisection. In whatever order the files come, the two give the same packages:
both sets represent an overlay, the two overlays differ in the origin of their
files only, and the analysis does not look at origins.
-/
import WorkspaceSync.Proofs.Overlay
import WorkspaceSync.Proofs.Walk

namespace WorkspaceSync

open Layout

/-! ### Files shown by the editor -/

namespace PathMap

variable {Value Result : Type}

theorem ascending_map (map : PathMap Value) (change : Value → Result) :
    Ascending (map.entries.map fun entry => (entry.1, change entry.2)) := by
  unfold Ascending
  rw [List.pairwise_map]
  exact map.ascending

/-- The map with every value changed. -/
def mapValues (map : PathMap Value) (change : Value → Result) : PathMap Result :=
  ⟨map.entries.map fun entry => (entry.1, change entry.2), map.ascending_map change⟩

theorem mem_mapValues (map : PathMap Value) (change : Value → Result) (entry : Path × Result) :
    entry ∈ (map.mapValues change).entries ↔
      ∃ old ∈ map.entries, entry = (old.1, change old.2) := by
  simp only [mapValues, List.mem_map, eq_comm]

theorem paths_mapValues (map : PathMap Value) (change : Value → Result) :
    (map.mapValues change).paths = map.paths := by
  rw [paths, paths, mapValues, List.map_map]
  rfl

end PathMap

/-- The same content, shown by the editor. -/
def SourceFile.shown (file : SourceFile) : SourceFile :=
  { file with origin := .editor }

/-- The analysis does not depend on where the contents came from. -/
theorem Analysis.run_shown (declared : Option Declaration) (entries : List (Path × SourceFile)) :
    run declared (entries.map fun entry => (entry.1, entry.2.shown)) = run declared entries := by
  refine run_congr declared ?_
  rw [List.map_map]
  rfl

namespace Package

/-- The package with all files shown by the editor. -/
def relabelled (package : Package) : Package :=
  { package with files := package.files.mapValues SourceFile.shown }

/-- The package with all files shown by the editor and its diagnostics not yet published. -/
def shown (package : Package) : Package :=
  { package.relabelled with state := .dirty }

theorem analyzed_relabelled (package : Package) :
    package.relabelled.analyzed = package.analyzed.relabelled := by
  have same : Analysis.run none package.relabelled.files.entries =
      Analysis.run none package.files.entries := Analysis.run_shown none package.files.entries
  unfold analyzed
  rw [same]
  rfl

theorem diagnostics_shown (package : Package) :
    package.shown.diagnostics = package.diagnostics := by
  have samePaths : package.shown.files.paths = package.files.paths :=
    package.files.paths_mapValues SourceFile.shown
  unfold diagnostics
  rw [samePaths]
  rfl

/-- The same package in all but the spelling of its directory, shown by the editor. -/
def ShownAs (loaded built : Package) : Prop :=
  loaded.directory.Same built.directory ∧ built = { loaded.shown with directory := built.directory }

end Package

/-- The same packages in the same order, with all files shown by the editor. -/
def PackageSet.ShownAs (loaded built : PackageSet) : Prop :=
  List.Forall₂ Package.ShownAs loaded.packages built.packages

/-! ### The packages of a relabelled overlay -/

namespace Overlay

variable {layout : Layout} {overlay : Overlay} {set : PackageSet}

theorem packageOf_mapValues (layout : Layout) (overlay : Overlay) (id : PackageId) :
    packageOf layout (overlay.mapValues SourceFile.shown) id =
      (overlay.packageOf layout id).relabelled := by
  have files : (overlay.mapValues SourceFile.shown).filter
        (fun path => layout.home? path = some id) =
      (overlay.filter fun path => layout.home? path = some id).mapValues SourceFile.shown := by
    refine PathMap.ext_of_mem fun entry => ?_
    simp only [PathMap.mem_filter, PathMap.mem_mapValues]
    constructor
    · rintro ⟨⟨old, member, rfl⟩, home⟩
      exact ⟨old, ⟨member, home⟩, rfl⟩
    · rintro ⟨old, ⟨member, home⟩, rfl⟩
      exact ⟨⟨old, member, rfl⟩, home⟩
  rw [packageOf, packageOf, ← Package.analyzed_relabelled, files]
  rfl

theorem canonical_mapValues (layout : Layout) (overlay : Overlay) :
    canonical layout (overlay.mapValues SourceFile.shown) =
      ⟨(overlay.canonical layout).packages.map Package.relabelled⟩ := by
  refine PackageSet.Sorted.ext_of_mem (sorted_canonical layout _)
    (List.pairwise_map.mpr (sorted_canonical layout overlay)) fun package => ?_
  simp only [mem_canonical, List.mem_map, PathMap.mem_mapValues, packageOf_mapValues]
  constructor
  · rintro ⟨_, ⟨old, member, rfl⟩, id, home, rfl⟩
    exact ⟨_, ⟨old, member, id, home, rfl⟩, rfl⟩
  · rintro ⟨_, ⟨old, member, id, home, rfl⟩, rfl⟩
    exact ⟨_, ⟨old, member, rfl⟩, id, home, rfl⟩

end Overlay

/-! ### Showing files one after the other -/

/-- Shows a row of files with the given texts, one after the other. -/
def Layout.addFiles (layout : Layout) (set : PackageSet) (files : List (Path × String)) :
    Except PackageError PackageSet :=
  files.foldlM (fun now file => (layout.addFile now file.1 file.2).map Prod.fst) set

/-- A set that was built by showing files and nothing else. -/
structure Building (layout : Layout) (overlay : Overlay) (set : PackageSet) : Prop where
  represents : Overlay.Represents layout overlay set
  unpublished : ∀ package ∈ set.packages,
    package.state = .dirty ∧ package.removed = .empty ∧ package.files.isEmpty = false

namespace Building

variable {layout : Layout} {overlay : Overlay} {set : PackageSet}

theorem empty (layout : Layout) : Building layout .empty .empty where
  represents := ⟨PackageSet.wellFormed_empty layout, by simp [PackageSet.empty]⟩
  unpublished := fun _ member => absurd member List.not_mem_nil

/-- Showing a file that has a place succeeds and adds it to the overlay. -/
theorem addFile (building : Building layout overlay set) {path : Path}
    (located : ∃ place, layout.locate path = .ok place) (text : String) :
    ∃ next, (layout.addFile set path text).map Prod.fst = .ok next ∧
      Building layout (overlay.insert path (.ofEditor text)) next := by
  obtain ⟨⟨id, directory⟩, located⟩ := located
  have sorted := building.represents.wellFormed.sorted
  refine ⟨set.upsert ((homeFor set id directory).written path (some (.ofEditor text))), ?_,
    building.represents.writeAt located (some (.ofEditor text)), fun package member => ?_⟩
  · rw [addFile_eq sorted, located]
    rfl
  · rcases (PackageSet.mem_upsert sorted _ package).mp member with rfl | ⟨kept, _⟩
    · have nothing : (homeFor set id directory).removed = .empty := by
        unfold homeFor
        cases found : set.get? id with
        | none => rfl
        | some old => exact (building.unpublished old (PackageSet.mem_of_get? found)).2.1
      refine ⟨Package.written_state _ _ _, ?_, PathMap.isEmpty_eq_false_of_contains _
        ((Package.contains_files_written _ path path _).mpr ?_)⟩
      · show (homeFor set id directory).removed.erase path = .empty
        rw [nothing]
        rfl
      · rw [if_pos (Path.Same.refl path)]
        rfl
    · exact building.unpublished package kept

/-- Showing files that have places succeeds for each of them. -/
theorem addFiles (building : Building layout overlay set) {files : List (Path × String)}
    (located : ∀ file ∈ files, ∃ place, layout.locate file.1 = .ok place) :
    ∃ next, layout.addFiles set files = .ok next ∧
      Building layout (overlay.insertAll (files.map fun file => (file.1, .ofEditor file.2)))
        next := by
  induction files generalizing overlay set with
  | nil => exact ⟨set, rfl, building⟩
  | cons file later inductionHypothesis =>
    obtain ⟨here, laterLocated⟩ := List.forall_mem_cons.mp located
    obtain ⟨middle, added, middleBuilding⟩ := building.addFile here file.2
    obtain ⟨next, succeeded, nextBuilding⟩ := inductionHypothesis middleBuilding laterLocated
    refine ⟨next, ?_, nextBuilding⟩
    rw [Layout.addFiles, List.foldlM_cons, added]
    exact succeeded

/-- A package that waits for its first publication is dirty and has nothing to clear. -/
theorem respelled_eq_dirty {package : Package} (state : package.state = .dirty)
    (forgotten : package.removed = .empty) :
    Overlay.respelled layout package =
      { Overlay.respelled layout package.settled with state := .dirty } := by
  cases package
  simp_all [Overlay.respelled, Package.settled]

/-- A set built from the files of a clean one has its packages, shown by the editor. -/
theorem packages_eq {built : PackageSet} (represents : Overlay.Represents layout overlay set)
    (clean : ∀ package ∈ set.packages, package.state = .clean)
    (building : Building layout (overlay.mapValues SourceFile.shown) built) :
    built.packages.map (Overlay.respelled layout) =
      set.packages.map fun package => Overlay.respelled layout package.shown := by
  have loadedCanonical := represents.map_respelled clean
  have builtCanonical : (built.packages.map fun package =>
      Overlay.respelled layout package.settled) =
        (overlay.canonical layout).packages.map Package.relabelled :=
    congrArg PackageSet.packages <| (building.represents.canonical_eq fun package member =>
      (building.unpublished package member).2.2).trans (Overlay.canonical_mapValues layout overlay)
  calc built.packages.map (Overlay.respelled layout)
      = (built.packages.map fun package => Overlay.respelled layout package.settled).map
          fun package => { package with state := .dirty } := by
        rw [List.map_map]
        refine List.map_congr_left fun package member => ?_
        obtain ⟨state, forgotten, _⟩ := building.unpublished package member
        exact respelled_eq_dirty state forgotten
    _ = (set.packages.map (Overlay.respelled layout)).map
          fun package => { package.relabelled with state := .dirty } := by
        rw [builtCanonical, ← loadedCanonical, List.map_map]
        rfl
    _ = set.packages.map fun package => Overlay.respelled layout package.shown := by
        rw [List.map_map]
        rfl

theorem shownAs {built : PackageSet} (absolute : layout.root.isAbsolute = true)
    (represents : Overlay.Represents layout overlay set)
    (clean : ∀ package ∈ set.packages, package.state = .clean)
    (building : Building layout (overlay.mapValues SourceFile.shown) built) :
    set.ShownAs built := by
  have equal := packages_eq represents clean building
  have pairs : List.Forall₂ (fun loaded new =>
      Overlay.respelled layout loaded.shown = Overlay.respelled layout new)
      set.packages built.packages := by
    rw [← List.forall₂_map_right_iff, ← List.forall₂_map_left_iff, List.forall₂_eq_eq_eq]
    exact equal.symm
  obtain ⟨sameLength, same⟩ := List.forall₂_iff_zip.mp pairs
  refine List.forall₂_iff_zip.mpr ⟨sameLength, fun {loaded new} pair => ?_⟩
  have spelled := same pair
  obtain ⟨loadedMember, newMember⟩ := List.of_mem_zip pair
  have sameId : (Overlay.respelled layout loaded.shown).id = (Overlay.respelled layout new).id := by
    rw [spelled]
  replace sameId : loaded.id = new.id := sameId
  constructor
  · have loadedHome := (represents.wellFormed.consistent loaded loadedMember).directory
    have newHome := (building.represents.wellFormed.consistent new newMember).directory
    have joined := same_join_of_packageId absolute newHome
    rw [← sameId] at joined
    exact (same_join_of_packageId absolute loadedHome).trans joined.symm
  · have respelt := congrArg (fun package : Package =>
      { package with directory := new.directory }) spelled
    exact respelt.symm

theorem errorsOf_eq_of_shown {built : PackageSet}
    (represents : Overlay.Represents layout overlay set)
    (clean : ∀ package ∈ set.packages, package.state = .clean)
    (building : Building layout (overlay.mapValues SourceFile.shown) built) (id : PackageId) :
    errorsOf built id = errorsOf set id := by
  have equal := congrArg (List.find? fun package : Package => package.id = id)
    (packages_eq represents clean building)
  rw [List.find?_map, List.find?_map] at equal
  have found : (built.get? id).map (Overlay.respelled layout) =
      (set.get? id).map fun package => Overlay.respelled layout package.shown := equal
  rw [errorsOf_eq, errorsOf_eq]
  cases loaded : set.get? id with
  | none =>
    rw [loaded] at found
    rw [Option.map_eq_none_iff.mp found]
  | some package =>
    rw [loaded] at found
    obtain ⟨new, isNew, same⟩ := Option.map_eq_some_iff.mp found
    have sameDiagnostics : (Overlay.respelled layout new).diagnostics =
        (Overlay.respelled layout package.shown).diagnostics := by rw [same]
    replace sameDiagnostics : new.diagnostics = package.shown.diagnostics := sameDiagnostics
    rw [isNew]
    simp only [sameDiagnostics, Package.diagnostics_shown]

end Building

/-! ### Any order -/

namespace Layout

variable {layout : Layout} {disk : Disk} {set : PackageSet} {files : List (Path × String)}

/-- The files of a loaded set, shown with their texts in any order, make the overlay of the set,
relabelled. -/
theorem insertAll_shown (sound : disk.root.isSound = true) (loaded : layout.load disk = .ok set)
    (each : (files.map Prod.fst).Perm set.tracked)
    (readable : ∀ file ∈ files, disk.read file.1 = .text file.2) :
    PathMap.empty.insertAll (files.map fun file => (file.1, SourceFile.ofEditor file.2)) =
      (Overlay.ofSet set).mapValues SourceFile.shown := by
  have wellFormed := PackageSet.wellFormed_load sound loaded
  have represents := Overlay.represents_ofSet wellFormed
  have tracked : set.tracked =
      (set.packages.flatMap fun package => package.files.entries).map Prod.fst := by
    rw [List.map_flatMap]
    rfl
  have distinct : (files.map fun file => (file.1, SourceFile.ofEditor file.2)).Pairwise
      fun left right => ¬ left.1.Same right.1 := by
    have paths : set.tracked.Pairwise fun left right => ¬ left.Same right := by
      rw [tracked]
      exact List.pairwise_map.mpr (Overlay.distinct_files wellFormed)
    rw [← each.pairwise_iff fun different same => different same.symm] at paths
    exact List.pairwise_map.mpr (List.pairwise_map.mp paths)
  -- A file that is shown and the loaded file of its path have one content.
  have content {file : Path × String} (member : file ∈ files) {package : Package}
      (packageMember : package ∈ set.packages) {entry : Path × SourceFile}
      (inFiles : entry ∈ package.files.entries) (same : entry.1 = file.1) :
      entry.2.shown = .ofEditor file.2 := by
    rw [PackageSet.content_of_mem_load sound loaded packageMember inFiles, same,
      readable file member]
    rfl
  refine PathMap.ext_of_mem fun entry => ?_
  rw [PathMap.mem_insertAll distinct fun _ _ => PathMap.contains_empty _, PathMap.mem_mapValues]
  simp only [PathMap.entries_empty, List.not_mem_nil, false_or, List.mem_map, represents.files]
  constructor
  · rintro ⟨file, member, rfl⟩
    obtain ⟨package, packageMember, old, inFiles, same⟩ :=
      (set.mem_tracked _).mp (each.mem_iff.mp (List.mem_map_of_mem member))
    refine ⟨old, ⟨package, packageMember, inFiles⟩, ?_⟩
    rw [content member packageMember inFiles same, same]
  · rintro ⟨old, ⟨package, packageMember, inFiles⟩, rfl⟩
    have inTracked := (set.mem_tracked old.1).mpr ⟨package, packageMember, old, inFiles, rfl⟩
    obtain ⟨file, member, same⟩ := List.mem_map.mp (each.mem_iff.mpr inTracked)
    refine ⟨file, member, ?_⟩
    rw [content member packageMember inFiles same.symm, same]

/-- On every disk with readable files, showing the files that loading tracks, each once and in any
order, succeeds and builds the packages that loading gives: the same ids in the same order, the same
directories, files, texts, names and errors. Only the origin of the files and the state of the
packages differ, so that the same diagnostics are fetched for every id. -/
theorem addFiles_rebuilds_load {entries : List (String × Node)}
    (sound : disk.root.isSound = true) (absolute : layout.root.isAbsolute = true)
    (root : disk.entry layout.root = .ok (.directory entries)) :
    ∃ set, layout.load disk = .ok set ∧
      ∀ files : List (Path × String), (files.map Prod.fst).Perm set.tracked →
        (∀ file ∈ files, disk.read file.1 = .text file.2) →
        ∃ built, layout.addFiles .empty files = .ok built ∧ set.ShownAs built ∧
          ∀ id, errorsOf built id = errorsOf set id := by
  obtain ⟨set, loaded, _⟩ := load_eq_ok root (Disk.isSound_of_entry sound root)
  refine ⟨set, loaded, fun files each readable => ?_⟩
  have wellFormed := PackageSet.wellFormed_load sound loaded
  have represents := Overlay.represents_ofSet wellFormed
  have clean : ∀ package ∈ set.packages, package.state = .clean := fun _ member =>
    PackageSet.state_of_mem_load sound loaded member
  have located : ∀ file ∈ files, ∃ place, layout.locate file.1 = .ok place := by
    intro file member
    obtain ⟨package, packageMember, old, inFiles, same⟩ :=
      (set.mem_tracked _).mp (each.mem_iff.mp (List.mem_map_of_mem member))
    rw [← same]
    refine (layout.exists_place_iff old.1).mpr ⟨package.id, ?_⟩
    exact (wellFormed.consistent package packageMember).located old.1
      (.inl (package.files.contains_of_mem inFiles))
  obtain ⟨built, succeeded, building⟩ := (Building.empty layout).addFiles located
  rw [insertAll_shown sound loaded each readable] at building
  exact ⟨built, succeeded, Building.shownAs absolute represents clean building,
    Building.errorsOf_eq_of_shown represents clean building⟩

/-- The second file comes first, and its clause fixes the name until the first file is there. -/
theorem addFiles_rebuilds_load_reversed :
    ∃ set built, (ofRoot ⟨"/.ws"⟩).load (.hidden twoFiles) = .ok set ∧
      (ofRoot ⟨"/.ws"⟩).addFiles .empty
        [(⟨"/.ws/b.gunk"⟩, "package other"), (⟨"/.ws/a.gunk"⟩, "package ws")] = .ok built ∧
      set.ShownAs built ∧ ∀ id, errorsOf built id = errorsOf set id := by
  obtain ⟨set, loaded, rebuilds⟩ := addFiles_rebuilds_load (by decide) (by decide)
    (show (Disk.hidden twoFiles).entry (ofRoot ⟨"/.ws"⟩).root = _ from Disk.entry_hidden twoFiles)
  obtain rfl := Except.ok.inj (loaded.symm.trans load_twoFiles)
  obtain ⟨built, rebuilt⟩ := rebuilds
    [(⟨"/.ws/b.gunk"⟩, "package other"), (⟨"/.ws/a.gunk"⟩, "package ws")] (by decide) (by
      intro file member
      simp only [List.mem_cons, List.not_mem_nil, or_false] at member
      rcases member with rfl | rfl
      · exact read_twoFiles.2
      · exact read_twoFiles.1)
  exact ⟨_, built, loaded, rebuilt⟩

end Layout

end WorkspaceSync
