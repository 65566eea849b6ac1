/-
This file shows that every request about documents keeps a package set well
formed.

In a well-formed set each file has its place in the package that tracks it, so
that looking for the package by directory and looking for it by its files come
to the same package. There, every successful request does one thing: it puts one
package back in with one of its files written or dropped (`Writes`). That this
keeps a set well formed is proved once, in `WellFormed.write`, and settling is
the only other step.
-/
import WorkspaceSync.Proofs.Analysis
import WorkspaceSync.Proofs.Loading
import WorkspaceSync.Sync.Engine

namespace WorkspaceSync

open Layout

/-! ### Well-formed sets -/

/-- The paths that a package tracks, or remembers for clearing, have their place in it. -/
structure Package.Placed (layout : Layout) (package : Package) : Prop where
  located : ∀ path, package.files.contains path = true ∨ package.removed.contains path = true →
    layout.home? path = some package.id
  disjoint : ∀ path, package.files.contains path = true → package.removed.contains path = false
  directory : layout.packageId package.directory = .ok package.id

/-- A placed package that has nothing to clear when it is clean, and whose name and errors are
those of its files. -/
structure Package.Consistent (layout : Layout) (package : Package) : Prop
    extends package.Placed layout where
  clean : package.state = .clean → package.removed = .empty ∧ package.files.isEmpty = false
  analyzed : package.analyzed = package

/-- The errors of a package are on its files as these are spelled there. -/
theorem Package.Consistent.file_mem_paths {layout : Layout} {package : Package}
    (consistent : package.Consistent layout) {diagnostic : Diagnostic}
    (member : diagnostic ∈ package.errors) : diagnostic.file ∈ package.files.paths := by
  have errors : (Analysis.run none package.files.entries).2 = package.errors :=
    congrArg Package.errors consistent.analyzed
  rw [← errors] at member
  obtain ⟨entry, inFiles, same⟩ := Analysis.exists_of_mem_run member
  rw [same]
  exact List.mem_map_of_mem inFiles

theorem Package.Consistent.contains_of_mem_errors {layout : Layout} {package : Package}
    (consistent : package.Consistent layout) {diagnostic : Diagnostic}
    (member : diagnostic ∈ package.errors) : package.files.contains diagnostic.file = true := by
  obtain ⟨entry, inFiles, same⟩ := List.mem_map.mp (consistent.file_mem_paths member)
  rw [← same]
  exact package.files.contains_of_mem inFiles

/-- The paths that the packages of a set track. -/
def PackageSet.tracked (set : PackageSet) : List Path :=
  set.packages.flatMap fun package => package.files.paths

theorem PackageSet.mem_tracked (set : PackageSet) (path : Path) :
    path ∈ set.tracked ↔
      ∃ package ∈ set.packages, ∃ file ∈ package.files.entries, file.1 = path := by
  simp only [tracked, List.mem_flatMap, PathMap.paths, List.mem_map]

/-- What every reachable set satisfies. -/
structure PackageSet.WellFormed (layout : Layout) (set : PackageSet) : Prop where
  sorted : set.Sorted
  consistent : ∀ package ∈ set.packages, package.Consistent layout

namespace PackageSet

variable {layout : Layout} {set : PackageSet}

theorem wellFormed_empty (layout : Layout) : empty.WellFormed layout :=
  ⟨List.Pairwise.nil, fun _ member => absurd member List.not_mem_nil⟩

theorem wellFormed_load {disk : Disk} (sound : disk.root.isSound = true)
    (loaded : layout.load disk = .ok set) : set.WellFormed layout := by
  obtain ⟨tree, treeSound, sorted, members⟩ := exists_tree_of_load sound loaded
  refine ⟨sorted, fun package member => ?_⟩
  have home (path : Path) (present : package.files.contains path = true) :
      layout.home? path = some package.id :=
    (home?_of_meets treeSound ((members package).mp member) present).1
  obtain ⟨names, entries, _, reached, rfl, nonempty⟩ := (members package).mp member
  refine ⟨⟨fun path present => ?_, fun path _ => rfl, ?_⟩, fun _ => ⟨rfl, nonempty⟩, rfl⟩
  · rcases present with inFiles | inRemoved
    · exact home path inFiles
    · exact absurd inRemoved (Bool.not_eq_true _ ▸ PathMap.contains_empty path)
  · exact layout.packageId_along (Node.isSound_of_descend? treeSound reached).2

/-- Every loaded package is clean. -/
theorem state_of_mem_load {disk : Disk} (sound : disk.root.isSound = true)
    (loaded : layout.load disk = .ok set) {package : Package} (member : package ∈ set.packages) :
    package.state = .clean := by
  obtain ⟨_, _, _, members⟩ := exists_tree_of_load sound loaded
  obtain ⟨_, _, _, _, rfl, _⟩ := (members package).mp member
  rfl

/-- Every loaded file has what reading it gives. -/
theorem content_of_mem_load {disk : Disk} (sound : disk.root.isSound = true)
    (loaded : layout.load disk = .ok set) {package : Package} (member : package ∈ set.packages)
    {file : Path × SourceFile} (inFiles : file ∈ package.files.entries) :
    file.2 = .ofReading (disk.read file.1) := by
  obtain ⟨_, treeSound, _, members⟩ := exists_tree_of_load sound loaded
  obtain ⟨names, entries, _, reached, rfl, _⟩ := (members package).mp member
  obtain ⟨_, _, _, _, _, rfl⟩ := (mem_files_packageAt treeSound reached file).mp inFiles
  rfl

/-- Each path is tracked by at most one package. -/
theorem WellFormed.eq_of_contains (wellFormed : set.WellFormed layout) {left right : Package}
    {path : Path} (leftMember : left ∈ set.packages) (rightMember : right ∈ set.packages)
    (leftPresent : left.files.contains path = true ∨ left.removed.contains path = true)
    (rightPresent : right.files.contains path = true ∨ right.removed.contains path = true) :
    left = right := by
  have leftHome := (wellFormed.consistent left leftMember).located path leftPresent
  have rightHome := (wellFormed.consistent right rightMember).located path rightPresent
  rw [leftHome, Option.some_inj] at rightHome
  exact wellFormed.sorted.eq_of_id_eq leftMember rightMember rightHome

/-- The package that tracks a path is the one with the id of its place. -/
theorem WellFormed.ownerOf?_eq_some_iff (wellFormed : set.WellFormed layout) (path : Path)
    (owner : Package) :
    set.ownerOf? path = some owner ↔ owner ∈ set.packages ∧ owner.files.contains path = true := by
  refine ⟨mem_of_ownerOf?, fun ⟨member, present⟩ => ?_⟩
  cases found : set.ownerOf? path with
  | none =>
    exact absurd present (by simp [(ownerOf?_eq_none_iff set path).mp found owner member])
  | some other =>
    obtain ⟨otherMember, otherPresent⟩ := mem_of_ownerOf? found
    rw [wellFormed.eq_of_contains otherMember member (.inl otherPresent) (.inl present)]

end PackageSet

/-! ### Writing one file of a package -/

namespace Package

/-- The package with one of its files written, or dropped if there is no content: dirty and
analysed anew. -/
def written (package : Package) (path : Path) : Option SourceFile → Package
  | some file =>
    touched
      { package with
        removed := package.removed.erase path
        files := package.files.insert path file }
  | none =>
    touched
      { package with
        files := package.files.erase path
        removed := package.removed.insert path () }

variable (package : Package) (path other : Path) (content : Option SourceFile)

@[simp] theorem written_id : (package.written path content).id = package.id := by
  cases content <;> rfl

@[simp] theorem written_directory :
    (package.written path content).directory = package.directory := by
  cases content <;> rfl

@[simp] theorem written_state : (package.written path content).state = .dirty := by
  cases content <;> rfl

theorem written_analyzed :
    (package.written path content).analyzed = package.written path content := by
  cases content <;> rfl

theorem written_files :
    (package.written path content).files = package.files.write path content := by
  cases content <;> rfl

theorem contains_files_written :
    (package.written path content).files.contains other = true ↔
      if other.Same path then content.isSome = true else package.files.contains other = true := by
  rw [written_files, PathMap.contains_write]

theorem contains_removed_written :
    (package.written path content).removed.contains other = true ↔
      if other.Same path then content.isNone = true else package.removed.contains other = true := by
  cases content with
  | none =>
    refine (PathMap.contains_insert package.removed path other ()).trans ?_
    by_cases same : other.Same path <;> simp [same]
  | some file =>
    refine (PathMap.contains_erase package.removed path other).trans ?_
    by_cases same : other.Same path <;> simp [same]

/-- A package with a file of its own written is placed as before. -/
theorem placed_written {layout : Layout} {package : Package} (placed : package.Placed layout)
    {path : Path} (home : layout.home? path = some package.id) (content : Option SourceFile) :
    (package.written path content).Placed layout where
  located := by
    intro other present
    rw [contains_files_written, contains_removed_written] at present
    rw [written_id]
    by_cases same : other.Same path
    · rw [layout.home?_congr same, home]
    · simp only [same, if_false] at present
      exact placed.located other present
  disjoint := by
    intro other present
    rw [← Bool.not_eq_true]
    rw [contains_files_written] at present
    rw [contains_removed_written]
    by_cases same : other.Same path
    · simp only [same, if_true] at present ⊢
      simp [Option.isSome_iff_ne_none.mp present]
    · simp only [same, if_false] at present ⊢
      simp [placed.disjoint other present]
  directory := by
    rw [written_id, written_directory]
    exact placed.directory

/-- A package without files is placed in its directory. -/
theorem placed_new {layout : Layout} {id : PackageId} {directory : Path}
    (home : layout.packageId directory = .ok id) : (Package.new id directory).Placed layout where
  located := by
    intro path present
    exact absurd present (by simp [Package.new, PathMap.contains_empty])
  disjoint := fun path _ => rfl
  directory := home

end Package

namespace PackageSet

variable {layout : Layout} {set : PackageSet}

/-- Putting a package in with one file of its own written keeps a set well formed. -/
theorem WellFormed.write (wellFormed : set.WellFormed layout) {package : Package}
    (placed : package.Placed layout) {path : Path} (home : layout.home? path = some package.id)
    (content : Option SourceFile) :
    (set.upsert (package.written path content)).WellFormed layout := by
  refine ⟨sorted_upsert wellFormed.sorted _, fun other member => ?_⟩
  rcases (mem_upsert wellFormed.sorted _ other).mp member with rfl | ⟨kept, _⟩
  · exact ⟨Package.placed_written placed home content, fun state => absurd state (by simp),
      package.written_analyzed path content⟩
  · exact wellFormed.consistent other kept

theorem WellFormed.settle (wellFormed : set.WellFormed layout) (id : PackageId) :
    (set.settle id).WellFormed layout := by
  refine ⟨sorted_settle wellFormed.sorted id, fun other member => ?_⟩
  rcases (mem_settle wellFormed.sorted id other).mp member with
    ⟨kept, _⟩ | ⟨old, oldMember, _, remains⟩
  · exact wellFormed.consistent other kept
  · obtain ⟨nonempty, rfl⟩ := (Package.remainder?_eq_some_iff old other).mp remains
    have consistent := wellFormed.consistent old oldMember
    refine ⟨⟨fun path present => ?_, fun path _ => rfl, consistent.directory⟩,
      fun _ => ⟨rfl, nonempty⟩, ?_⟩
    · rcases present with inFiles | inRemoved
      · exact consistent.located path (.inl inFiles)
      · exact absurd inRemoved (Bool.not_eq_true _ ▸ PathMap.contains_empty path)
    · show old.analyzed.settled = old.settled
      rw [consistent.analyzed]

end PackageSet

/-! ### Requests -/

namespace Layout

variable {layout : Layout} {set : PackageSet}

/-- The package that a file with a place is to be written in: the one with the id of the place, or
a new one. -/
def homeFor (set : PackageSet) (id : PackageId) (directory : Path) : Package :=
  (set.get? id).getD (.new id directory)

theorem homeFor_id (set : PackageSet) (id : PackageId) (directory : Path) :
    (homeFor set id directory).id = id := by
  unfold homeFor
  cases found : set.get? id with
  | none => rfl
  | some package => exact PackageSet.get?_id found

theorem placed_homeFor (wellFormed : set.WellFormed layout) {id : PackageId} {directory : Path}
    (home : layout.packageId directory = .ok id) : (homeFor set id directory).Placed layout := by
  unfold homeFor
  cases found : set.get? id with
  | none => exact Package.placed_new home
  | some package => exact (wellFormed.consistent package (PackageSet.mem_of_get? found)).toPlaced

/-- Showing a file writes it in the package of its place. -/
theorem addFile_eq (sorted : set.Sorted) (path : Path) (text : String) :
    layout.addFile set path text =
      match layout.locate path with
      | .error error => .error error
      | .ok (id, directory) =>
        .ok (set.upsert ((homeFor set id directory).written path (some (.ofEditor text))),
          ⟨id, (set.get? id).isNone⟩) := by
  unfold addFile homeFor
  cases layout.locate path with
  | error error => rfl
  | ok place =>
    obtain ⟨id, directory⟩ := place
    simp only
    cases found : set.get? id with
    | none => rfl
    | some package =>
      have equal : set.modify id (fun package => package.written path (some (.ofEditor text))) =
          set.upsert (package.written path (some (.ofEditor text))) :=
        PackageSet.modify_eq_upsert sorted found fun _ => rfl
      rw [Option.getD_some, ← equal]
      rfl

/-- What becomes of a file that is closed, by what reading it from the disk gives. -/
def contentOf? : Reading → Option SourceFile
  | .text text => some { text, origin := .disk, readError := none }
  | .absent => none
  | .failed reason => some { text := "", origin := .disk, readError := some reason }

/-- A tracked file is not remembered as removed, so that writing it has nothing to forget. -/
theorem written_of_contains {package : Package} (placed : package.Placed layout) {path : Path}
    (present : package.files.contains path = true) (file : SourceFile) :
    package.written path (some file) =
      touched { package with files := package.files.insert path file } := by
  rw [Package.written, PathMap.erase_of_not_contains (placed.disjoint path present)]

/-- Changing the owner of a path is putting the changed owner in. -/
theorem modify_owner (wellFormed : set.WellFormed layout) {path : Path} {owner : Package}
    (found : set.ownerOf? path = some owner) {change : Package → Package}
    (sameId : ∀ package, (change package).id = package.id) :
    set.modify owner.id change = set.upsert (change owner) := by
  have member := (PackageSet.mem_of_ownerOf? found).1
  have self := (wellFormed.sorted.get?_eq_some_iff owner.id owner).mpr ⟨member, rfl⟩
  exact PackageSet.modify_eq_upsert wellFormed.sorted self sameId

/-- Replacing the text of a file writes it in the package that tracks it. -/
theorem updateFile_eq (wellFormed : set.WellFormed layout) (path : Path) (text : String) :
    updateFile set path text =
      match set.ownerOf? path with
      | none => .error (.unknownFile path)
      | some owner => .ok (set.upsert (owner.written path (some (.ofEditor text)))) := by
  unfold updateFile
  cases found : set.ownerOf? path with
  | none => rfl
  | some owner =>
    obtain ⟨member, present⟩ := PackageSet.mem_of_ownerOf? found
    have placed := (wellFormed.consistent owner member).toPlaced
    have equal := modify_owner wellFormed found fun package =>
      (rfl : (touched { package with
        files := package.files.insert path (.ofEditor text) }).id = package.id)
    simp only [written_of_contains placed present, equal]

theorem touched_revert {package : Package} (placed : package.Placed layout) {path : Path}
    (present : package.files.contains path = true) (reading : Reading) :
    touched (revert path reading package) = package.written path (contentOf? reading) := by
  cases reading with
  | text text => exact (written_of_contains placed present (.ofDisk text)).symm
  | absent => rfl
  | failed reason => exact (written_of_contains placed present (.unreadable reason)).symm

/-- Closing a file writes it in the package that tracks it, or drops it there. -/
theorem closeFile_eq (wellFormed : set.WellFormed layout) (read : Path → Reading) (path : Path) :
    closeFile read set path =
      match set.ownerOf? path with
      | none => .error (.unknownFile path)
      | some owner => .ok (set.upsert (owner.written path (contentOf? (read path)))) := by
  unfold closeFile
  cases found : set.ownerOf? path with
  | none => rfl
  | some owner =>
    obtain ⟨member, present⟩ := PackageSet.mem_of_ownerOf? found
    have placed := (wellFormed.consistent owner member).toPlaced
    have sameId (package : Package) :
        (touched (revert path (read path) package)).id = package.id := by
      cases read path <;> rfl
    simp only
    rw [modify_owner wellFormed found sameId, touched_revert placed present]

/-! ### One file written -/

/-- From one set to the next, one file was written in the package of its place, or dropped there. -/
def Writes (layout : Layout) (set next : PackageSet) : Prop :=
  ∃ id directory path content,
    layout.packageId directory = .ok id ∧ layout.home? path = some id ∧
      next = set.upsert ((homeFor set id directory).written path content)

/-- From one set to the next, the path was written in the package of its place, or dropped there if
there is no content. -/
def WritesAt (layout : Layout) (set next : PackageSet) (path : Path)
    (content : Option SourceFile) : Prop :=
  ∃ id directory, layout.packageId directory = .ok id ∧ layout.home? path = some id ∧
    next = set.upsert ((homeFor set id directory).written path content)

variable {next : PackageSet} {path : Path}

theorem WritesAt.writes {content : Option SourceFile}
    (writes : layout.WritesAt set next path content) : layout.Writes set next := by
  obtain ⟨id, directory, place, home, equal⟩ := writes
  exact ⟨id, directory, path, content, place, home, equal⟩

theorem Writes.wellFormed (writes : layout.Writes set next) (wellFormed : set.WellFormed layout) :
    next.WellFormed layout := by
  obtain ⟨id, directory, path, content, place, home, rfl⟩ := writes
  refine wellFormed.write (placed_homeFor wellFormed place) ?_ content
  rwa [homeFor_id]

theorem writesAt_addFile (wellFormed : set.WellFormed layout) {text : String} {added : Added}
    (succeeded : layout.addFile set path text = .ok (next, added)) :
    layout.WritesAt set next path (some (.ofEditor text)) := by
  rw [addFile_eq wellFormed.sorted] at succeeded
  cases located : layout.locate path with
  | error error =>
    rw [located] at succeeded
    exact nomatch succeeded
  | ok place =>
    obtain ⟨id, directory⟩ := place
    simp only [located, Except.ok.injEq, Prod.mk.injEq] at succeeded
    exact ⟨id, directory, packageId_of_locate located,
      (layout.home?_eq_some_iff path id).mpr ⟨directory, located⟩, succeeded.1.symm⟩

/-- The package that tracks a path is the one of its place. -/
theorem writesAt_owner (wellFormed : set.WellFormed layout) {owner : Package}
    (found : set.ownerOf? path = some owner) (content : Option SourceFile) :
    layout.WritesAt set (set.upsert (owner.written path content)) path content := by
  obtain ⟨member, present⟩ := PackageSet.mem_of_ownerOf? found
  have consistent := wellFormed.consistent owner member
  have self := (wellFormed.sorted.get?_eq_some_iff owner.id owner).mpr ⟨member, rfl⟩
  refine ⟨owner.id, owner.directory, consistent.directory,
    consistent.located path (.inl present), ?_⟩
  rw [homeFor, self, Option.getD_some]

theorem writesAt_updateFile (wellFormed : set.WellFormed layout) {text : String}
    (succeeded : updateFile set path text = .ok next) :
    layout.WritesAt set next path (some (.ofEditor text)) := by
  rw [updateFile_eq wellFormed] at succeeded
  cases found : set.ownerOf? path with
  | none =>
    rw [found] at succeeded
    exact nomatch succeeded
  | some owner =>
    rw [found] at succeeded
    obtain rfl := Except.ok.inj succeeded
    exact writesAt_owner wellFormed found _

theorem writesAt_closeFile (wellFormed : set.WellFormed layout) {read : Path → Reading}
    (succeeded : closeFile read set path = .ok next) :
    layout.WritesAt set next path (contentOf? (read path)) := by
  rw [closeFile_eq wellFormed] at succeeded
  cases found : set.ownerOf? path with
  | none =>
    rw [found] at succeeded
    exact nomatch succeeded
  | some owner =>
    rw [found] at succeeded
    obtain rfl := Except.ok.inj succeeded
    exact writesAt_owner wellFormed found _

/-! ### Reachable sets -/

/-- The sets that loading, or the empty set, leads to: any requests about documents that succeed,
with whatever reading the disk gives, and settlings of any packages, in any order. -/
inductive Reachable (layout : Layout) : PackageSet → Prop
  | empty : Reachable layout .empty
  | loaded {disk : Disk} {set : PackageSet} (sound : disk.root.isSound = true)
      (succeeded : layout.load disk = .ok set) : Reachable layout set
  | added {set next : PackageSet} {path : Path} {text : String} {added : Added}
      (before : Reachable layout set)
      (succeeded : layout.addFile set path text = .ok (next, added)) : Reachable layout next
  | updated {set next : PackageSet} {path : Path} {text : String}
      (before : Reachable layout set)
      (succeeded : updateFile set path text = .ok next) : Reachable layout next
  | closed {set next : PackageSet} {path : Path} (read : Path → Reading)
      (before : Reachable layout set)
      (succeeded : closeFile read set path = .ok next) : Reachable layout next
  | settled {set : PackageSet} (before : Reachable layout set) (id : PackageId) :
      Reachable layout (set.settle id)

theorem Reachable.wellFormed (reachable : layout.Reachable set) : set.WellFormed layout := by
  induction reachable with
  | empty => exact PackageSet.wellFormed_empty layout
  | loaded sound succeeded => exact PackageSet.wellFormed_load sound succeeded
  | added _ succeeded inductionHypothesis =>
    exact (writesAt_addFile inductionHypothesis succeeded).writes.wellFormed inductionHypothesis
  | updated _ succeeded inductionHypothesis =>
    exact (writesAt_updateFile inductionHypothesis succeeded).writes.wellFormed inductionHypothesis
  | closed _ _ succeeded inductionHypothesis =>
    exact (writesAt_closeFile inductionHypothesis succeeded).writes.wellFormed inductionHypothesis
  | settled _ id inductionHypothesis => exact inductionHypothesis.settle id

/-- Once a file is written in its owner, the package with the owner's id has the content. -/
theorem exists_package_written (wellFormed : set.WellFormed layout) (owner : Package)
    (content : Option SourceFile) :
    ∃ package, (set.upsert (owner.written path content)).get? owner.id = some package ∧
      package.files.find? path = content := by
  refine ⟨owner.written path content, ?_, ?_⟩
  · have self := PackageSet.get?_upsert_self wellFormed.sorted (owner.written path content)
    rwa [Package.written_id] at self
  · rw [Package.written_files, PathMap.find?_write_self]

/-- Every reachable set is well formed. Each path that a package tracks or remembers has its place
in that package and thus in no other, and looking for the owner of a path by its id gives the owner,
so that no change to a tracked file is lost: it is found in the owner afterwards. -/
theorem representation_of_reachable (reachable : layout.Reachable set) :
    set.WellFormed layout ∧
      (∀ package ∈ set.packages, ∀ path,
        package.files.contains path = true ∨ package.removed.contains path = true →
          ∃ directory, layout.locate path = .ok (package.id, directory)) ∧
      (∀ path, ∀ left ∈ set.packages, ∀ right ∈ set.packages,
        left.files.contains path = true ∨ left.removed.contains path = true →
        right.files.contains path = true ∨ right.removed.contains path = true →
          left = right) ∧
      ∀ path owner, set.ownerOf? path = some owner →
        set.get? owner.id = some owner ∧
        (∀ text, ∃ next package, updateFile set path text = .ok next ∧
          next.get? owner.id = some package ∧
          package.files.find? path = some { text, origin := .editor, readError := none }) ∧
        ∀ read, ∃ next package, closeFile read set path = .ok next ∧
          next.get? owner.id = some package ∧
          package.files.find? path = contentOf? (read path) := by
  have wellFormed := reachable.wellFormed
  refine ⟨wellFormed, ?_, ?_, ?_⟩
  · intro package member path present
    have home := (wellFormed.consistent package member).located path present
    exact (layout.home?_eq_some_iff path package.id).mp home
  · intro path left leftMember right rightMember leftPresent rightPresent
    exact wellFormed.eq_of_contains leftMember rightMember leftPresent rightPresent
  · intro path owner found
    have member := (PackageSet.mem_of_ownerOf? found).1
    refine ⟨(wellFormed.sorted.get?_eq_some_iff owner.id owner).mpr ⟨member, rfl⟩, ?_, ?_⟩
    · intro text
      obtain ⟨package, got, content⟩ := exists_package_written wellFormed owner
        (some { text, origin := .editor, readError := none })
      refine ⟨_, package, ?_, got, content⟩
      rw [updateFile_eq wellFormed, found]
      rfl
    · intro read
      obtain ⟨package, got, content⟩ := exists_package_written wellFormed owner
        (contentOf? (read path))
      refine ⟨_, package, ?_, got, content⟩
      rw [closeFile_eq wellFormed, found]

/-- A package that lost its only file, closed under another spelling after the disk lost it, is
reachable: it is kept until the file is cleared. -/
theorem representation_of_emptied :
    ∃ set, (ofRoot ⟨"/ws"⟩).Reachable set ∧ set.WellFormed (ofRoot ⟨"/ws"⟩) ∧
      set.packages.map (fun package => (package.id, package.files.paths, package.removed.paths)) =
        [(⟨"api"⟩, [], [⟨"/ws/api/./a.gunk"⟩])] := by
  obtain ⟨shown, added, last, opened, closed, equal⟩ :
      ∃ shown added last,
        (ofRoot ⟨"/ws"⟩).addFile .empty ⟨"/ws/api/a.gunk"⟩ "package api" = .ok (shown, added) ∧
        closeFile (fun _ => .absent) shown ⟨"/ws/api/./a.gunk"⟩ = .ok last ∧
        last.packages.map
            (fun package => (package.id, package.files.paths, package.removed.paths)) =
          [(⟨"api"⟩, [], [⟨"/ws/api/./a.gunk"⟩])] :=
    ⟨_, _, _, rfl, rfl, by decide⟩
  have reachable : (ofRoot ⟨"/ws"⟩).Reachable last :=
    .closed (fun _ => .absent) (.added .empty opened) closed
  exact ⟨last, reachable, (representation_of_reachable reachable).1, equal⟩

end Layout

/-! ### Engines -/

/-- The document that an event is about. -/
def Event.path : Event → Path
  | .opened path _ | .updated path _ | .updateRejected path | .closed path => path

/-- What an accepted event writes for its document, given what reading from the disk gives. -/
def Event.content? (read : Path → Reading) : Event → Option SourceFile
  | .opened _ text | .updated _ text => some { text, origin := .editor, readError := none }
  | .updateRejected _ => none
  | .closed path => contentOf? (read path)

namespace Engine

/-- An event that is accepted writes its document in the package of its place. -/
theorem writesAt_register {engine : Engine}
    (wellFormed : engine.packages.WellFormed engine.layout) {read : Path → Reading} {event : Event}
    {packages : PackageSet} (registered : engine.register read event = .ok packages) :
    engine.layout.WritesAt engine.packages packages event.path (event.content? read) := by
  unfold register at registered
  cases event with
  | opened path text =>
    cases request : engine.layout.addFile engine.packages path text with
    | error cause =>
      simp only [request] at registered
      exact nomatch registered
    | ok result =>
      simp only [request] at registered
      obtain rfl := Except.ok.inj registered
      exact writesAt_addFile wellFormed request
  | updated path text =>
    cases request : updateFile engine.packages path text with
    | error cause =>
      simp only [request] at registered
      exact nomatch registered
    | ok next =>
      simp only [request] at registered
      obtain rfl := Except.ok.inj registered
      exact writesAt_updateFile wellFormed request
  | updateRejected path => exact nomatch registered
  | closed path =>
    cases request : closeFile read engine.packages path with
    | error cause =>
      simp only [request] at registered
      exact nomatch registered
    | ok next =>
      simp only [request] at registered
      obtain rfl := Except.ok.inj registered
      exact writesAt_closeFile wellFormed request

theorem load_packages {engine : Engine} {addressing : Addressing} {session : Session}
    {connect : Path → Layout} {disk : Disk}
    (loaded : load addressing session connect disk = .ok engine) :
    engine.layout.load disk = .ok engine.packages := by
  unfold load at loaded
  split at loaded
  · exact nomatch loaded
  · simp only at loaded
    split at loaded
    · exact nomatch loaded
    · next read =>
      obtain rfl := Except.ok.inj loaded
      exact read

/-- Handling an event keeps the session and the rules. -/
theorem frame_handle (engine : Engine) (world : World) (event : Event) :
    (engine.handle world event).1.session = engine.session ∧
      (engine.handle world event).1.layout = engine.layout := by
  unfold handle
  cases engine.register world.read event <;> exact ⟨rfl, rfl⟩

end Engine

end WorkspaceSync
