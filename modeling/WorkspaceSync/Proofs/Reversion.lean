/-
This file shows that closing documents takes an engine back to what it loaded.

Loading asks the directories which files there are, closing asks the disk for one
path. On a disk without links the two agree about files and about paths that
lead nowhere: a file with a place was loaded, and what was loaded can be found.
So along a run in which only such paths are opened, the overlay differs from the
loaded one in the documents of the editor only (`Shadows`), and without any of
these it is the loaded one.

The two do not agree about directories and about what lies below a file: neither
was loaded, and yet closing does not take them for gone.
-/
import WorkspaceSync.Proofs.Locality
import WorkspaceSync.Proofs.Walk

namespace WorkspaceSync

open Layout
open WorkspaceSync.Path (IsName Component)

/-! ### What loading found -/

/-- A path that leads to a file, or nowhere for want of an entry. -/
def Disk.IsPlain (disk : Disk) (path : Path) : Prop :=
  (∃ content, disk.entry path = .ok (.file content)) ∨ disk.entry path = .error .notFound

namespace Layout

variable {layout : Layout} {disk : Disk} {set : PackageSet} {path : Path}

/-- A path with a place goes on from the root along names. -/
theorem exists_names_of_locate (absolute : layout.root.isAbsolute = true) {id : PackageId}
    {directory : Path} (located : layout.locate path = .ok (id, directory)) :
    ∃ names : List String, (∀ name ∈ names, IsName name.toList) ∧
      path.components = layout.root.components ++ (names.map String.toList).map .entry := by
  obtain ⟨source, parent, names, below, _, _⟩ :=
    (locate_eq_ok_iff layout path id directory).mp located
  have extension : path.extension? = some layout.extension.toList := by
    simpa [isSource] using source
  obtain ⟨last, named, _⟩ := Option.bind_eq_some_iff.mp extension
  obtain ⟨before, shape⟩ := (Path.fileName?_eq_some_iff path last).mp named
  have directoryComponents := Path.components_parent? parent
  rw [shape, List.dropLast_concat, components_of_namesBelow? absolute below] at directoryComponents
  have components : path.components =
      layout.root.components ++ (names ++ [last]).map .entry := by
    rw [shape, ← directoryComponents, List.map_append, List.append_assoc]
    rfl
  have characters : ((names ++ [last]).map String.ofList).map String.toList = names ++ [last] := by
    simp [Function.comp_def]
  refine ⟨(names ++ [last]).map String.ofList, fun name member => ?_,
    by rw [characters, components]⟩
  have inNames : name.toList ∈ names ++ [last] := by
    rw [← characters]
    exact List.mem_map_of_mem member
  have inPath : Component.entry name.toList ∈ path.components := by
    rw [components]
    exact List.mem_append_right _ (List.mem_map_of_mem inNames)
  exact Path.isName_of_entry_mem inPath

theorem isAbsolute_of_below (absolute : layout.root.isAbsolute = true) {rest : List Component}
    (below : path.components = layout.root.components ++ rest) : path.isAbsolute = true := by
  rw [Path.isAbsolute_iff] at absolute ⊢
  rw [below, List.head?_append, absolute]
  rfl

/-- A file that has a place was loaded. -/
theorem contains_of_entry (sound : disk.root.isSound = true)
    (linkFree : disk.root.isLinkFree = true) (absolute : layout.root.isAbsolute = true)
    (loaded : layout.load disk = .ok set) {place : PackageId × Path}
    (located : layout.locate path = .ok place) {content : ByteArray}
    (found : disk.entry path = .ok (.file content)) :
    ∃ package ∈ set.packages, package.files.contains path = true := by
  obtain ⟨entries, root, treeSound, sorted, members⟩ := exists_entries_of_load sound loaded
  obtain ⟨names, isName, below⟩ := exists_names_of_locate absolute located
  have reached := Disk.descend?_of_entry linkFree absolute (isAbsolute_of_below absolute below)
    isName below root found
  have same : path.Same (layout.root.along names) := by
    rw [Path.same_iff, below, Path.components_along layout.root isName]
  have leads : layout.Leads (.directory entries) names path := ⟨same, _, reached, rfl⟩
  obtain ⟨package, member, _, lookup, _⟩ :=
    exists_owner_of_leads treeSound sorted members leads located
  refine ⟨package, member, ?_⟩
  rw [PathMap.contains_eq_isSome, lookup]
  rfl

/-- What was loaded can be found under the path that it was loaded with. -/
theorem read_of_mem_load (sound : disk.root.isSound = true)
    (linkFree : disk.root.isLinkFree = true) (absolute : layout.root.isAbsolute = true)
    (loaded : layout.load disk = .ok set) {package : Package} (member : package ∈ set.packages)
    {file : Path × SourceFile} (inFiles : file ∈ package.files.entries) :
    file.1.isAbsolute = true ∧ file.1.EndsInName ∧ disk.read file.1 ≠ .absent := by
  obtain ⟨entries, root, treeSound, _, members⟩ := exists_entries_of_load sound loaded
  obtain ⟨names, inner, _, homeReached, rfl, _⟩ := (members package).mp member
  obtain ⟨last, child, reached, leaf, _, rfl⟩ :=
    (mem_files_packageAt treeSound homeReached file).mp inFiles
  have isName := (Node.isSound_of_descend? treeSound reached).2
  have below := Path.components_along layout.root isName
  have pathAbsolute := isAbsolute_of_below absolute below
  have ends : (layout.root.along (names ++ [last])).EndsInName := by
    rw [Path.along_concat]
    exact Path.endsInName_join _ (isName last (by simp))
  refine ⟨pathAbsolute, ends, ?_⟩
  rw [ne_eq, Disk.read_eq_absent_iff]
  rcases Disk.entry_of_descend? linkFree absolute pathAbsolute ends isName below root reached with
    found | nul | long
  · simp [found]
  · simp [nul]
  · simp [long]

end Layout

/-! ### Overlays that differ from the loaded one in documents only -/

theorem Layout.contentOf?_of_ne_absent {reading : Reading} (there : reading ≠ .absent) :
    contentOf? reading = some (.ofReading reading) := by
  cases reading with
  | absent => exact absurd rfl there
  | text text => rfl
  | failed reason => rfl

theorem Layout.origin_of_contentOf? {reading : Reading} {file : SourceFile}
    (content : contentOf? reading = some file) : file.origin = .disk := by
  cases reading with
  | absent => exact nomatch content
  | text text =>
    obtain rfl := Option.some_inj.mp content
    rfl
  | failed reason =>
    obtain rfl := Option.some_inj.mp content
    rfl

namespace Overlay

variable {layout : Layout} {read : Path → Reading} {loaded now : Overlay} {path : Path}

/-- No spelling of the path in normal form leads anywhere. -/
def Vacant (read : Path → Reading) (path : Path) : Prop :=
  ∀ other : Path, other.IsNormal → other.Same path → read other = .absent

/-- An overlay that differs from a loaded one in documents of the editor only: it keeps the loaded
paths, and where it has others, nothing is on the disk. -/
structure Shadows (read : Path → Reading) (loaded now : Overlay) : Prop where
  kept : ∀ entry ∈ loaded.entries, ∃ file, (entry.1, file) ∈ now.entries
  unshown : ∀ entry ∈ now.entries, entry.2.origin = .disk → entry ∈ loaded.entries
  vacant : ∀ entry ∈ now.entries, loaded.contains entry.1 = false → Vacant read entry.1

namespace Shadows

theorem refl (read : Path → Reading) (loaded : Overlay) : Shadows read loaded loaded where
  kept := fun entry member => ⟨entry.2, member⟩
  unshown := fun _ member _ => member
  vacant := fun entry member absent => by
    rw [loaded.contains_of_mem member] at absent
    exact nomatch absent

theorem eq_of_unshown (shadows : Shadows read loaded now)
    (unshown : ∀ entry ∈ now.entries, entry.2.origin ≠ .editor) : now = loaded := by
  have ofDisk : ∀ entry ∈ now.entries, entry ∈ loaded.entries := by
    intro entry member
    refine shadows.unshown entry member ?_
    cases origin : entry.2.origin with
    | disk => rfl
    | editor => exact absurd origin (unshown entry member)
  refine PathMap.ext_of_mem fun entry => ⟨ofDisk entry, fun member => ?_⟩
  obtain ⟨file, inNow⟩ := shadows.kept entry member
  rwa [loaded.entry_unique member (ofDisk _ inNow) (Path.Same.refl _)]

theorem spelling_eq (shadows : Shadows read loaded now) {entry : Path × SourceFile}
    (member : entry ∈ loaded.entries) (same : entry.1.Same path) :
    now.spelling path = entry.1 := by
  obtain ⟨file, inNow⟩ := shadows.kept entry member
  have spelled : now.spelling path = (entry.1, file).1 := now.spelling_of_mem inNow same
  exact spelled

/-- One path may be written without a loaded one being lost, if what is written is the editor's or
was loaded, and nothing is on the disk where nothing was loaded. -/
theorem write (shadows : Shadows read loaded now) {content : Option SourceFile}
    (kept : ∀ entry ∈ loaded.entries, entry.1.Same path → ∃ file, content = some file)
    (unshown : ∀ file, content = some file → file.origin = .disk →
      (now.spelling path, file) ∈ loaded.entries)
    (vacant : ∀ file, content = some file → loaded.contains (now.spelling path) = false →
      Vacant read (now.spelling path)) :
    Shadows read loaded (now.write path content) := by
  refine ⟨fun entry member => ?_, fun entry member origin => ?_, fun entry member absent => ?_⟩
  · obtain ⟨old, inNow⟩ := shadows.kept entry member
    by_cases same : entry.1.Same path
    · obtain ⟨file, isContent⟩ := kept entry member same
      refine ⟨file, (PathMap.mem_write _ _ _ _).mpr (.inr ⟨file, isContent, ?_⟩)⟩
      rw [shadows.spelling_eq member same]
    · exact ⟨old, (PathMap.mem_write _ _ _ _).mpr (.inl ⟨inNow, same⟩)⟩
  · rcases (PathMap.mem_write _ _ _ _).mp member with ⟨inNow, _⟩ | ⟨file, isContent, rfl⟩
    · exact shadows.unshown entry inNow origin
    · exact unshown file isContent origin
  · rcases (PathMap.mem_write _ _ _ _).mp member with ⟨inNow, _⟩ | ⟨file, isContent, rfl⟩
    · exact shadows.vacant entry inNow absent
    · exact vacant file isContent absent

theorem writeEditor (shadows : Shadows read loaded now)
    (known : now.contains path = true ∨ Vacant read path) (text : String) :
    Shadows read loaded (now.write path (some (.ofEditor text))) := by
  refine shadows.write (fun _ _ _ => ⟨_, rfl⟩) ?_ fun _ _ absent => ?_
  · intro file isContent origin
    obtain rfl := Option.some_inj.mp isContent
    exact nomatch origin
  · cases present : now.contains path with
    | true =>
      obtain ⟨old, inNow, same⟩ := (now.contains_iff path).mp present
      rw [now.spelling_of_mem inNow same] at absent ⊢
      exact shadows.vacant old inNow absent
    | false =>
      rw [now.spelling_of_not_contains present]
      exact known.resolve_left (by simp [present])

theorem writeDisk (shadows : Shadows read loaded now)
    (normal : loaded.contains path = false → path.IsNormal)
    (reverts : ∀ entry ∈ loaded.entries, entry.1.Same path →
      contentOf? (read path) = some entry.2)
    (present : now.contains path = true) :
    Shadows read loaded (now.write path (contentOf? (read path))) := by
  -- What is written is what was loaded, and nothing is written where nothing was loaded.
  have written (file : SourceFile) (content : contentOf? (read path) = some file) :
      (now.spelling path, file) ∈ loaded.entries := by
    obtain ⟨old, inNow, same⟩ := (now.contains_iff path).mp present
    cases wasLoaded : loaded.contains path with
    | true =>
      obtain ⟨entry, member, entrySame⟩ := (loaded.contains_iff path).mp wasLoaded
      rw [reverts entry member entrySame] at content
      obtain rfl := Option.some_inj.mp content
      rw [shadows.spelling_eq member entrySame]
      exact member
    | false =>
      have isNormal := normal wasLoaded
      rw [← loaded.contains_congr same] at wasLoaded
      rw [shadows.vacant old inNow wasLoaded path isNormal same.symm] at content
      exact nomatch content
  refine shadows.write (fun entry member same => ⟨_, reverts entry member same⟩)
    (fun file content _ => written file content) fun file content absent => ?_
  rw [loaded.contains_of_mem (written file content)] at absent
  exact nomatch absent

end Shadows

/-- An event after which an overlay still differs from the loaded one in documents only. -/
structure Admits (layout : Layout) (read : Path → Reading) (loaded : Overlay) (event : Event) :
    Prop where
  normal : loaded.contains event.path = false → event.path.IsNormal
  /-- Reading gives what was loaded. -/
  reverts : ∀ entry ∈ loaded.entries, entry.1.Same event.path →
    contentOf? (read event.path) = some entry.2
  /-- A path that is opened was loaded or leads nowhere. -/
  vacant : ∀ path text place, event = .opened path text → layout.locate path = .ok place →
    loaded.contains path = false → Vacant read path

theorem Shadows.contains (shadows : Shadows read loaded now)
    (present : loaded.contains path = true) : now.contains path = true := by
  obtain ⟨entry, member, same⟩ := (loaded.contains_iff path).mp present
  obtain ⟨file, inNow⟩ := shadows.kept entry member
  exact (now.contains_iff path).mpr ⟨_, inNow, same⟩

theorem Shadows.advance (shadows : Shadows read loaded now) {event : Event}
    (admits : Admits layout read loaded event) :
    Shadows read loaded (now.advance layout read event).1 := by
  unfold Overlay.advance step
  cases event with
  | opened path text =>
    cases located : layout.locate path with
    | error cause =>
      simp only [located]
      exact shadows
    | ok place =>
      simp only [located]
      refine shadows.writeEditor ?_ text
      cases wasLoaded : loaded.contains path with
      | true => exact .inl (shadows.contains wasLoaded)
      | false => exact .inr (admits.vacant path text place rfl located wasLoaded)
  | updated path text =>
    by_cases present : now.contains path = true
    · simp only [if_pos present]
      exact shadows.writeEditor (.inl present) text
    · simp only [if_neg present]
      exact shadows
  | updateRejected path => exact shadows
  | closed path =>
    by_cases present : now.contains path = true
    · simp only [if_pos present]
      exact shadows.writeDisk admits.normal admits.reverts present
    · simp only [if_neg present]
      exact shadows

/-- After a path was closed, the editor's documents are those it had elsewhere. -/
theorem mem_of_mem_closed {entry : Path × SourceFile}
    (member : entry ∈ (now.advance layout read (.closed path)).1.entries)
    (shown : entry.2.origin = .editor) : entry ∈ now.entries ∧ ¬ entry.1.Same path := by
  unfold Overlay.advance step at member
  by_cases present : now.contains path = true
  · simp only [if_pos present] at member
    rcases (PathMap.mem_write _ _ _ _).mp member with kept | ⟨file, content, rfl⟩
    · exact kept
    · rw [origin_of_contentOf? content] at shown
      exact nomatch shown
  · simp only [if_neg present] at member
    refine ⟨member, fun same => present ?_⟩
    exact (now.contains_iff path).mpr ⟨entry, member, same⟩

/-- After a row of closings, the editor's documents are those that were closed nowhere in it. -/
theorem mem_of_mem_after {closings : List (World × Event)}
    (closes : ∀ step ∈ closings, ∃ path, step.2 = .closed path) {entry : Path × SourceFile}
    (member : entry ∈ (now.after layout closings).entries) (shown : entry.2.origin = .editor) :
    entry ∈ now.entries ∧ ∀ step ∈ closings, ¬ entry.1.Same step.2.path := by
  induction closings generalizing now with
  | nil => exact ⟨member, fun _ absent => absurd absent List.not_mem_nil⟩
  | cons step later inductionHypothesis =>
    obtain ⟨world, event⟩ := step
    obtain ⟨⟨path, isClosing⟩, laterCloses⟩ := List.forall_mem_cons.mp closes
    obtain rfl : event = .closed path := isClosing
    obtain ⟨inNext, laterOpen⟩ := inductionHypothesis laterCloses member
    obtain ⟨inNow, different⟩ := mem_of_mem_closed inNext shown
    exact ⟨inNow, List.forall_mem_cons.mpr ⟨different, laterOpen⟩⟩

end Overlay

/-! ### Engines that stay close to what they loaded -/

namespace Engine

variable {engine : Engine} {overlay : Overlay} {read : Path → Reading} {loaded : PackageSet}

/-- An event leaves the packages in the directories where they were. -/
theorem InStep.directory_of_handle (inStep : engine.InStep overlay) {world : World}
    (calm : world.fetcher = Engine.fetcher) {event : Event} {old new : Package}
    (oldMember : old ∈ engine.packages.packages)
    (newMember : new ∈ (engine.handle world event).1.packages.packages) (sameId : new.id = old.id) :
    new.directory = old.directory := by
  have wellFormed := inStep.represents.wellFormed
  have self := (wellFormed.sorted.get?_eq_some_iff old.id old).mpr ⟨oldMember, rfl⟩
  cases registered : engine.register world.read event with
  | error error =>
    rw [handle_of_refused inStep.clean registered] at newMember
    rw [wellFormed.sorted.eq_of_id_eq newMember oldMember sameId]
  | ok packages =>
    obtain ⟨id, directory, _, _, equal, handled⟩ :=
      handle_of_accepted wellFormed inStep.clean calm registered
    have after := (writesAt_register wellFormed registered).writes.wellFormed wellFormed
    have inPackages (package : Package) (member : package ∈ packages.packages)
        (itsId : package.id = old.id) : package.directory = old.directory := by
      rw [equal, PackageSet.mem_upsert wellFormed.sorted] at member
      rcases member with rfl | ⟨kept, _⟩
      · rw [writtenBy_id] at itsId
        rw [writtenBy, Package.written_directory, homeFor, itsId, self, Option.getD_some]
      · rw [wellFormed.sorted.eq_of_id_eq kept oldMember itsId]
    rw [handled] at newMember
    rcases (PackageSet.mem_settle after.sorted id new).mp newMember with
      ⟨kept, _⟩ | ⟨before, member, _, remains⟩
    · exact inPackages new kept sameId
    · have itsId := (Package.remainder?_id remains).symm.trans sameId
      obtain ⟨_, rfl⟩ := (Package.remainder?_eq_some_iff before new).mp remains
      exact inPackages before member itsId

/-- An engine that is in step with an overlay which differs from the loaded one in documents of the
editor only, and that has the loaded packages in their directories. -/
structure Tethered (loaded : PackageSet) (read : Path → Reading) (engine : Engine)
    (overlay : Overlay) : Prop where
  inStep : engine.InStep overlay
  shadows : Overlay.Shadows read (.ofSet loaded) overlay
  lasting : ∀ old ∈ loaded.packages, ∃ new ∈ engine.packages.packages,
    new.id = old.id ∧ new.directory = old.directory

theorem Tethered.handle (tethered : engine.Tethered loaded read overlay)
    (wellFormed : loaded.WellFormed engine.layout)
    (clean : ∀ package ∈ loaded.packages, package.state = .clean) {world : World}
    (reads : world.read = read) (calm : world.fetcher = Engine.fetcher) {event : Event}
    (admits : Overlay.Admits engine.layout read (.ofSet loaded) event) :
    (engine.handle world event).1.Tethered loaded read
      (overlay.advance engine.layout read event).1 := by
  have inStep := (tethered.inStep.handle calm event).2
  rw [reads] at inStep
  have shadows := tethered.shadows.advance admits
  refine ⟨inStep, shadows, fun old oldMember => ?_⟩
  obtain ⟨middle, middleMember, sameId, sameDirectory⟩ := tethered.lasting old oldMember
  -- A file of the loaded package shows that there still is a package with its id.
  obtain ⟨file, inOld⟩ := PathMap.exists_mem_of_isEmpty_eq_false
    ((wellFormed.consistent old oldMember).clean (clean old oldMember)).2
  obtain ⟨inLoaded, home⟩ := ((Overlay.represents_ofSet wellFormed).owns oldMember file).mp inOld
  obtain ⟨content, inNext⟩ := shadows.kept file inLoaded
  obtain ⟨new, newMember, inNew⟩ := (inStep.represents.files _).mp inNext
  have newHome := ((inStep.represents.owns newMember _).mp inNew).2
  rw [(frame_handle engine world event).2] at newHome
  have newId : new.id = old.id := Option.some_inj.mp (newHome.symm.trans home)
  refine ⟨new, newMember, newId, ?_⟩
  rw [← sameDirectory]
  exact tethered.inStep.directory_of_handle calm middleMember newMember (newId.trans sameId.symm)

theorem Tethered.after (tethered : engine.Tethered loaded read overlay)
    (wellFormed : loaded.WellFormed engine.layout)
    (clean : ∀ package ∈ loaded.packages, package.state = .clean) {steps : List (World × Event)}
    (reads : ∀ step ∈ steps, step.1.read = read)
    (calm : ∀ step ∈ steps, step.1.fetcher = Engine.fetcher)
    (admits : ∀ step ∈ steps, Overlay.Admits engine.layout read (.ofSet loaded) step.2) :
    (engine.after steps).Tethered loaded read (overlay.after engine.layout steps) := by
  induction steps generalizing engine overlay with
  | nil => exact tethered
  | cons step later inductionHypothesis =>
    obtain ⟨stepReads, laterReads⟩ := List.forall_mem_cons.mp reads
    obtain ⟨stepCalm, laterCalm⟩ := List.forall_mem_cons.mp calm
    obtain ⟨stepAdmits, laterAdmits⟩ := List.forall_mem_cons.mp admits
    have sameLayout := (frame_handle engine step.1 step.2).2
    have next := inductionHypothesis
      (tethered.handle wellFormed clean stepReads stepCalm stepAdmits)
      (by rwa [sameLayout]) laterReads laterCalm (by rwa [sameLayout])
    rw [sameLayout, ← stepReads] at next
    rw [← stepReads]
    exact next

/-- An engine in step with the overlay that was loaded has the loaded packages. -/
theorem Tethered.packages_eq (tethered : engine.Tethered loaded read (.ofSet loaded))
    (wellFormed : loaded.WellFormed engine.layout)
    (clean : ∀ package ∈ loaded.packages, package.state = .clean) :
    engine.packages = loaded := by
  have sorted := tethered.inStep.represents.wellFormed.sorted
  have canonical := tethered.inStep.represents.map_respelled tethered.inStep.clean
  rw [← (Overlay.represents_ofSet wellFormed).map_respelled clean] at canonical
  have restored {old new : Package} (oldMember : old ∈ loaded.packages)
      (newMember : new ∈ engine.packages.packages)
      (same : Overlay.respelled engine.layout new = Overlay.respelled engine.layout old) :
      new = old := by
    obtain ⟨other, otherMember, otherId, sameDirectory⟩ := tethered.lasting old oldMember
    have newId : (Overlay.respelled engine.layout new).id =
        (Overlay.respelled engine.layout old).id := by rw [same]
    rw [sorted.eq_of_id_eq otherMember newMember (otherId.trans newId.symm)] at sameDirectory
    exact Overlay.eq_of_respelled_eq sameDirectory same
  refine sorted.ext_of_mem wellFormed.sorted fun package => ⟨fun member => ?_, fun member => ?_⟩
  · obtain ⟨old, oldMember, same⟩ := List.mem_map.mp (canonical ▸ List.mem_map_of_mem member)
    rwa [restored oldMember member same.symm]
  · obtain ⟨new, newMember, same⟩ := List.mem_map.mp (canonical.symm ▸ List.mem_map_of_mem member)
    rwa [← restored member newMember same]

/-! ### Closing all documents -/

/-- A step of a run over a disk that does not change. -/
structure Undisturbed (engine : Engine) (disk : Disk) (step : World × Event) : Prop where
  read : step.1.read = disk.read
  fetcher : step.1.fetcher = Engine.fetcher
  /-- The document is spelled in normal form or as a loaded file is. -/
  spelled : step.2.path.IsNormal ∨ step.2.path ∈ engine.packages.tracked
  /-- The limit on the length of paths does not tell the document from a loaded file. -/
  length : ∀ path ∈ engine.packages.tracked, path.Same step.2.path →
    (path.text.utf8ByteSize < 4096 ↔ step.2.path.text.utf8ByteSize < 4096)
  /-- What is opened is a file or is not there at all. -/
  plain : ∀ path text place, step.2 = .opened path text →
    engine.layout.locate path = .ok place → disk.IsPlain path

section Admission

variable {disk : Disk} {step : World × Event}

/-- Closing a document that was loaded finds what loading found. -/
theorem Undisturbed.reverts (undisturbed : engine.Undisturbed disk step)
    (sound : disk.root.isSound = true) (linkFree : disk.root.isLinkFree = true)
    (absolute : engine.layout.root.isAbsolute = true)
    (loading : engine.layout.load disk = .ok engine.packages) {package : Package}
    (member : package ∈ engine.packages.packages) {file : Path × SourceFile}
    (inFiles : file ∈ package.files.entries) (same : file.1.Same step.2.path) :
    contentOf? (disk.read step.2.path) = some file.2 := by
  obtain ⟨fileAbsolute, ends, there⟩ :=
    read_of_mem_load sound linkFree absolute loading member inFiles
  have documentEnds : step.2.path.EndsInName := by
    rcases undisturbed.spelled with normal | isTracked
    · exact normal.endsInName ((Path.isAbsolute_congr same).mp fileAbsolute)
    · obtain ⟨owner, ownerMember, other, inOwner, spelled⟩ :=
        (PackageSet.mem_tracked _ _).mp isTracked
      rw [← spelled]
      exact (read_of_mem_load sound linkFree absolute loading ownerMember inOwner).2.1
  have isTracked := (engine.packages.mem_tracked file.1).mpr ⟨package, member, file, inFiles, rfl⟩
  have sameEntry := Disk.entry_congr linkFree same fileAbsolute ends documentEnds
    (undisturbed.length file.1 isTracked same)
  rw [← Disk.read_congr sameEntry, PackageSet.content_of_mem_load sound loading member inFiles]
  exact contentOf?_of_ne_absent there

theorem contains_ofSet (wellFormed : engine.packages.WellFormed engine.layout) {package : Package}
    (member : package ∈ engine.packages.packages) {path : Path}
    (present : package.files.contains path = true) :
    (Overlay.ofSet engine.packages).contains path = true := by
  obtain ⟨file, inFiles, same⟩ := (package.files.contains_iff path).mp present
  have inLoaded := ((Overlay.represents_ofSet wellFormed).files file).mpr ⟨package, member, inFiles⟩
  exact (PathMap.contains_iff _ path).mpr ⟨file, inLoaded, same⟩

theorem Undisturbed.normal (undisturbed : engine.Undisturbed disk step)
    (wellFormed : engine.packages.WellFormed engine.layout)
    (notLoaded : (Overlay.ofSet engine.packages).contains step.2.path = false) :
    step.2.path.IsNormal := by
  refine undisturbed.spelled.resolve_right fun isTracked => ?_
  obtain ⟨package, member, file, inFiles, spelled⟩ := (PackageSet.mem_tracked _ _).mp isTracked
  have present := contains_ofSet wellFormed member (package.files.contains_of_mem inFiles)
  rw [spelled, notLoaded] at present
  exact nomatch present

/-- A document that is opened and was not loaded leads nowhere. -/
theorem Undisturbed.vacant (undisturbed : engine.Undisturbed disk step)
    (sound : disk.root.isSound = true) (linkFree : disk.root.isLinkFree = true)
    (absolute : engine.layout.root.isAbsolute = true)
    (loading : engine.layout.load disk = .ok engine.packages) {path : Path} {text : String}
    {place : PackageId × Path} (opening : step.2 = .opened path text)
    (located : engine.layout.locate path = .ok place)
    (notLoaded : (Overlay.ofSet engine.packages).contains path = false) :
    Overlay.Vacant disk.read path := by
  have wellFormed := PackageSet.wellFormed_load sound loading
  have normal : path.IsNormal := by
    have normal := undisturbed.normal wellFormed
    rw [opening] at normal
    exact normal notLoaded
  have missing : disk.entry path = .error .notFound := by
    rcases undisturbed.plain path text place opening located with ⟨content, found⟩ | missing
    · obtain ⟨package, member, present⟩ :=
        contains_of_entry sound linkFree absolute loading located found
      rw [contains_ofSet wellFormed member present] at notLoaded
      exact nomatch notLoaded
    · exact missing
  obtain ⟨_, _, below⟩ := exists_names_of_locate absolute located
  intro other otherNormal same
  have otherAbsolute := (Path.isAbsolute_congr same).mpr (isAbsolute_of_below absolute below)
  rw [otherNormal.eq_of_same normal otherAbsolute same]
  exact (Disk.read_eq_absent_iff disk path).mpr missing

theorem Undisturbed.admits (undisturbed : engine.Undisturbed disk step)
    (sound : disk.root.isSound = true) (linkFree : disk.root.isLinkFree = true)
    (absolute : engine.layout.root.isAbsolute = true)
    (loading : engine.layout.load disk = .ok engine.packages) :
    Overlay.Admits engine.layout disk.read (.ofSet engine.packages) step.2 where
  normal := undisturbed.normal (PackageSet.wellFormed_load sound loading)
  reverts := by
    intro file inLoaded same
    have wellFormed := PackageSet.wellFormed_load sound loading
    obtain ⟨package, member, inFiles⟩ :=
      ((Overlay.represents_ofSet wellFormed).files file).mp inLoaded
    exact undisturbed.reverts sound linkFree absolute loading member inFiles same
  vacant := fun _ _ _ opening located notLoaded =>
    undisturbed.vacant sound linkFree absolute loading opening located notLoaded

end Admission

/-- On a disk without links that does not change, let any events happen, where only files and what
is not there at all are opened. Once every document that the editor still shows is closed, the
packages are those that were loaded. -/
theorem packages_after_closings {addressing : Addressing} {session : Session}
    {connect : Path → Layout} {disk : Disk} (sound : disk.root.isSound = true)
    (linkFree : disk.root.isLinkFree = true)
    (loading : load addressing session connect disk = .ok engine)
    (absolute : engine.layout.root.isAbsolute = true) {steps closings : List (World × Event)}
    (undisturbed : ∀ step ∈ steps ++ closings, engine.Undisturbed disk step)
    (closes : ∀ step ∈ closings, ∃ path, step.2 = .closed path)
    (covers : ∀ package ∈ (engine.after steps).packages.packages,
      ∀ file ∈ package.files.entries, file.2.origin = .editor →
        ∃ step ∈ closings, file.1.Same step.2.path) :
    (engine.after (steps ++ closings)).packages = engine.packages := by
  have loaded := load_packages loading
  have wellFormed := PackageSet.wellFormed_load sound loaded
  have clean : ∀ package ∈ engine.packages.packages, package.state = .clean :=
    fun _ member => PackageSet.state_of_mem_load sound loaded member
  have tethered : engine.Tethered engine.packages disk.read (.ofSet engine.packages) :=
    ⟨inStep_load sound loading, .refl _ _, fun old member => ⟨old, member, rfl, rfl⟩⟩
  have reached := tethered.after wellFormed clean
    (fun step member => (undisturbed step member).read)
    (fun step member => (undisturbed step member).fetcher)
    fun step member => (undisturbed step member).admits sound linkFree absolute loaded
  have before := (inStep_load sound loading).after fun step member =>
    (undisturbed step (List.mem_append_left _ member)).fetcher
  have restored : (Overlay.ofSet engine.packages).after engine.layout (steps ++ closings) =
      .ofSet engine.packages := by
    -- A document that is shown in the end was shown before the closings and closed by none.
    refine reached.shadows.eq_of_unshown fun file member shown => ?_
    rw [Overlay.after, List.foldl_append] at member
    obtain ⟨inBefore, stillOpen⟩ := Overlay.mem_of_mem_after closes member shown
    obtain ⟨package, packageMember, inFiles⟩ := (before.represents.files file).mp inBefore
    obtain ⟨step, stepMember, same⟩ := covers package packageMember file inFiles shown
    exact stillOpen step stepMember same
  rw [restored] at reached
  refine reached.packages_eq ?_ clean
  rwa [(frame_after engine (steps ++ closings)).2]

/-- A world over a disk that nothing disturbs. -/
def worldOn (disk : Disk) : World :=
  { read := disk.read, fetcher := Engine.fetcher, linter := Lint.silent }

/-- A file is shown with another text and a document that is not on the disk with nonsense. -/
def edits : List (World × Event) :=
  [(worldOn (.hidden twoFiles), .opened ⟨"/.ws/a.gunk"⟩ "package other"),
    (worldOn (.hidden twoFiles), .opened ⟨"/.ws/new/c.gunk"⟩ "nonsense")]

/-- Both are closed. -/
def editsClosed : List (World × Event) :=
  [(worldOn (.hidden twoFiles), .closed ⟨"/.ws/new/c.gunk"⟩),
    (worldOn (.hidden twoFiles), .closed ⟨"/.ws/a.gunk"⟩)]

theorem packages_after_closings_edits :
    ∃ packages,
      load Url.addressing bare.session ofRoot (.hidden twoFiles) = .ok { bare with packages } ∧
      ({ bare with packages }.after (edits ++ editsClosed)).packages = packages := by
  have linkFree : (Disk.hidden twoFiles).root.isLinkFree = true := by decide
  have loading := load_bare load_twoFiles
  have found : (Disk.hidden twoFiles).IsPlain ⟨"/.ws/a.gunk"⟩ := by
    exact .inl ⟨_, entry_twoFiles.1⟩
  have missing : (Disk.hidden twoFiles).IsPlain ⟨"/.ws/new/c.gunk"⟩ := by
    refine .inr ?_
    rw [Disk.entry, Disk.locate_eq_foldlM linkFree]
    rfl
  refine ⟨_, loading, packages_after_closings (by decide) linkFree loading (by decide)
    (List.forall_mem_append.mpr ⟨?_, ?_⟩) ?_ (by decide +kernel)⟩
  · refine List.forall_mem_cons.mpr ⟨?_, List.forall_mem_singleton.mpr ?_⟩
    · refine ⟨rfl, rfl, .inl (by decide), by decide +kernel, fun path text place isOpening _ => ?_⟩
      obtain ⟨rfl, _⟩ := Event.opened.inj isOpening
      exact found
    · refine ⟨rfl, rfl, .inl (by decide), by decide +kernel, fun path text place isOpening _ => ?_⟩
      obtain ⟨rfl, _⟩ := Event.opened.inj isOpening
      exact missing
  · refine List.forall_mem_cons.mpr ⟨?_, List.forall_mem_singleton.mpr ?_⟩
    · exact ⟨rfl, rfl, .inl (by decide), by decide +kernel,
        fun _ _ _ isOpening => absurd isOpening (by simp)⟩
    · exact ⟨rfl, rfl, .inl (by decide), by decide +kernel,
        fun _ _ _ isOpening => absurd isOpening (by simp)⟩
  · exact List.forall_mem_cons.mpr ⟨⟨_, rfl⟩, List.forall_mem_singleton.mpr ⟨_, rfl⟩⟩

/-! ### Below a file -/

/-- An event asks the disk for its own document only. -/
theorem handle_congr (engine : Engine) {world other : World}
    (fetcher : world.fetcher = other.fetcher) (linter : world.linter = other.linter) {event : Event}
    (same : world.read event.path = other.read event.path) :
    engine.handle world event = engine.handle other event := by
  have registered : engine.register world.read event = engine.register other.read event := by
    cases event with
    | opened path text => rfl
    | updated path text => rfl
    | updateRejected path => rfl
    | closed path =>
      have sameRead : world.read path = other.read path := same
      unfold register closeFile
      simp only [sameRead]
  unfold handle sweep
  rw [registered, fetcher, linter]

/-- A directory with a single file, which is no source. -/
def notes : List (String × Node) :=
  [("notes", .file "x".toUTF8)]

/-- A document below that file is opened and closed. -/
def belowFile : List (World × Event) :=
  [(worldOn (.hidden notes), .opened ⟨"/.ws/notes/a.gunk"⟩ "package a"),
    (worldOn (.hidden notes), .closed ⟨"/.ws/notes/a.gunk"⟩)]

/-- A document below a file was never there, yet closing it does not take it for gone: it leaves it
behind as a file that cannot be read, in a package of its own. -/
theorem packages_after_closing_below_file :
    (Disk.hidden notes).root.isSound = true ∧ (Disk.hidden notes).root.isLinkFree = true ∧
      load Url.addressing bare.session ofRoot (.hidden notes) = .ok bare ∧
      (∀ step ∈ belowFile, step.2.path.IsNormal) ∧
      (bare.after belowFile).packages.packages.map
          (fun package => (package.id, package.files.entries)) =
        [(⟨"notes"⟩, [(⟨"/.ws/notes/a.gunk"⟩, .unreadable "Not a directory (os error 20)")])] ∧
      (bare.after belowFile).packages ≠ bare.packages := by
  have linkFree : (Disk.hidden notes).root.isLinkFree = true := by decide
  have entry : (Disk.hidden notes).entry ⟨"/.ws/notes/a.gunk"⟩ = .error .notADirectory := by
    rw [Disk.entry, Disk.locate_eq_foldlM linkFree]
    rfl
  have read : (worldOn (.hidden notes)).read ⟨"/.ws/notes/a.gunk"⟩ =
      .failed "Not a directory (os error 20)" := Disk.read_of_error entry
  have closed (engine : Engine) :
      engine.handle (worldOn (.hidden notes)) (.closed ⟨"/.ws/notes/a.gunk"⟩) =
        engine.handle ⟨fun _ => .failed "Not a directory (os error 20)", fetcher, Lint.silent⟩
          (.closed ⟨"/.ws/notes/a.gunk"⟩) := by
    refine engine.handle_congr ?_ ?_ read
    · rfl
    · rfl
  have left : (bare.after belowFile).packages.packages.map
      (fun package => (package.id, package.files.entries)) =
        [(⟨"notes"⟩, [(⟨"/.ws/notes/a.gunk"⟩, .unreadable "Not a directory (os error 20)")])] := by
    unfold after belowFile
    simp only [List.foldl_cons, List.foldl_nil, closed]
    decide +kernel
  refine ⟨by decide, linkFree, load_bare (load_hidden rfl), by decide, left, fun same => ?_⟩
  rw [same] at left
  exact List.cons_ne_nil _ _ left.symm

end Engine

end WorkspaceSync
