/-
This file compares an engine with a flat map from paths to contents.

The map, called overlay, knows nothing of packages, of what is dirty or of what
was removed: an event sets or deletes one path of it. The packages of an engine
are nevertheless a function of the overlay (`canonical`): for every id that is
the place of a path there is one clean package with the files placed there,
analysed anew.

`Represents` relates a set in any state of dirtiness to the overlay with its
files. Writing one file of a package and settling keep the relation, so that
every event and the sweep after it do; a sweep that nothing disturbs leaves all
packages clean, and a clean set that represents an overlay is the canonical one.
-/
import Mathlib.Data.List.Dedup
import Mathlib.Data.List.Forall2
import WorkspaceSync.Proofs.Sweep
import WorkspaceSync.Proofs.Walk
import WorkspaceSync.Url

namespace WorkspaceSync

open Layout

/-! ### Overlays -/

/-- The tracked contents of all files by path, without regard to packages. -/
abbrev Overlay := PathMap SourceFile

namespace Overlay

/-- The overlay with the files of all packages of a set. -/
def ofSet (set : PackageSet) : Overlay :=
  PathMap.empty.insertAll (set.packages.flatMap fun package => package.files.entries)

/-- What an event makes of an overlay: a path that is opened or updated has the editor's text, one
that is closed has what the disk gives. -/
def step (layout : Layout) (read : Path → Reading) (overlay : Overlay) :
    Event → Except SyncError Overlay
  | .opened path text =>
    match layout.locate path with
    | .ok _ => .ok (overlay.write path (some { text, origin := .editor, readError := none }))
    | .error cause => .error (.registration .opening path cause)
  | .updated path text =>
    if overlay.contains path then
      .ok (overlay.write path (some { text, origin := .editor, readError := none }))
    else .error (.registration .updating path (.unknownFile path))
  | .updateRejected path => .error (.incompleteUpdate path)
  | .closed path =>
    if overlay.contains path then .ok (overlay.write path (contentOf? (read path)))
    else .error (.registration .closing path (.unknownFile path))

/-- The overlay after an event, with what is answered to the event. An event that is refused leaves
the overlay alone. -/
def advance (layout : Layout) (read : Path → Reading) (overlay : Overlay) (event : Event) :
    Overlay × Except SyncError Unit :=
  match overlay.step layout read event with
  | .ok next => (next, .ok ())
  | .error error => (overlay, .error error)

/-- The overlays after each of a row of events, with the answers. -/
def trace (layout : Layout) (overlay : Overlay) :
    List (World × Event) → List (Overlay × Except SyncError Unit)
  | [] => []
  | (world, event) :: later =>
    overlay.advance layout world.read event ::
      trace layout (overlay.advance layout world.read event).1 later

/-- The overlay after a row of events. -/
def after (layout : Layout) (overlay : Overlay) (steps : List (World × Event)) : Overlay :=
  steps.foldl (fun now step => (now.advance layout step.1.read step.2).1) overlay

/-- The clean package of an id, with the files of the overlay that have their place in it. -/
def packageOf (layout : Layout) (overlay : Overlay) (id : PackageId) : Package :=
  { Package.new id (layout.root.join ⟨id.text⟩) with
    files := overlay.filter fun path => layout.home? path = some id }.analyzed

/-- The packages of an overlay: one for every id that is the place of a path. -/
def canonical (layout : Layout) (overlay : Overlay) : PackageSet :=
  .ofList ((overlay.paths.filterMap layout.home?).dedup.map (overlay.packageOf layout))

/-- A set has the files of an overlay in the packages of their places. -/
structure Represents (layout : Layout) (overlay : Overlay) (set : PackageSet) : Prop where
  wellFormed : set.WellFormed layout
  files : ∀ entry, entry ∈ overlay.entries ↔
    ∃ package ∈ set.packages, entry ∈ package.files.entries

/-- A package has exactly the files of an overlay that have their place in it. -/
def Owns (layout : Layout) (overlay : Overlay) (package : Package) : Prop :=
  ∀ entry, entry ∈ package.files.entries ↔
    entry ∈ overlay.entries ∧ layout.home? entry.1 = some package.id

variable {layout : Layout} {overlay : Overlay} {set : PackageSet}

/-- The files of different packages of a well-formed set are different. -/
theorem distinct_files (wellFormed : set.WellFormed layout) :
    (set.packages.flatMap fun package => package.files.entries).Pairwise
      fun left right => ¬ left.1.Same right.1 := by
  refine List.pairwise_flatMap.mpr ⟨fun package _ => ?_, ?_⟩
  · exact package.files.ascending.imp Path.Before.not_same
  · refine wellFormed.sorted.distinct.imp_of_mem ?_
    intro left right leftMember rightMember different leftEntry inLeft rightEntry inRight same
    have present := left.files.contains_congr same ▸ left.files.contains_of_mem inLeft
    have equal := wellFormed.eq_of_contains leftMember rightMember (.inl present)
      (.inl (right.files.contains_of_mem inRight))
    exact different (congrArg Package.id equal)

/-- A well-formed set represents the overlay with its files. -/
theorem represents_ofSet (wellFormed : set.WellFormed layout) :
    Represents layout (ofSet set) set := by
  refine ⟨wellFormed, fun entry => ?_⟩
  refine (PathMap.mem_insertAll (distinct_files wellFormed) (fun _ _ => rfl) entry).trans ?_
  simp

namespace Represents

theorem owns (represents : Represents layout overlay set) {package : Package}
    (member : package ∈ set.packages) : Owns layout overlay package := by
  intro entry
  have home {other : Package} (otherMember : other ∈ set.packages)
      (inOther : entry ∈ other.files.entries) : layout.home? entry.1 = some other.id :=
    (represents.wellFormed.consistent other otherMember).located entry.1
      (.inl (other.files.contains_of_mem inOther))
  rw [represents.files]
  constructor
  · intro inPackage
    exact ⟨⟨package, member, inPackage⟩, home member inPackage⟩
  · rintro ⟨⟨other, otherMember, inOther⟩, place⟩
    rw [home otherMember inOther, Option.some_inj] at place
    rwa [← represents.wellFormed.sorted.eq_of_id_eq otherMember member place]

theorem contains_iff (represents : Represents layout overlay set) (path : Path) :
    overlay.contains path = true ↔ ∃ owner, set.ownerOf? path = some owner := by
  simp only [PathMap.contains_iff, represents.files, represents.wellFormed.ownerOf?_eq_some_iff]
  constructor
  · rintro ⟨entry, ⟨package, member, inPackage⟩, same⟩
    exact ⟨package, member, entry, inPackage, same⟩
  · rintro ⟨package, member, entry, inPackage, same⟩
    exact ⟨entry, ⟨package, member, inPackage⟩, same⟩

/-- A package with the files of its place spells a path of its place as the overlay does. -/
theorem spelling_eq {package : Package}
    (own : Owns layout overlay package)
    {path : Path} (home : layout.home? path = some package.id) :
    overlay.spelling path = package.files.spelling path := by
  by_cases present : overlay.contains path = true
  · obtain ⟨entry, inOverlay, same⟩ := (overlay.contains_iff path).mp present
    have inPackage := (own entry).mpr ⟨inOverlay, (layout.home?_congr same).trans home⟩
    rw [overlay.spelling_of_mem inOverlay same, package.files.spelling_of_mem inPackage same]
  · have absent : package.files.contains path = false := by
      rw [← Bool.not_eq_true, PathMap.contains_iff]
      rintro ⟨entry, inPackage, same⟩
      exact present ((overlay.contains_iff path).mpr ⟨entry, ((own entry).mp inPackage).1, same⟩)
    rw [overlay.spelling_of_not_contains (Bool.not_eq_true _ ▸ present),
      package.files.spelling_of_not_contains absent]

/-- Writing a file in the package of its place is writing it in the overlay. -/
theorem write (represents : Represents layout overlay set) {package : Package}
    (placed : package.Placed layout)
    (own : Owns layout overlay package)
    {path : Path} (home : layout.home? path = some package.id) (content : Option SourceFile) :
    Represents layout (overlay.write path content)
      (set.upsert (package.written path content)) := by
  refine ⟨represents.wellFormed.write placed home content, fun entry => ?_⟩
  have members := PackageSet.mem_upsert represents.wellFormed.sorted (package.written path content)
  rw [PathMap.mem_write, spelling_eq own home]
  constructor
  · rintro (⟨inOverlay, different⟩ | written)
    · obtain ⟨other, otherMember, inOther⟩ := (represents.files entry).mp inOverlay
      by_cases sameId : other.id = package.id
      · have place := ((represents.owns otherMember entry).mp inOther).2
        refine ⟨_, (members _).mpr (.inl rfl), ?_⟩
        rw [Package.written_files, PathMap.mem_write, own]
        exact .inl ⟨⟨inOverlay, sameId ▸ place⟩, different⟩
      · refine ⟨other, (members other).mpr (.inr ⟨otherMember, ?_⟩), inOther⟩
        rwa [Package.written_id]
    · refine ⟨_, (members _).mpr (.inl rfl), ?_⟩
      rw [Package.written_files, PathMap.mem_write]
      exact .inr written
  · rintro ⟨other, otherMember, inOther⟩
    rcases (members other).mp otherMember with rfl | ⟨kept, otherId⟩
    · rw [Package.written_files, PathMap.mem_write, own] at inOther
      exact inOther.imp_left fun old => ⟨old.1.1, old.2⟩
    · obtain ⟨inOverlay, place⟩ := (represents.owns kept entry).mp inOther
      refine .inl ⟨inOverlay, fun same => otherId ?_⟩
      rw [layout.home?_congr same, home, Option.some_inj] at place
      rw [Package.written_id, place]

/-- The package that a file is to be written in has the files of its place. -/
theorem owns_homeFor (represents : Represents layout overlay set) (id : PackageId)
    (directory : Path) : Owns layout overlay (homeFor set id directory) := by
  unfold homeFor
  cases found : set.get? id with
  | some package => exact represents.owns (PackageSet.mem_of_get? found)
  | none =>
    refine fun entry => ⟨fun member => absurd member List.not_mem_nil, ?_⟩
    rintro ⟨inOverlay, place⟩
    obtain ⟨other, otherMember, inOther⟩ := (represents.files entry).mp inOverlay
    rw [((represents.owns otherMember entry).mp inOther).2, Option.some_inj] at place
    exact absurd place ((PackageSet.get?_eq_none_iff set id).mp found other otherMember)

/-- Writing a path that has a place, in the package of the place or a new one, is writing it in the
overlay. -/
theorem writeAt (represents : Represents layout overlay set) {path directory : Path}
    {id : PackageId} (located : layout.locate path = .ok (id, directory))
    (content : Option SourceFile) :
    Represents layout (overlay.write path content)
      (set.upsert ((homeFor set id directory).written path content)) := by
  have placed := placed_homeFor represents.wellFormed (packageId_of_locate located)
  refine represents.write placed (represents.owns_homeFor id directory) ?_ content
  rw [homeFor_id, home?_eq_some_iff]
  exact ⟨directory, located⟩

/-- Settling a package leaves its files alone; only a package without files is dropped. -/
theorem settle (represents : Represents layout overlay set) (id : PackageId) :
    Represents layout overlay (set.settle id) := by
  refine ⟨represents.wellFormed.settle id, fun entry => ?_⟩
  have members := PackageSet.mem_settle represents.wellFormed.sorted id
  rw [represents.files]
  constructor
  · rintro ⟨package, member, inPackage⟩
    by_cases sameId : package.id = id
    · have nonempty := package.files.isEmpty_eq_false_of_contains
        (package.files.contains_of_mem inPackage)
      refine ⟨package.settled, (members _).mpr (.inr ⟨package, member, sameId, ?_⟩), inPackage⟩
      exact (Package.remainder?_eq_some_iff package _).mpr ⟨nonempty, rfl⟩
    · exact ⟨package, (members package).mpr (.inl ⟨member, sameId⟩), inPackage⟩
  · rintro ⟨package, member, inPackage⟩
    rcases (members package).mp member with ⟨kept, _⟩ | ⟨old, oldMember, _, remains⟩
    · exact ⟨package, kept, inPackage⟩
    · obtain ⟨_, rfl⟩ := (Package.remainder?_eq_some_iff old package).mp remains
      exact ⟨old, oldMember, inPackage⟩

end Represents

/-! ### The canonical set -/

theorem mem_canonical (layout : Layout) (overlay : Overlay) (package : Package) :
    package ∈ (overlay.canonical layout).packages ↔
      ∃ entry ∈ overlay.entries, ∃ id, layout.home? entry.1 = some id ∧
        overlay.packageOf layout id = package := by
  rw [canonical, PackageSet.mem_ofList]
  simp only [List.mem_map, List.mem_dedup, List.mem_filterMap, PathMap.paths]
  constructor
  · rintro ⟨id, ⟨_, ⟨entry, member, rfl⟩, home⟩, equal⟩
    exact ⟨entry, member, id, home, equal⟩
  · rintro ⟨entry, member, id, home, equal⟩
    exact ⟨id, ⟨entry.1, ⟨entry, member, rfl⟩, home⟩, equal⟩

theorem sorted_canonical (layout : Layout) (overlay : Overlay) :
    (overlay.canonical layout).Sorted := by
  refine PackageSet.sorted_ofList (List.pairwise_map.mpr ?_)
  exact (List.nodup_dedup _).imp fun different => different

/-- The package with its directory spelled from the root. -/
def respelled (layout : Layout) (package : Package) : Package :=
  { package with directory := layout.root.join ⟨package.id.text⟩ }

theorem eq_of_respelled_eq {left right : Package} (directory : left.directory = right.directory)
    (same : respelled layout left = respelled layout right) : left = right := by
  cases left
  cases right
  simp_all [respelled]

/-- A package with the files of its place is, once settled, the one that the overlay determines. -/
theorem respelled_eq {package : Package} (consistent : package.Consistent layout)
    (own : Owns layout overlay package) :
    respelled layout package.settled = overlay.packageOf layout package.id := by
  have files :
      overlay.filter (fun path => layout.home? path = some package.id) = package.files := by
    refine PathMap.ext_of_mem fun entry => ?_
    rw [PathMap.mem_filter, own entry, decide_eq_true_eq]
  have name : (Analysis.run none package.files.entries).1.map Analysis.Declaration.name =
      package.name := congrArg Package.name consistent.analyzed
  have errors : (Analysis.run none package.files.entries).2 = package.errors :=
    congrArg Package.errors consistent.analyzed
  simp only [respelled, Package.settled, packageOf, files, Package.analyzed, Package.new, name,
    errors]

/-- The packages of a set that represents an overlay are, once settled, the canonical ones, unless
one of them has no files. -/
theorem Represents.canonical_eq (represents : Represents layout overlay set)
    (nonempty : ∀ package ∈ set.packages, package.files.isEmpty = false) :
    PackageSet.mk (set.packages.map fun package => respelled layout package.settled) =
      overlay.canonical layout := by
  have respell {package : Package} (member : package ∈ set.packages) :
      respelled layout package.settled = overlay.packageOf layout package.id :=
    respelled_eq (represents.wellFormed.consistent package member) (represents.owns member)
  refine PackageSet.Sorted.ext_of_mem (List.pairwise_map.mpr represents.wellFormed.sorted)
    (sorted_canonical layout overlay) fun package => ?_
  rw [mem_canonical, List.mem_map]
  constructor
  · rintro ⟨old, member, rfl⟩
    -- The package has a file, which shows that its id is the place of a path.
    obtain ⟨entry, inOld⟩ := PathMap.exists_mem_of_isEmpty_eq_false (nonempty old member)
    obtain ⟨inOverlay, home⟩ := (represents.owns member entry).mp inOld
    exact ⟨entry, inOverlay, old.id, home, (respell member).symm⟩
  · rintro ⟨entry, inOverlay, id, home, rfl⟩
    obtain ⟨old, member, inOld⟩ := (represents.files entry).mp inOverlay
    rw [((represents.owns member entry).mp inOld).2, Option.some_inj] at home
    exact ⟨old, member, home ▸ respell member⟩

end Overlay

/-- Two packages that differ at most in the spelling of their directory. -/
def Package.Alike (left right : Package) : Prop :=
  left.directory.Same right.directory ∧ { left with directory := right.directory } = right

/-- Two sets with the same packages in the same order, up to the spelling of their directories. -/
def PackageSet.Alike (left right : PackageSet) : Prop :=
  List.Forall₂ Package.Alike left.packages right.packages

/-- What can be read of a package. -/
structure Package.Listing where
  id : PackageId
  name : Option String
  files : List (Path × SourceFile)
  messages : List String
  deriving DecidableEq

/-- What can be read of the packages of a set. -/
def PackageSet.listing (set : PackageSet) : List Package.Listing :=
  set.packages.map fun package =>
    { id := package.id
      name := package.name
      files := package.files.entries
      messages := package.errors.map Diagnostic.message }

theorem PackageSet.Alike.listing_eq {left right : PackageSet} (alike : left.Alike right) :
    left.listing = right.listing := by
  unfold listing
  rw [← List.forall₂_eq_eq_eq, List.forall₂_map_left_iff, List.forall₂_map_right_iff]
  refine alike.imp fun one other same => ?_
  rw [← same.2]

namespace Overlay

variable {layout : Layout} {overlay : Overlay} {set : PackageSet}

/-- A clean package is settled. -/
theorem settled_eq {package : Package} (consistent : package.Consistent layout)
    (clean : package.state = .clean) : package.settled = package := by
  have forgotten := (consistent.clean clean).1
  cases package
  simp_all [Package.settled]

/-- The packages of a set that represents an overlay and has no dirty package are the canonical
ones, up to the spelling of their directories. -/
theorem Represents.map_respelled (represents : Represents layout overlay set)
    (clean : ∀ package ∈ set.packages, package.state = .clean) :
    set.packages.map (respelled layout) = (overlay.canonical layout).packages := by
  have consistent := represents.wellFormed.consistent
  rw [← represents.canonical_eq fun package member =>
    ((consistent package member).clean (clean package member)).2]
  refine List.map_congr_left fun package member => ?_
  rw [settled_eq (consistent package member) (clean package member)]

/-- A set that represents an overlay and has no dirty package is the canonical set. -/
theorem Represents.alike (represents : Represents layout overlay set)
    (absolute : layout.root.isAbsolute = true)
    (clean : ∀ package ∈ set.packages, package.state = .clean) :
    set.Alike (overlay.canonical layout) := by
  unfold PackageSet.Alike
  rw [← represents.map_respelled clean]
  refine List.forall₂_map_right_iff.mpr (List.forall₂_same.mpr fun package member => ⟨?_, rfl⟩)
  exact same_join_of_packageId absolute (represents.wellFormed.consistent package member).directory

/-! ### Events -/

/-- Registering an event on a set is what the event makes of the overlay that it represents. -/
theorem Represents.register {engine : Engine}
    (represents : Represents engine.layout overlay engine.packages) (read : Path → Reading)
    (event : Event) :
    match overlay.step engine.layout read event with
    | .ok next => ∃ packages, engine.register read event = .ok packages ∧
        Represents engine.layout next packages
    | .error error => engine.register read event = .error error := by
  have writeOwner {path : Path} {owner : Package}
      (found : engine.packages.ownerOf? path = some owner) (content : Option SourceFile) :
      Represents engine.layout (overlay.write path content)
        (engine.packages.upsert (owner.written path content)) := by
    obtain ⟨member, present⟩ := PackageSet.mem_of_ownerOf? found
    have placed := (represents.wellFormed.consistent owner member).toPlaced
    exact represents.write placed (represents.owns member) (placed.located path (.inl present))
      content
  have absent {path : Path} (missing : ¬ overlay.contains path = true) :
      engine.packages.ownerOf? path = none := by
    rw [represents.contains_iff, not_exists] at missing
    exact Option.eq_none_iff_forall_ne_some.mpr missing
  unfold step Engine.register
  cases event with
  | opened path text =>
    simp only [addFile_eq represents.wellFormed.sorted]
    cases located : engine.layout.locate path with
    | error cause => rfl
    | ok place =>
      obtain ⟨id, directory⟩ := place
      exact ⟨_, rfl, represents.writeAt located _⟩
  | updated path text =>
    simp only [updateFile_eq represents.wellFormed]
    by_cases present : overlay.contains path = true
    · obtain ⟨owner, found⟩ := (represents.contains_iff path).mp present
      rw [if_pos present, found]
      exact ⟨_, rfl, writeOwner found _⟩
    · rw [if_neg present, absent present]
  | updateRejected path => rfl
  | closed path =>
    simp only [closeFile_eq represents.wellFormed]
    by_cases present : overlay.contains path = true
    · obtain ⟨owner, found⟩ := (represents.contains_iff path).mp present
      rw [if_pos present, found]
      exact ⟨_, rfl, writeOwner found _⟩
    · rw [if_neg present, absent present]

end Overlay

namespace Engine

variable {engine : Engine} {overlay : Overlay}

/-- The engine has exactly the packages that an overlay determines, and every path of the overlay
has its place in one of them. -/
structure Agrees (engine : Engine) (overlay : Overlay) : Prop where
  placed : ∀ path ∈ overlay.paths, ∃ place, engine.layout.locate path = .ok place
  packages : engine.packages.Alike (overlay.canonical engine.layout)

/-- The engine has the files of an overlay and nothing left to publish. -/
structure InStep (engine : Engine) (overlay : Overlay) : Prop where
  represents : Overlay.Represents engine.layout overlay engine.packages
  clean : ∀ package ∈ engine.packages.packages, package.state = .clean

theorem InStep.agrees (inStep : engine.InStep overlay)
    (absolute : engine.layout.root.isAbsolute = true) : engine.Agrees overlay := by
  refine ⟨fun path member => ?_, inStep.represents.alike absolute inStep.clean⟩
  obtain ⟨entry, inOverlay, rfl⟩ := List.mem_map.mp member
  obtain ⟨package, packageMember, inPackage⟩ := (inStep.represents.files entry).mp inOverlay
  have home := ((inStep.represents.owns packageMember entry).mp inPackage).2
  exact (engine.layout.exists_place_iff entry.1).mpr ⟨_, home⟩

/-- A freshly loaded engine is in step with the overlay of its files. -/
theorem inStep_load {addressing : Addressing} {session : Session} {connect : Path → Layout}
    {disk : Disk} (sound : disk.root.isSound = true)
    (loaded : load addressing session connect disk = .ok engine) :
    engine.InStep (.ofSet engine.packages) := by
  have read := load_packages loaded
  refine ⟨Overlay.represents_ofSet (PackageSet.wellFormed_load sound read), ?_⟩
  exact fun package member => PackageSet.state_of_mem_load sound read member

/-- A sweep that nothing disturbs brings an engine with the files of an overlay in step with it. -/
theorem inStep_sweep (represents : Overlay.Represents engine.layout overlay engine.packages)
    {world : World} (undisturbed : world.fetcher = Engine.fetcher) :
    (engine.sweep world).1.InStep overlay := by
  have settles := Sweep.run_induction world.linter engine.session.lint faithful_fetcher
    (fun set _ => Overlay.Represents engine.layout overlay set) represents
    fun _ _ id _ before _ => before.settle id
  refine ⟨?_, fun package member => ?_⟩
  · rw [← undisturbed] at settles
    exact settles
  · refine PackageSet.clean_of_mem_run represents.wellFormed.sorted world.linter
      engine.session.lint ?_
    rw [← undisturbed]
    exact member

/-- Handling an event answers what the overlay predicts and keeps the engine in step with it. -/
theorem InStep.handle (inStep : engine.InStep overlay) {world : World}
    (undisturbed : world.fetcher = Engine.fetcher) (event : Event) :
    (engine.handle world event).2.registration =
        (overlay.advance engine.layout world.read event).2 ∧
      (engine.handle world event).1.InStep
        (overlay.advance engine.layout world.read event).1 := by
  have registered := inStep.represents.register world.read event
  unfold Engine.handle Overlay.advance
  cases predicted : overlay.step engine.layout world.read event with
  | ok next =>
    rw [predicted] at registered
    obtain ⟨packages, equal, represents⟩ := registered
    rw [equal]
    have after : Overlay.Represents { engine with packages }.layout next packages := represents
    exact ⟨rfl, inStep_sweep after undisturbed⟩
  | error error =>
    rw [predicted] at registered
    simp only at registered
    rw [registered]
    exact ⟨rfl, inStep_sweep inStep.represents undisturbed⟩

/-- The engine after a row of events. -/
def after (engine : Engine) (steps : List (World × Event)) : Engine :=
  steps.foldl (fun now step => (now.handle step.1 step.2).1) engine

/-- A row of events keeps an engine that nothing disturbs in step with the overlay. -/
theorem InStep.after (inStep : engine.InStep overlay) {steps : List (World × Event)}
    (undisturbed : ∀ step ∈ steps, step.1.fetcher = Engine.fetcher) :
    (engine.after steps).InStep (overlay.after engine.layout steps) := by
  induction steps generalizing engine overlay with
  | nil => exact inStep
  | cons step later inductionHypothesis =>
    obtain ⟨calm, laterUndisturbed⟩ := List.forall_mem_cons.mp undisturbed
    have next := inductionHypothesis (inStep.handle calm step.2).2 laterUndisturbed
    rw [(frame_handle engine step.1 step.2).2] at next
    exact next

theorem frame_after (engine : Engine) (steps : List (World × Event)) :
    (engine.after steps).session = engine.session ∧
      (engine.after steps).layout = engine.layout := by
  induction steps generalizing engine with
  | nil => exact ⟨rfl, rfl⟩
  | cons step later inductionHypothesis =>
    obtain ⟨sameSession, sameLayout⟩ := frame_handle engine step.1 step.2
    rw [← sameSession, ← sameLayout]
    exact inductionHypothesis (engine.handle step.1 step.2).1

/-- The engines after each of a row of events, with what the event led to. -/
def trace (engine : Engine) : List (World × Event) → List (Engine × Outcome)
  | [] => []
  | (world, event) :: later =>
    engine.handle world event :: (engine.handle world event).1.trace later

theorem InStep.trace (inStep : engine.InStep overlay)
    (absolute : engine.layout.root.isAbsolute = true) {steps : List (World × Event)}
    (undisturbed : ∀ step ∈ steps, step.1.fetcher = Engine.fetcher) :
    List.Forall₂
      (fun reached predicted =>
        reached.2.registration = predicted.2 ∧ reached.1.Agrees predicted.1)
      (engine.trace steps) (overlay.trace engine.layout steps) := by
  induction steps generalizing engine overlay with
  | nil => exact .nil
  | cons step later inductionHypothesis =>
    obtain ⟨world, event⟩ := step
    obtain ⟨answered, nextInStep⟩ :=
      inStep.handle (undisturbed (world, event) List.mem_cons_self) event
    have laterUndisturbed : ∀ step ∈ later, step.1.fetcher = Engine.fetcher :=
      fun step member => undisturbed step (List.mem_cons_of_mem _ member)
    have sameLayout := (frame_handle engine world event).2
    rw [← sameLayout] at absolute
    refine .cons ⟨answered, nextInStep.agrees absolute⟩ ?_
    have run := inductionHypothesis nextInStep absolute laterUndisturbed
    rw [sameLayout] at run
    exact run

/-- An engine over an absolute root that nothing disturbs does what the flat overlay of its files
does: after loading and after every event of every run, the event was answered as the overlay
predicts and the packages are the canonical packages of the overlay. -/
theorem trace_refines_overlay {addressing : Addressing} {session : Session}
    {connect : Path → Layout} {disk : Disk} (sound : disk.root.isSound = true)
    (loaded : load addressing session connect disk = .ok engine)
    (absolute : engine.layout.root.isAbsolute = true) (steps : List (World × Event))
    (undisturbed : ∀ step ∈ steps, step.1.fetcher = Engine.fetcher) :
    engine.Agrees (.ofSet engine.packages) ∧
      List.Forall₂
        (fun reached predicted =>
          reached.2.registration = predicted.2 ∧ reached.1.Agrees predicted.1)
        (engine.trace steps)
        (Overlay.trace engine.layout (.ofSet engine.packages) steps) := by
  have inStep := inStep_load sound loaded
  exact ⟨inStep.agrees absolute, inStep.trace absolute undisturbed⟩

theorem frame_trace (engine : Engine) (steps : List (World × Event)) :
    ∀ reached ∈ engine.trace steps, reached.1.layout = engine.layout := by
  induction steps generalizing engine with
  | nil => exact fun _ member => absurd member List.not_mem_nil
  | cons step later inductionHypothesis =>
    have sameLayout := (frame_handle engine step.1 step.2).2
    refine List.forall_mem_cons.mpr ⟨sameLayout, fun reached member => ?_⟩
    rw [← sameLayout]
    exact inductionHypothesis _ reached member

/-- Engines that agree with overlays list the packages that the overlays determine. -/
theorem map_listing_eq {layout : Layout} {trace : List (Engine × Outcome)}
    {predictions : List (Overlay × Except SyncError Unit)}
    (agree : List.Forall₂
      (fun reached predicted =>
        reached.2.registration = predicted.2 ∧ reached.1.Agrees predicted.1)
      trace predictions)
    (sameLayout : ∀ reached ∈ trace, reached.1.layout = layout) :
    trace.map (fun reached => (reached.2.registration, reached.1.packages.listing)) =
      predictions.map fun predicted =>
        (predicted.2, (predicted.1.canonical layout).listing) := by
  induction agree with
  | nil => rfl
  | cons agreesHere _ inductionHypothesis =>
    obtain ⟨layoutHere, layoutLater⟩ := List.forall_mem_cons.mp sameLayout
    rw [List.map_cons, List.map_cons, agreesHere.1, agreesHere.2.packages.listing_eq, layoutHere,
      inductionHypothesis layoutLater]

/-- A file is closed after the disk lost it, changed in vain and opened again in another spelling;
then another one is closed that cannot be read any more. -/
def reopening : List (World × Event) :=
  let world (reading : Reading) : World := ⟨fun _ => reading, Engine.fetcher, Lint.silent⟩
  [(world .absent, .closed ⟨"/.ws/a.gunk"⟩),
    (world .absent, .updated ⟨"/.ws/a.gunk"⟩ "package b"),
    (world .absent, .opened ⟨"/.ws//a.gunk"⟩ "package c"),
    (world (.failed "Permission denied"), .closed ⟨"/.ws/b.gunk"⟩)]

theorem trace_refines_overlay_reopening :
    ∃ engine, load Url.addressing ⟨"file:///.ws", true⟩ ofRoot (.hidden twoFiles) = .ok engine ∧
      (engine.trace reopening).map
          (fun reached => (reached.2.registration, reached.1.packages.listing)) =
        [(.ok (), [⟨⟨"."⟩, some "other", [(⟨"/.ws/b.gunk"⟩, ⟨"package other", .disk, none⟩)], []⟩]),
          (.error (.registration .updating ⟨"/.ws/a.gunk"⟩ (.unknownFile ⟨"/.ws/a.gunk"⟩)),
            [⟨⟨"."⟩, some "other", [(⟨"/.ws/b.gunk"⟩, ⟨"package other", .disk, none⟩)], []⟩]),
          (.ok (),
            [⟨⟨"."⟩, some "c",
              [(⟨"/.ws//a.gunk"⟩, ⟨"package c", .editor, none⟩),
                (⟨"/.ws/b.gunk"⟩, ⟨"package other", .disk, none⟩)],
              ["package other does not match package c declared in a.gunk"]⟩]),
          (.ok (),
            [⟨⟨"."⟩, some "c",
              [(⟨"/.ws//a.gunk"⟩, ⟨"package c", .editor, none⟩),
                (⟨"/.ws/b.gunk"⟩, ⟨"", .disk, some "Permission denied"⟩)],
              ["could not read file: Permission denied"]⟩])] := by
  have resolved : resolveWorkspace Url.addressing "file:///.ws" = .ok ⟨"/.ws"⟩ := by decide +kernel
  have loaded : load Url.addressing ⟨"file:///.ws", true⟩ ofRoot (.hidden twoFiles) =
      .ok ⟨⟨"file:///.ws", true⟩, ofRoot ⟨"/.ws"⟩,
        ⟨[{ Package.new ⟨"."⟩ ⟨"/.ws"⟩ with files := twoSources }.analyzed]⟩⟩ := by
    unfold load
    simp only [resolved, load_twoFiles]
  have undisturbed : ∀ step ∈ reopening, step.1.fetcher = Engine.fetcher := by
    intro step member
    simp only [reopening, List.mem_cons, List.not_mem_nil, or_false] at member
    rcases member with rfl | rfl | rfl | rfl <;> rfl
  obtain ⟨_, refines⟩ := trace_refines_overlay (by decide) loaded (by decide) reopening undisturbed
  refine ⟨_, loaded, ?_⟩
  rw [map_listing_eq refines fun entry => frame_trace _ reopening entry]
  decide +kernel

end Engine

end WorkspaceSync
