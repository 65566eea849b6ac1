/-
This file shows that events on different documents commute.

The two orders of a pair of events pass through different states: a package may
be dropped and brought back in one order and only shrink in the other, and an
error may be shown and withdrawn in one order only. For the overlay of the
engine, however, each event is a write at one path, and whether it is accepted
does not depend on other paths. Writes at different paths commute, so that both
orders end in step with one overlay.

What is published is compared in two parts. Which files are published for is
said by the overlay before the pair (`Concerns`), alike for both orders. What is
shown for a file in the end is what its package gives, as always, and the
packages are the same in the end.
-/
import WorkspaceSync.Proofs.Locality

namespace WorkspaceSync

open Layout

/-! ### Writes at different paths -/

namespace PathMap

variable {Value : Type} (map : PathMap Value) {path other : Path}

/-- Writing at a path leaves the spelling of the others alone. -/
theorem spelling_write (different : ¬ other.Same path) (content : Option Value) :
    (map.write path content).spelling other = map.spelling other := by
  have sameEntry : entry? (map.write path content) other = map.entry? other := by
    refine Option.ext fun entry => ?_
    rw [entry?_eq_some_iff, entry?_eq_some_iff, mem_write]
    constructor
    · rintro ⟨⟨kept, _⟩ | ⟨value, _, rfl⟩, same⟩
      · exact ⟨kept, same⟩
      · exact absurd (same.symm.trans (map.spelling_same path)) different
    · rintro ⟨kept, same⟩
      exact ⟨.inl ⟨kept, fun atPath => different (same.symm.trans atPath)⟩, same⟩
  rw [spelling, sameEntry, spelling]

theorem contains_write_of_not_same (different : ¬ other.Same path) (content : Option Value) :
    (map.write path content).contains other = map.contains other := by
  rw [Bool.eq_iff_iff, contains_write, if_neg different]

/-- Writes at different paths commute. -/
theorem write_comm (different : ¬ path.Same other) (content otherContent : Option Value) :
    (map.write path content).write other otherContent =
      (map.write other otherContent).write path content := by
  refine ext_of_mem fun entry => ?_
  have fromOther : ¬ other.Same path := fun same => different same.symm
  have atPath : entry.1 = map.spelling path → ¬ entry.1.Same other := fun spelled same =>
    different ((spelled ▸ map.spelling_same path).symm.trans same)
  have atOther : entry.1 = map.spelling other → ¬ entry.1.Same path := fun spelled same =>
    fromOther ((spelled ▸ map.spelling_same other).symm.trans same)
  simp only [mem_write, map.spelling_write fromOther, map.spelling_write different]
  constructor
  · rintro (⟨⟨kept, notPath⟩ | ⟨value, isValue, rfl⟩, notOther⟩ | ⟨value, isValue, rfl⟩)
    · exact .inl ⟨.inl ⟨kept, notOther⟩, notPath⟩
    · exact .inr ⟨value, isValue, rfl⟩
    · exact .inl ⟨.inr ⟨value, isValue, rfl⟩, atOther rfl⟩
  · rintro (⟨⟨kept, notOther⟩ | ⟨value, isValue, rfl⟩, notPath⟩ | ⟨value, isValue, rfl⟩)
    · exact .inl ⟨.inl ⟨kept, notPath⟩, notOther⟩
    · exact .inr ⟨value, isValue, rfl⟩
    · exact .inl ⟨.inr ⟨value, isValue, rfl⟩, atPath rfl⟩

end PathMap

/-! ### Events on an overlay -/

namespace Overlay

variable {layout : Layout} {read : Path → Reading} {overlay : Overlay}

/-- An accepted event is a write of its document. -/
theorem eq_write_of_step {event : Event} {next : Overlay}
    (accepted : overlay.step layout read event = .ok next) :
    next = overlay.write event.path (event.content? read) := by
  unfold step at accepted
  cases event with
  | opened path text =>
    simp only at accepted
    split at accepted
    · exact (Except.ok.inj accepted).symm
    · exact nomatch accepted
  | updated path text =>
    simp only at accepted
    split at accepted
    · exact (Except.ok.inj accepted).symm
    · exact nomatch accepted
  | updateRejected path => exact nomatch accepted
  | closed path =>
    simp only at accepted
    split at accepted
    · exact (Except.ok.inj accepted).symm
    · exact nomatch accepted

/-- An event does the same whether another path was written before it or is written after it. -/
theorem step_write (overlay : Overlay) {event : Event} {path : Path}
    (different : ¬ event.path.Same path) (content : Option SourceFile) :
    step layout read (overlay.write path content) event =
      (overlay.step layout read event).map fun next => next.write path content := by
  have commutes (written : Option SourceFile) :
      (overlay.write path content).write event.path written =
        (overlay.write event.path written).write path content :=
    overlay.write_comm (fun same => different same.symm) content written
  have sameContains := overlay.contains_write_of_not_same different content
  unfold step
  cases event with
  | opened document text =>
    simp only [Event.path] at commutes ⊢
    rw [commutes]
    cases layout.locate document <;> rfl
  | updated document text =>
    simp only [Event.path] at commutes sameContains ⊢
    rw [commutes, sameContains]
    split <;> rfl
  | updateRejected document => rfl
  | closed document =>
    simp only [Event.path] at commutes sameContains ⊢
    rw [commutes, sameContains]
    split <;> rfl

/-- An event on another document changes nothing about the answer to an event. -/
theorem advance_answer (overlay : Overlay) {first second : Event}
    (different : ¬ first.path.Same second.path) :
    ((overlay.advance layout read second).1.advance layout read first).2 =
      (overlay.advance layout read first).2 := by
  unfold advance
  cases accepted : overlay.step layout read second with
  | error error => rfl
  | ok next =>
    simp only
    rw [eq_write_of_step accepted, overlay.step_write different]
    cases overlay.step layout read first <;> rfl

/-- Two events on different documents make the same of an overlay in either order. -/
theorem advance_comm (overlay : Overlay) {first second : Event}
    (different : ¬ first.path.Same second.path) :
    ((overlay.advance layout read first).1.advance layout read second).1 =
      ((overlay.advance layout read second).1.advance layout read first).1 := by
  have fromSecond : ¬ second.path.Same first.path := fun same => different same.symm
  unfold advance
  cases firstStep : overlay.step layout read first with
  | error error =>
    cases secondStep : overlay.step layout read second with
    | error other => simp only [firstStep]
    | ok next =>
      simp only
      rw [eq_write_of_step secondStep, overlay.step_write different, firstStep]
      rfl
  | ok afterFirst =>
    have firstWrite := eq_write_of_step firstStep
    cases secondStep : overlay.step layout read second with
    | error other =>
      simp only [firstStep]
      rw [firstWrite, overlay.step_write fromSecond, secondStep]
      rfl
    | ok afterSecond =>
      have secondWrite := eq_write_of_step secondStep
      simp only
      rw [firstWrite, overlay.step_write fromSecond, secondStep, secondWrite,
        overlay.step_write different, firstStep, firstWrite]
      exact overlay.write_comm fromSecond _ _

/-- An event concerns a file if it is accepted and the file is its document or is tracked in the
same package. -/
def Concerns (layout : Layout) (read : Path → Reading) (overlay : Overlay) (event : Event)
    (file : Path) : Prop :=
  (∃ next, overlay.step layout read event = .ok next) ∧
    layout.home? file = layout.home? event.path ∧
      (file.Same event.path ∨ overlay.contains file = true)

/-- What one of two events on different documents concerns can be told before both. -/
theorem concerns_advance (overlay : Overlay) {first second : Event}
    (different : ¬ first.path.Same second.path) (file : Path) :
    overlay.Concerns layout read first file ∨
        (overlay.advance layout read first).1.Concerns layout read second file ↔
      overlay.Concerns layout read first file ∨ overlay.Concerns layout read second file := by
  have fromSecond : ¬ second.path.Same first.path := fun same => different same.symm
  unfold advance
  cases accepted : overlay.step layout read first with
  | error error => rfl
  | ok next =>
    by_cases atFirst : file.Same first.path
    · have concerned : overlay.Concerns layout read first file :=
        ⟨⟨next, accepted⟩, layout.home?_congr atFirst, .inl atFirst⟩
      simp only [concerned, true_or]
    · -- The write of the first document is not seen at this file.
      have sameAnswer : (∃ after, next.step layout read second = .ok after) ↔
          ∃ after, overlay.step layout read second = .ok after := by
        rw [eq_write_of_step accepted, overlay.step_write fromSecond]
        cases overlay.step layout read second <;> simp [Except.map]
      have sameContains : next.contains file = overlay.contains file := by
        rw [eq_write_of_step accepted, overlay.contains_write_of_not_same atFirst]
      simp only [Concerns, sameAnswer, sameContains]

end Overlay

/-! ### Linters that are not asked -/

namespace Sweep

/-- Without advisory findings a sweep does not ask the linter. -/
theorem run_without_lint (fetcher : Fetcher) (linter other : Linter) (set : PackageSet) :
    run fetcher linter false set = run fetcher other false set := by
  have same : one fetcher linter false = one fetcher other false := by
    funext state id
    rfl
  rw [run, run, same]

end Sweep

namespace Engine

variable {engine left right : Engine} {overlay : Overlay} {findings : Findings}

/-- The world with another linter. -/
def advised (world : World) (findings : Findings) : World :=
  { world with linter := findings.linter }

/-- An engine that asks for no advisory findings handles an event alike with every linter. -/
theorem handle_advised {world : World}
    (advice : engine.session.lint = false ∨ world.linter = findings.linter) (event : Event) :
    engine.handle world event = engine.handle (advised world findings) event := by
  rcases advice with off | same
  · unfold handle sweep advised
    simp only [off, Sweep.run_without_lint world.fetcher world.linter findings.linter]
  · rw [advised, ← same]

/-! ### What is published -/

/-- An event publishes for the files that it concerns. -/
theorem InStep.isSome_lastFor? (inStep : engine.InStep overlay) (confined : findings.Confined)
    {world : World} (calm : world.fetcher = Engine.fetcher)
    (linter : world.linter = findings.linter) (event : Event) (file : Path) :
    (lastFor? (engine.handle world event).2.sweep.published file).isSome = true ↔
      overlay.Concerns engine.layout world.read event file := by
  have wellFormed := inStep.represents.wellFormed
  have predicted := inStep.represents.register world.read event
  unfold Overlay.Concerns
  cases registered : engine.register world.read event with
  | error error =>
    rw [handle_of_refused inStep.clean registered]
    refine ⟨fun shown => (nomatch shown), ?_⟩
    rintro ⟨⟨next, accepted⟩, _⟩
    rw [accepted] at predicted
    obtain ⟨packages, equal, _⟩ := predicted
    rw [equal] at registered
    exact nomatch registered
  | ok packages =>
    obtain ⟨id, directory, place, home, equal, handled⟩ :=
      handle_of_accepted wellFormed inStep.clean calm registered
    have accepted : ∃ next, overlay.step engine.layout world.read event = .ok next := by
      cases stepped : overlay.step engine.layout world.read event with
      | ok next => exact ⟨next, rfl⟩
      | error error =>
        rw [stepped] at predicted
        rw [show engine.register world.read event = .error error from predicted] at registered
        exact nomatch registered
    have after := (writesAt_register wellFormed registered).writes.wellFormed wellFormed
    have member : engine.writtenBy world.read event id directory ∈ packages.packages := by
      rw [equal]
      exact (PackageSet.mem_upsert wellFormed.sorted _ _).mpr (.inl rfl)
    have tracked : (homeFor engine.packages id directory).files.contains file = true ↔
        overlay.contains file = true ∧ engine.layout.home? file = some id := by
      have own := inStep.represents.owns_homeFor id directory
      simp only [PathMap.contains_iff, own _, homeFor_id]
      constructor
      · rintro ⟨entry, ⟨inOverlay, entryHome⟩, same⟩
        exact ⟨⟨entry, inOverlay, same⟩, (engine.layout.home?_congr same).symm.trans entryHome⟩
      · rintro ⟨⟨entry, inOverlay, same⟩, fileHome⟩
        exact ⟨entry, ⟨inOverlay, (engine.layout.home?_congr same).trans fileHome⟩, same⟩
    have forgotten : (homeFor engine.packages id directory).removed.contains file = false := by
      rw [removed_homeFor wellFormed inStep.clean id directory]
      exact PathMap.contains_empty file
    have last : lastFor? (Sweep.publications findings.linter engine.session.lint packages
        (engine.writtenBy world.read event id directory)
        (engine.writtenBy world.read event id directory).diagnostics) file = _ :=
      Package.lastFor?_publications (after.consistent _ member) confined packages file
    have shown : (engine.handle world event).2.sweep.published =
        Sweep.publications findings.linter engine.session.lint packages
          (engine.writtenBy world.read event id directory)
          (engine.writtenBy world.read event id directory).diagnostics := by
      rw [handled, ← linter]
      rfl
    rw [shown, last, Option.isSome_ite, writtenBy, Package.contains_files_written,
      Package.contains_removed_written, home]
    by_cases atPath : file.Same event.path
    · have fileHome : engine.layout.home? file = some id :=
        (engine.layout.home?_congr atPath).trans home
      cases event.content? world.read <;> simp [atPath, fileHome, accepted]
    · simp only [atPath, if_false, forgotten, Bool.false_eq_true, or_false, false_or, tracked,
        accepted, true_and, and_comm]

/-! ### Engines in step with one overlay -/

/-- Engines in step with one overlay have the same packages, up to the spelling of their
directories. -/
theorem InStep.map_respelled (leftInStep : left.InStep overlay) (rightInStep : right.InStep overlay)
    (sameLayout : left.layout = right.layout) :
    left.packages.packages.map (Overlay.respelled left.layout) =
      right.packages.packages.map (Overlay.respelled left.layout) := by
  rw [leftInStep.represents.map_respelled leftInStep.clean, sameLayout,
    rightInStep.represents.map_respelled rightInStep.clean]

theorem InStep.alike (leftInStep : left.InStep overlay) (rightInStep : right.InStep overlay)
    (sameLayout : left.layout = right.layout)
    (absolute : left.layout.root.isAbsolute = true) : left.packages.Alike right.packages := by
  have respelled := leftInStep.map_respelled rightInStep sameLayout
  rw [← List.forall₂_eq_eq_eq, List.forall₂_map_left_iff, List.forall₂_map_right_iff] at respelled
  refine List.forall₂_iff_zip.mpr ⟨respelled.length_eq, fun {package other} pair => ?_⟩
  obtain ⟨member, otherMember⟩ := List.of_mem_zip pair
  have equal := List.forall₂_zip respelled pair
  have sameId : package.id = other.id := by
    simpa only [Overlay.respelled] using congrArg Package.id equal
  have place := (leftInStep.represents.wellFormed.consistent package member).directory
  have otherPlace := (rightInStep.represents.wellFormed.consistent other otherMember).directory
  rw [← sameLayout, ← sameId] at otherPlace
  refine ⟨?_, Overlay.eq_of_respelled_eq rfl equal⟩
  exact (same_join_of_packageId absolute place).trans
    (same_join_of_packageId absolute otherPlace).symm

/-- What is shown for a file while no package is dirty: what the package of its place gives. -/
theorem InStep.shown (inStep : engine.InStep overlay) {published : List Publication}
    (keepsUp : engine.KeepsUp findings published) {file : Path} {shown : List Diagnostic}
    (last : lastFor? published file = some shown) :
    ∃ id, engine.layout.home? file = some id ∧
      shown = ((engine.packages.get? id).map fun package =>
        package.remarks engine.session.lint findings file).getD [] := by
  obtain ⟨id, home, state⟩ := keepsUp.upToDate file shown last
  refine ⟨id, home, ?_⟩
  cases found : engine.packages.get? id with
  | none =>
    rw [found] at state
    exact state
  | some package =>
    simp only [found, inStep.clean package (PackageSet.mem_of_get? found)] at state
    exact state

/-- What two engines in step with one overlay show for a file is the same. -/
theorem InStep.shown_eq (leftInStep : left.InStep overlay) (rightInStep : right.InStep overlay)
    (sameSession : left.session = right.session) (sameLayout : left.layout = right.layout)
    {leftPublished rightPublished : List Publication}
    (leftKeepsUp : left.KeepsUp findings leftPublished)
    (rightKeepsUp : right.KeepsUp findings rightPublished) {file : Path}
    {leftShown rightShown : List Diagnostic}
    (leftLast : lastFor? leftPublished file = some leftShown)
    (rightLast : lastFor? rightPublished file = some rightShown) : leftShown = rightShown := by
  obtain ⟨id, home, rfl⟩ := leftInStep.shown leftKeepsUp leftLast
  obtain ⟨otherId, otherHome, rfl⟩ := rightInStep.shown rightKeepsUp rightLast
  rw [← sameLayout, home, Option.some_inj] at otherHome
  subst otherHome
  -- The remarks of a package do not depend on how its directory is spelled.
  have respelled (set : PackageSet) :
      ((set.get? id).map fun package => package.remarks left.session.lint findings file) =
        ((set.packages.map (Overlay.respelled left.layout)).find? fun package =>
          package.id = id).map fun package => package.remarks left.session.lint findings file := by
    rw [List.find?_map, Option.map_map]
    rfl
  rw [← sameSession, respelled, respelled, leftInStep.map_respelled rightInStep sameLayout]

/-! ### Two events -/

/-- The requests to handle two events one after the other. -/
def inOrder (world : World) (first second : Event) : List (World × Request) :=
  [(world, .event first), (world, .event second)]

theorem run_inOrder (engine : Engine) (world : World) (first second : Event) :
    engine.run (inOrder world first second) =
      (((engine.handle world first).1.handle world second).1,
        (engine.handle world first).2.sweep.published ++
          ((engine.handle world first).1.handle world second).2.sweep.published) := rfl

/-- Two events on different documents lead to engines in step with one overlay in either order. -/
theorem InStep.inOrder (inStep : engine.InStep overlay) {world : World}
    (calm : world.fetcher = Engine.fetcher) {first second : Event}
    (different : ¬ first.path.Same second.path) :
    ∃ last, (engine.run (inOrder world first second)).1.InStep last ∧
      (engine.run (inOrder world second first)).1.InStep last := by
  have leftInStep := ((inStep.handle calm first).2.handle calm second).2
  have rightInStep := ((inStep.handle calm second).2.handle calm first).2
  rw [(frame_handle engine world first).2, overlay.advance_comm different] at leftInStep
  rw [(frame_handle engine world second).2] at rightInStep
  exact ⟨_, leftInStep, rightInStep⟩

/-- Two events on different documents publish for the same files in either order. -/
theorem InStep.isSome_lastFor?_inOrder (inStep : engine.InStep overlay)
    (confined : findings.Confined) {world : World} (calm : world.fetcher = Engine.fetcher)
    (linter : world.linter = findings.linter) {first second : Event}
    (different : ¬ first.path.Same second.path) (file : Path) :
    (lastFor? (engine.run (Engine.inOrder world first second)).2 file).isSome = true ↔
      overlay.Concerns engine.layout world.read first file ∨
        overlay.Concerns engine.layout world.read second file := by
  have afterFirst := (inStep.handle calm first).2
  rw [run_inOrder, lastFor?_append, Option.isSome_or, Bool.or_eq_true,
    afterFirst.isSome_lastFor? confined calm linter, inStep.isSome_lastFor? confined calm linter,
    (frame_handle engine world first).2, or_comm, overlay.concerns_advance different]

/-- Two events on different documents show the same for every file in either order. -/
theorem InStep.lastFor?_comm (inStep : engine.InStep overlay) (confined : findings.Confined)
    {world : World} (calm : world.fetcher = Engine.fetcher)
    (linter : world.linter = findings.linter) {first second : Event}
    (different : ¬ first.path.Same second.path) (file : Path) :
    lastFor? (engine.run (Engine.inOrder world first second)).2 file =
      lastFor? (engine.run (Engine.inOrder world second first)).2 file := by
  have fromSecond : ¬ second.path.Same first.path := fun same => different same.symm
  have sameFiles := (inStep.isSome_lastFor?_inOrder confined calm linter different file).trans
    (Or.comm.trans (inStep.isSome_lastFor?_inOrder confined calm linter fromSecond file).symm)
  have start : engine.KeepsUp findings [] :=
    ⟨inStep.represents.wellFormed, fun _ _ last => nomatch last⟩
  have keepsUp (one other : Event) :
      (engine.run (Engine.inOrder world one other)).1.KeepsUp findings
        (engine.run (Engine.inOrder world one other)).2 := by
    refine start.foldl_serve confined fun step member => ?_
    have has : world.Has findings := ⟨linter, calm ▸ faithful_fetcher⟩
    rcases List.mem_pair.mp member with rfl | rfl <;> exact has
  obtain ⟨last, leftInStep, rightInStep⟩ := inStep.inOrder calm different
  obtain ⟨leftSession, leftLayout⟩ := engine.frame_run (Engine.inOrder world first second)
  obtain ⟨rightSession, rightLayout⟩ := engine.frame_run (Engine.inOrder world second first)
  cases left : lastFor? (engine.run (Engine.inOrder world first second)).2 file with
  | none =>
    rw [left, Option.isSome_none] at sameFiles
    exact (Option.not_isSome_iff_eq_none.mp fun shown => nomatch sameFiles.mpr shown).symm
  | some shown =>
    rw [left, Option.isSome_some] at sameFiles
    obtain ⟨otherShown, right⟩ := Option.isSome_iff_exists.mp (sameFiles.mp rfl)
    rw [right, leftInStep.shown_eq rightInStep (leftSession.trans rightSession.symm)
      (leftLayout.trans rightLayout.symm) (keepsUp first second) (keepsUp second first) left right]

/-- An engine that asks for no advisory findings does the same with every linter. -/
theorem run_advised {world : World}
    (advice : engine.session.lint = false ∨ world.linter = findings.linter)
    (first second : Event) :
    engine.run (inOrder world first second) =
      engine.run (inOrder (advised world findings) first second) := by
  have later : (engine.handle (advised world findings) first).1.session.lint = false ∨
      world.linter = findings.linter := by
    rwa [(frame_handle engine (advised world findings) first).1]
  rw [run_inOrder, run_inOrder, handle_advised advice, handle_advised later]

/-- After loading and any requests, two events on different documents commute. Each is answered
alike whether it comes first or second, the packages are the same in the end, and so is the last
list published for every file in the whole session. -/
theorem events_commute {addressing : Addressing} {session : Session} {connect : Path → Layout}
    {disk : Disk} (sound : disk.root.isSound = true)
    (loaded : load addressing session connect disk = .ok engine)
    (absolute : engine.layout.root.isAbsolute = true) {history : List (World × Request)}
    (undisturbed : ∀ step ∈ history, step.1.fetcher = Engine.fetcher) {world : World}
    (calm : world.fetcher = Engine.fetcher) (confined : findings.Confined)
    (advice : engine.session.lint = false ∨ world.linter = findings.linter)
    {first second : Event} (different : ¬ first.path.Same second.path) :
    ((engine.run (history ++ [(world, .event second)])).1.handle world first).2.registration =
        ((engine.run history).1.handle world first).2.registration ∧
      ((engine.run (history ++ [(world, .event first)])).1.handle world second).2.registration =
        ((engine.run history).1.handle world second).2.registration ∧
      (engine.run (history ++ inOrder world first second)).1.packages.Alike
        (engine.run (history ++ inOrder world second first)).1.packages ∧
      ∀ file, lastFor? (engine.run (history ++ inOrder world first second)).2 file =
        lastFor? (engine.run (history ++ inOrder world second first)).2 file := by
  obtain ⟨overlay, inStep⟩ := (inStep_load sound loaded).run undisturbed
  obtain ⟨sameSession, sameLayout⟩ := engine.frame_run history
  simp only [run_append]
  generalize engine.run history = reached at inStep sameSession sameLayout ⊢
  have answer {one other : Event} (apart : ¬ one.path.Same other.path) :
      ((reached.1.run [(world, .event other)]).1.handle world one).2.registration =
        (reached.1.handle world one).2.registration := by
    have answered := ((inStep.handle calm other).2.handle calm one).1
    rw [(frame_handle reached.1 world other).2, overlay.advance_answer apart,
      ← (inStep.handle calm one).1] at answered
    exact answered
  refine ⟨answer different, answer fun same => different same.symm, ?_, fun file => ?_⟩
  · obtain ⟨last, leftInStep, rightInStep⟩ := inStep.inOrder calm different
    have leftLayout := (reached.1.frame_run (inOrder world first second)).2
    have rightLayout := (reached.1.frame_run (inOrder world second first)).2
    refine leftInStep.alike rightInStep (leftLayout.trans rightLayout.symm) ?_
    rw [leftLayout, sameLayout]
    exact absolute
  · rw [← sameSession] at advice
    have advisedCalm : (advised world findings).fetcher = Engine.fetcher := calm
    rw [lastFor?_append, lastFor?_append, run_advised advice, run_advised advice,
      inStep.lastFor?_comm confined advisedCalm rfl different file]

/-- A document that was never saved, alone in its package. -/
def draft : List (World × Request) :=
  [(nothingThere, .event (.opened ⟨"/.ws/api/b.gunk"⟩ "package b"))]

/-- The draft is closed, and another document of its directory is opened. The package is dropped
and brought back in one order and kept in the other, which shows in the spelling of its directory
and in nothing else. -/
theorem events_commute_dropping :
    load Url.addressing bare.session ofRoot (.hidden []) = .ok bare ∧
      ((bare.run (draft ++ inOrder nothingThere (.closed ⟨"/.ws/api/b.gunk"⟩)
          (.opened ⟨"/.ws//api/a.gunk"⟩ "nonsense"))).1.packages.Alike
        (bare.run (draft ++ inOrder nothingThere (.opened ⟨"/.ws//api/a.gunk"⟩ "nonsense")
          (.closed ⟨"/.ws/api/b.gunk"⟩))).1.packages ∧
        ∀ file, lastFor? (bare.run (draft ++ inOrder nothingThere (.closed ⟨"/.ws/api/b.gunk"⟩)
            (.opened ⟨"/.ws//api/a.gunk"⟩ "nonsense"))).2 file =
          lastFor? (bare.run (draft ++ inOrder nothingThere
            (.opened ⟨"/.ws//api/a.gunk"⟩ "nonsense") (.closed ⟨"/.ws/api/b.gunk"⟩))).2 file) ∧
      (bare.run (draft ++ inOrder nothingThere (.closed ⟨"/.ws/api/b.gunk"⟩)
          (.opened ⟨"/.ws//api/a.gunk"⟩ "nonsense"))).1.packages.packages.map Package.directory =
        [⟨"/.ws//api"⟩] ∧
      (bare.run (draft ++ inOrder nothingThere (.opened ⟨"/.ws//api/a.gunk"⟩ "nonsense")
          (.closed ⟨"/.ws/api/b.gunk"⟩))).1.packages.packages.map Package.directory =
        [⟨"/.ws/api"⟩] := by
  have loaded : load Url.addressing bare.session ofRoot (.hidden []) = .ok bare :=
    load_bare (load_hidden rfl)
  have silent : Findings.Confined fun _ _ => .empty := fun _ _ _ present => nomatch present
  refine ⟨loaded, (events_commute (by decide) loaded (by decide) ?_ rfl silent (.inr rfl) ?_).2.2,
    by decide +kernel, by decide +kernel⟩
  · exact List.forall_mem_singleton.mpr rfl
  · decide

end Engine

end WorkspaceSync
