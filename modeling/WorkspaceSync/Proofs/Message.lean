/-
This file says what the messages between an editor and the server stand for,
without regard to how the server finds out.

A message about a document stands for an event if the document's address leads
to a local path. A request to begin names the root of the workspace: the first
of all its addresses, which have to be readable. A notice delivers a publication
if it is about the address of the file and shows the diagnostics one by one. For
each of these there is a proof that the server sees it the same way.
-/
import Mathlib.Data.List.Forall2
import WorkspaceSync.Server

namespace WorkspaceSync

/-- A computation in two parts succeeds if and only if both parts do. -/
theorem bind_eq_ok_iff {Error First Second : Type} {first : Except Error First}
    {second : First → Except Error Second} {result : Second} :
    first >>= second = .ok result ↔ ∃ value, first = .ok value ∧ second value = .ok result := by
  cases first with
  | error error => simp [bind, Except.bind]
  | ok value => simp [bind, Except.bind]

namespace Server

/-! ### Messages about documents -/

/-- The address of the document that a message is about. -/
def Message.document? : Message → Option String
  | .opened uri _ => some uri
  | .changed uri _ => some uri
  | .closed uri => some uri
  | _ => none

/-- An address leads to a local path. -/
def LeadsTo (addressing : Addressing) (uri : String) (path : Path) : Prop :=
  ∃ address, addressing.read uri = .ok address ∧ addressing.toPath? address = some path

/-- The event that a message about a document with a local path stands for. -/
inductive StandsFor (addressing : Addressing) : Message → Event → Prop
  | opened {uri : String} {path : Path} (leads : LeadsTo addressing uri path) (text : String) :
    StandsFor addressing (.opened uri text) (.opened path text)
  /-- The last change without a range has the whole text. -/
  | updated {uri : String} {path : Path} (leads : LeadsTo addressing uri path)
      (earlier : List Change) {change : Change} {ranged : List Change}
      (whole : change.isRanged = false) (last : ∀ other ∈ ranged, other.isRanged = true) :
    StandsFor addressing (.changed uri (earlier ++ change :: ranged)) (.updated path change.text)
  | updateRejected {uri : String} {path : Path} (leads : LeadsTo addressing uri path)
      {changes : List Change} (ranged : ∀ change ∈ changes, change.isRanged = true) :
    StandsFor addressing (.changed uri changes) (.updateRejected path)
  | closed {uri : String} {path : Path} (leads : LeadsTo addressing uri path) :
    StandsFor addressing (.closed uri) (.closed path)

variable {addressing : Addressing}

/-- The server finds the local path that an address leads to, if there is one. -/
theorem documentPath?_eq_some_iff (uri : String) (path : Path) :
    documentPath? addressing uri = some path ↔ LeadsTo addressing uri path := by
  unfold documentPath? LeadsTo
  cases addressing.read uri with
  | error reason => simp
  | ok address => simp

theorem documentPath?_eq_none {uri : String}
    (foreign : ∀ path, ¬ LeadsTo addressing uri path) : documentPath? addressing uri = none := by
  refine Option.eq_none_iff_forall_ne_some.mpr fun path found => foreign path ?_
  exact (documentPath?_eq_some_iff uri path).mp found

/-- Among changes there is a last one without a range, or all have one. -/
theorem changes_cases (changes : List Change) :
    (∃ earlier change ranged, changes = earlier ++ change :: ranged ∧ change.isRanged = false ∧
        ∀ other ∈ ranged, other.isRanged = true) ∨
      ∀ change ∈ changes, change.isRanged = true := by
  induction changes with
  | nil => exact .inr fun _ member => absurd member List.not_mem_nil
  | cons first later inductionHypothesis =>
    rcases inductionHypothesis with ⟨earlier, change, ranged, rfl, whole, last⟩ | ranged
    · exact .inl ⟨first :: earlier, change, ranged, rfl, whole, last⟩
    · cases kind : first.isRanged with
      | false => exact .inl ⟨[], first, later, rfl, kind, ranged⟩
      | true => exact .inr (List.forall_mem_cons.mpr ⟨kind, ranged⟩)

theorem filter_of_ranged {changes : List Change}
    (ranged : ∀ change ∈ changes, change.isRanged = true) :
    changes.filter (fun change => !change.isRanged) = [] :=
  List.filter_eq_nil_iff.mpr fun change member => by simp [ranged change member]

theorem fullText?_of_whole (earlier : List Change) {change : Change} {ranged : List Change}
    (whole : change.isRanged = false) (last : ∀ other ∈ ranged, other.isRanged = true) :
    fullText? (earlier ++ change :: ranged) = some change.text := by
  rw [fullText?, List.filter_append, List.filter_cons_of_pos (by simp [whole]),
    filter_of_ranged last, List.getLast?_concat]
  rfl

theorem fullText?_of_ranged {changes : List Change}
    (ranged : ∀ change ∈ changes, change.isRanged = true) : fullText? changes = none := by
  rw [fullText?, filter_of_ranged ranged]
  rfl

/-- The server takes a message for the event that it stands for. -/
theorem StandsFor.event?_eq {message : Message} {event : Event}
    (stands : StandsFor addressing message event) : event? addressing message = some event := by
  cases stands with
  | opened leads text =>
    rw [event?, (documentPath?_eq_some_iff _ _).mpr leads, Option.map_some]
  | updated leads earlier whole last =>
    rw [event?, (documentPath?_eq_some_iff _ _).mpr leads, Option.map_some,
      fullText?_of_whole earlier whole last]
  | updateRejected leads ranged =>
    rw [event?, (documentPath?_eq_some_iff _ _).mpr leads, Option.map_some,
      fullText?_of_ranged ranged]
  | closed leads => rw [event?, (documentPath?_eq_some_iff _ _).mpr leads, Option.map_some]

/-- What stands for an event is a message about a document. -/
theorem StandsFor.exists_document? {message : Message} {event : Event}
    (stands : StandsFor addressing message event) : ∃ uri, message.document? = some uri := by
  cases stands with
  | opened => exact ⟨_, rfl⟩
  | updated => exact ⟨_, rfl⟩
  | updateRejected => exact ⟨_, rfl⟩
  | closed => exact ⟨_, rfl⟩

/-- A message about a document with a local path stands for an event. -/
theorem exists_standsFor {message : Message} {uri : String} {path : Path}
    (about : message.document? = some uri) (leads : LeadsTo addressing uri path) :
    ∃ event, StandsFor addressing message event := by
  cases message with
  | opened other text =>
    obtain rfl := Option.some.inj about
    exact ⟨_, .opened leads text⟩
  | changed other changes =>
    obtain rfl := Option.some.inj about
    rcases changes_cases changes with ⟨earlier, change, ranged, rfl, whole, last⟩ | ranged
    · exact ⟨_, .updated leads earlier whole last⟩
    · exact ⟨_, .updateRejected leads ranged⟩
  | closed other =>
    obtain rfl := Option.some.inj about
    exact ⟨_, .closed leads⟩
  | _ => exact absurd about (by simp [Message.document?])

/-- A message about any other document stands for nothing. -/
theorem event?_of_foreign {message : Message} {uri : String} (about : message.document? = some uri)
    (foreign : ∀ path, ¬ LeadsTo addressing uri path) : event? addressing message = none := by
  cases message with
  | opened other text =>
    obtain rfl := Option.some.inj about
    rw [event?, documentPath?_eq_none foreign, Option.map_none]
  | changed other changes =>
    obtain rfl := Option.some.inj about
    rw [event?, documentPath?_eq_none foreign, Option.map_none]
  | closed other =>
    obtain rfl := Option.some.inj about
    rw [event?, documentPath?_eq_none foreign, Option.map_none]
  | _ => exact absurd about (by simp [Message.document?])

/-! ### Requests to begin -/

theorem readAddress_eq_ok_iff (uri : String) (address : addressing.Address) :
    readAddress addressing uri = .ok address ↔ addressing.read uri = .ok address := by
  unfold readAddress
  cases addressing.read uri with
  | error reason => simp
  | ok other => simp

/-- A row of texts is read as a row of addresses. -/
abbrev AllRead (addressing : Addressing) (uris : List String)
    (addresses : List addressing.Address) : Prop :=
  List.Forall₂ (fun uri address => addressing.read uri = .ok address) uris addresses

theorem AllRead.readable {uris : List String} {addresses : List addressing.Address}
    (read : AllRead addressing uris addresses) :
    ∀ uri ∈ uris, ∃ address, addressing.read uri = .ok address := by
  induction read with
  | nil => exact fun _ member => absurd member List.not_mem_nil
  | cons here _ inductionHypothesis =>
    exact List.forall_mem_cons.mpr ⟨⟨_, here⟩, inductionHypothesis⟩

theorem AllRead.head?_eq_some_iff {uris : List String} {addresses : List addressing.Address}
    (read : AllRead addressing uris addresses) (address : addressing.Address) :
    addresses.head? = some address ↔
      ∃ uri, uris.head? = some uri ∧ addressing.read uri = .ok address := by
  cases read with
  | nil => simp
  | cons here _ => simp [here]

theorem exists_allRead {uris : List String}
    (readable : ∀ uri ∈ uris, ∃ address, addressing.read uri = .ok address) :
    ∃ addresses, AllRead addressing uris addresses := by
  induction uris with
  | nil => exact ⟨[], .nil⟩
  | cons uri later inductionHypothesis =>
    obtain ⟨⟨address, here⟩, further⟩ := List.forall_mem_cons.mp readable
    obtain ⟨others, read⟩ := inductionHypothesis further
    exact ⟨address :: others, .cons here read⟩

theorem mapM_readAddress_eq_ok_iff (uris : List String) (addresses : List addressing.Address) :
    uris.mapM (readAddress addressing) = .ok addresses ↔ AllRead addressing uris addresses := by
  induction uris generalizing addresses with
  | nil =>
    rw [List.mapM_nil, AllRead, List.forall₂_nil_left_iff]
    exact ⟨fun equal => (Except.ok.inj equal).symm, fun equal => equal ▸ rfl⟩
  | cons uri later inductionHypothesis =>
    simp only [List.mapM_cons, bind_eq_ok_iff, readAddress_eq_ok_iff, inductionHypothesis,
      AllRead, List.forall₂_cons_left_iff]
    constructor
    · rintro ⟨address, read, others, further, equal⟩
      exact ⟨address, others, read, further, (Except.ok.inj equal).symm⟩
    · rintro ⟨address, others, read, further, rfl⟩
      exact ⟨address, read, others, further, rfl⟩

/-- A root that may be missing is read like a row of at most one. -/
theorem option_mapM_readAddress_eq_ok_iff (root : Option String)
    (found : Option addressing.Address) :
    root.mapM (readAddress addressing) = .ok found ↔
      AllRead addressing root.toList found.toList := by
  rw [← mapM_readAddress_eq_ok_iff]
  cases root with
  | none => cases found <;> simp [pure, Except.pure]
  | some uri =>
    cases read : readAddress addressing uri <;> cases found <;>
      simp [read, bind, Except.bind, pure, Except.pure, Functor.map, Except.map]

/-- The root of a request is the first of its addresses, all of which have to be readable. -/
theorem readRoot_eq_some_iff (folders : List String) (root : Option String)
    (address : addressing.Address) :
    readRoot addressing folders root = .ok (some address) ↔
      (∀ uri ∈ folders ++ root.toList, ∃ other, addressing.read uri = .ok other) ∧
        ∃ uri, (folders ++ root.toList).head? = some uri ∧ addressing.read uri = .ok address := by
  have reads : readRoot addressing folders root = .ok (some address) ↔
      ∃ rootAddress : Option addressing.Address, AllRead addressing root.toList rootAddress.toList ∧
        ∃ addresses, AllRead addressing folders addresses ∧
          (addresses ++ rootAddress.toList).head? = some address := by
    simp only [readRoot, bind_eq_ok_iff, mapM_readAddress_eq_ok_iff,
      option_mapM_readAddress_eq_ok_iff, List.head?_append, Option.head?_toList]
    simp [pure, Except.pure]
  rw [reads]
  constructor
  · rintro ⟨rootAddress, rootRead, addresses, foldersRead, first⟩
    have allRead : AllRead addressing (folders ++ root.toList) (addresses ++ rootAddress.toList) :=
      List.rel_append foldersRead rootRead
    exact ⟨allRead.readable, (allRead.head?_eq_some_iff address).mp first⟩
  · rintro ⟨readable, named⟩
    obtain ⟨addresses, foldersRead⟩ := exists_allRead fun uri member =>
      readable uri (List.mem_append_left _ member)
    obtain ⟨rootAddress, rootRead⟩ : ∃ rootAddress : Option addressing.Address,
        AllRead addressing root.toList rootAddress.toList := by
      cases root with
      | none => exact ⟨none, .nil⟩
      | some uri =>
        obtain ⟨other, read⟩ := readable uri (List.mem_append_right _ List.mem_cons_self)
        exact ⟨some other, .cons read .nil⟩
    have allRead : AllRead addressing (folders ++ root.toList) (addresses ++ rootAddress.toList) :=
      List.rel_append foldersRead rootRead
    exact ⟨rootAddress, rootRead, addresses, foldersRead,
      (allRead.head?_eq_some_iff address).mpr named⟩

/-! ### Notices -/

/-- A marker shows a diagnostic to the editor. -/
structure Shows (marker : Marker) (diagnostic : Diagnostic) : Prop where
  range : marker.range = diagnostic.span
  severity : marker.severity =
    match diagnostic.severity with
    | .error => 1
    | .warning => 2
    | .info => 3
    | .hint => 4
  source : marker.source = diagnostic.source.getD "gunkls"
  message : marker.message = diagnostic.message

/-- A diagnostic is shown by one marker only. -/
theorem shows_iff (marker : Marker) (diagnostic : Diagnostic) :
    Shows marker diagnostic ↔ marker = .ofDiagnostic diagnostic := by
  have code : severityCode diagnostic.severity =
      match diagnostic.severity with
      | .error => 1
      | .warning => 2
      | .info => 3
      | .hint => 4 := by
    cases diagnostic.severity <;> rfl
  constructor
  · rintro ⟨range, severity, source, message⟩
    cases marker
    simp only at range severity source message
    rw [Marker.ofDiagnostic, code, range, severity, source, message]
    rfl
  · rintro rfl
    exact ⟨rfl, code, rfl, rfl⟩

theorem forall₂_shows_iff (markers : List Marker) (diagnostics : List Diagnostic) :
    List.Forall₂ Shows markers diagnostics ↔ markers = diagnostics.map Marker.ofDiagnostic := by
  have shows_eq : Shows = fun marker diagnostic => marker = .ofDiagnostic diagnostic := by
    funext marker diagnostic
    exact propext (shows_iff marker diagnostic)
  rw [shows_eq, ← List.forall₂_map_right_iff, List.forall₂_eq_eq_eq]

/-- A publication reaches the editor: the notice is about the address of its file and shows its
diagnostics, in order. -/
def Delivers (addressing : Addressing) (publication : Publication) (notice : Notice) : Prop :=
  ∃ uri markers, addressing.ofPath? publication.file = some uri ∧
    notice = .publish uri markers ∧ List.Forall₂ Shows markers publication.diagnostics

/-- The server sends what delivers the publication, if anything does. -/
theorem delivers_iff (publication : Publication) (notice : Notice) :
    Delivers addressing publication notice ↔ notice? addressing publication = some notice := by
  unfold Delivers notice?
  cases addressing.ofPath? publication.file with
  | none => simp
  | some uri => simp [forall₂_shows_iff, eq_comm]

/-- Of publications with absolute paths each one is delivered, in order. -/
theorem forall₂_delivers (documented : addressing.Documented) {published : List Publication}
    (absolute : ∀ publication ∈ published, publication.file.isAbsolute = true) :
    List.Forall₂ (Delivers addressing) published (published.filterMap (notice? addressing)) := by
  induction published with
  | nil => exact .nil
  | cons publication later inductionHypothesis =>
    obtain ⟨here, further⟩ := List.forall_mem_cons.mp absolute
    obtain ⟨uri, address⟩ := documented.exists_ofPath? publication.file here
    have sent : notice? addressing publication =
        some (.publish uri (publication.diagnostics.map Marker.ofDiagnostic)) := by
      rw [notice?, address, Option.map_some]
    rw [List.filterMap_cons_some sent]
    exact .cons ((delivers_iff _ _).mpr sent) (inductionHypothesis further)

end Server

end WorkspaceSync
