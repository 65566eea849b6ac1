/-
This file proves that the layers of settings keep their precedence in whatever
order they are read.

The settings in force keep no stack of layers: each step writes over them in
place and then lays the remembered layers on again. A layer above a layer is a
layer again, and a layer on top hides whatever it has left further down. The
settings in force are therefore, at any time, the defaults under one layer,
which consists of everything that was read, in the order of precedence.
-/
import WorkspaceSync.Config
import WorkspaceSync.Proofs.Walk

namespace WorkspaceSync

namespace Settings

/-! ### One layer above another -/

/-- A layer above another: the lower one counts for the keys that the upper one does not set. -/
def above (upper lower : Settings) : Settings :=
  { lint := upper.lint.or lower.lint
    lintCommand := upper.lintCommand.or lower.lintCommand
    extension := upper.extension.or lower.extension
    skipList := upper.skipList.or lower.skipList }

theorem above_assoc (upper middle lower : Settings) :
    (upper.above middle).above lower = upper.above (middle.above lower) := by
  simp only [above, Option.or_assoc]

@[simp] theorem above_empty (upper : Settings) : upper.above empty = upper := by
  simp only [above, empty, Option.or_none]

/-- A layer on top hides itself further down. -/
theorem above_absorbs (top middle lower : Settings) :
    top.above (middle.above (top.above lower)) = top.above (middle.above lower) := by
  have hides {Kind : Type} (first second third : Option Kind) :
      first.or (second.or (first.or third)) = first.or (second.or third) := by
    cases first <;> rfl
  simp only [above, hides]

/-- One of the keys that a layer may set. -/
structure IsKey {Kind : Type} (key : Settings → Option Kind) : Prop where
  unset : key .empty = none
  above : ∀ upper lower, key (upper.above lower) = (key upper).or (key lower)

section Keys

variable {Kind : Type} {key : Settings → Option Kind}

/-- A layer that is not there sets nothing. -/
theorem IsKey.getD (isKey : IsKey key) (layer : Option Settings) :
    key (layer.getD .empty) = layer.bind key := by
  cases layer with
  | none => exact isKey.unset
  | some settings => rfl

/-- Of a pile of layers the topmost that sets a key decides it. -/
theorem IsKey.foldl (isKey : IsKey key) (pile : List Settings) (lowest : Settings) :
    key (pile.foldl (fun lower upper => upper.above lower) lowest) =
      (pile.reverse.findSome? key).or (key lowest) := by
  induction pile generalizing lowest with
  | nil => rfl
  | cons first later inductionHypothesis =>
    have single : [first].findSome? key = key first := by
      rw [List.findSome?_cons, List.findSome?_nil]
      cases key first <;> rfl
    rw [List.foldl_cons, inductionHypothesis, isKey.above, List.reverse_cons,
      List.findSome?_append, single, Option.or_assoc]

end Keys

/-- The layer of a file that is there and can be used. -/
def found? (disk : Disk) (path : Path) : Option Settings :=
  if disk.isFile path then (ofFile disk path).toOption else none

theorem found?_eq_some_iff {disk : Disk} {path : Path} {settings : Settings} :
    found? disk path = some settings ↔
      disk.isFile path = true ∧ ofFile disk path = .ok settings := by
  unfold found?
  cases disk.isFile path <;> cases ofFile disk path <;> simp [Except.toOption]

end Settings

/-! ### The order of precedence -/

/-- Everything that was laid on, by its origin. -/
structure Layers where
  user : Option Settings
  /-- The project files, the one that was read first at the head. -/
  projects : List Settings
  client : Option Settings
  commandLine : Settings

namespace Layers

/-- What the layers choose for a key: the command line decides, then the client, then the project
file that was read last among those that set the key, then the user's file. -/
def choice {Kind : Type} (layers : Layers) (key : Settings → Option Kind) : Option Kind :=
  (key layers.commandLine).or ((layers.client.bind key).or
    ((layers.projects.reverse.findSome? key).or (layers.user.bind key)))

/-- The files, the later ones above the earlier. -/
def files (layers : Layers) : Settings :=
  layers.projects.foldl (fun lower upper => upper.above lower) (layers.user.getD .empty)

/-- The layers that are remembered. -/
def remembered (layers : Layers) : Settings :=
  layers.commandLine.above (layers.client.getD .empty)

/-- All layers as one. -/
def merged (layers : Layers) : Settings :=
  layers.remembered.above layers.files

end Layers

namespace Config

/-! ### Settings under one layer -/

/-- Laying two layers on is laying on the one above the other. -/
theorem apply_apply (config : Config) (lower upper : Settings) :
    (config.apply lower).apply upper = config.apply (upper.above lower) := by
  have getD_or {Kind : Type} (first second : Option Kind) (other : Kind) :
      first.getD (second.getD other) = (first.or second).getD other := by
    cases first <;> rfl
  simp only [apply, Settings.above, getD_or, Option.map_or]

/-- The defaults, with the layers that are remembered. -/
def ground (logLevel : String) (sources : List Path) (layers : Layers) : Config :=
  { default with
    logLevel
    sources
    client := layers.client.getD .empty
    commandLine := layers.commandLine }

/-- The settings in force under the given layers. -/
def ofLayers (logLevel : String) (sources : List Path) (layers : Layers) : Config :=
  (ground logLevel sources layers).apply layers.merged

variable {logLevel : String} {sources : List Path} {layers : Layers}

/-- A project file that is there and can be used goes over the other files and below the
remembered layers. -/
theorem loadProject_ofLayers {disk : Disk} {root : Path} {settings : Settings}
    (found : Settings.found? disk (projectFile root) = some settings) :
    (ofLayers logLevel sources layers).loadProject disk root =
      (ofLayers logLevel (sources ++ [projectFile root])
          { layers with projects := layers.projects ++ [settings] },
        .ok (some (projectFile root))) := by
  obtain ⟨isFile, read⟩ := Settings.found?_eq_some_iff.mp found
  let joined : Layers := { layers with projects := layers.projects ++ [settings] }
  have joinedFiles : joined.files = settings.above layers.files := List.foldl_append ..
  have relaid : (((ofLayers logLevel sources layers).apply settings).apply
      (layers.client.getD .empty)).apply layers.commandLine =
        (ground logLevel sources layers).apply joined.merged := by
    rw [ofLayers, apply_apply, apply_apply, apply_apply, ← Layers.remembered,
      Settings.above_assoc, Layers.merged, Settings.above_absorbs, ← joinedFiles]
    rfl
  have placed : { (ground logLevel sources layers).apply joined.merged with
      sources := sources ++ [projectFile root] } =
        ofLayers logLevel (sources ++ [projectFile root]) joined := rfl
  rw [← placed, ← relaid, loadProject, if_pos isFile, read]
  rfl

/-- Without a file nothing is laid on. -/
theorem loadProject_of_not_isFile {disk : Disk} {root : Path} (config : Config)
    (missing : disk.isFile (projectFile root) = false) :
    config.loadProject disk root = (config, .ok none) := by
  rw [loadProject, missing]
  rfl

/-- A file that cannot be used is reported, and nothing is laid on. -/
theorem loadProject_of_error {disk : Disk} {root : Path} {error : SettingsError} (config : Config)
    (isFile : disk.isFile (projectFile root) = true)
    (read : Settings.ofFile disk (projectFile root) = .error error) :
    config.loadProject disk root = (config, .error error) := by
  rw [loadProject, if_pos isFile, read]

/-- The first options of the client go over the files and below the command line. -/
theorem applyClient_ofLayers (settings : Settings) (unset : layers.client = none) :
    (ofLayers logLevel sources layers).applyClient settings =
      ofLayers logLevel sources { layers with client := some settings } := by
  let joined : Layers := { layers with client := some settings }
  have only : layers.remembered = layers.commandLine := by
    rw [Layers.remembered, unset]
    exact Settings.above_empty layers.commandLine
  have relaid : (((ground logLevel sources joined).apply layers.merged).apply settings).apply
      layers.commandLine = (ground logLevel sources joined).apply joined.merged := by
    rw [apply_apply, apply_apply, Settings.above_assoc, Layers.merged, only,
      Settings.above_absorbs, ← Settings.above_assoc]
    rfl
  exact relaid

/-- What may be laid on after the start. -/
inductive Change where
  /-- The project file of a root, as a disk has it at that time. -/
  | project (disk : Disk) (root : Path)
  /-- The options of the client. -/
  | client (settings : Settings)

namespace Change

/-- The layer of a project file that is there and can be used. -/
def project? : Change → Option Settings
  | .project disk root => Settings.found? disk (projectFile root)
  | .client _ => none

/-- The project file, if it is there and can be used. -/
def source? : Change → Option Path
  | .project disk root => (Settings.found? disk (projectFile root)).map fun _ => projectFile root
  | .client _ => none

/-- The options of the client. -/
def client? : Change → Option Settings
  | .project .. => none
  | .client settings => some settings

end Change

/-- The settings after a change. -/
def changed (config : Config) : Change → Config
  | .project disk root => (config.loadProject disk root).1
  | .client settings => config.applyClient settings

/-- A project file that is missing or cannot be used changes nothing. -/
theorem changed_of_not_found {disk : Disk} {root : Path} (config : Config)
    (missing : Settings.found? disk (projectFile root) = none) :
    config.changed (.project disk root) = config := by
  rw [changed]
  cases isFile : disk.isFile (projectFile root) with
  | false => rw [config.loadProject_of_not_isFile isFile]
  | true =>
    cases read : Settings.ofFile disk (projectFile root) with
    | error error => rw [config.loadProject_of_error isFile read]
    | ok settings =>
      rw [Settings.found?_eq_some_iff.mpr ⟨isFile, read⟩] at missing
      exact absurd missing (Option.some_ne_none settings)

/-- A project file that is there and can be used joins the layers. -/
theorem changed_of_found {disk : Disk} {root : Path} {settings : Settings}
    (found : Settings.found? disk (projectFile root) = some settings) :
    (ofLayers logLevel sources layers).changed (.project disk root) =
      ofLayers logLevel (sources ++ [projectFile root])
        { layers with projects := layers.projects ++ [settings] } := by
  rw [changed, loadProject_ofLayers found]

/-- Every row of changes puts its layers where the order of precedence wants them. -/
theorem foldl_changed (changes : List Change)
    (once : (layers.client.toList ++ changes.filterMap Change.client?).length ≤ 1) :
    changes.foldl changed (ofLayers logLevel sources layers) =
      ofLayers logLevel (sources ++ changes.filterMap Change.source?)
        { layers with
          projects := layers.projects ++ changes.filterMap Change.project?
          client := layers.client.or (changes.filterMap Change.client?).head? } := by
  induction changes generalizing sources layers with
  | nil =>
    simp only [List.foldl_nil, List.filterMap_nil, List.append_nil, List.head?_nil, Option.or_none]
  | cons change later inductionHypothesis =>
    rw [List.foldl_cons]
    cases change with
    | project disk root =>
      have noClient : Change.client? (.project disk root) = none := rfl
      rw [List.filterMap_cons_none noClient] at once ⊢
      cases found : Settings.found? disk (projectFile root) with
      | none =>
        have noSource : Change.source? (.project disk root) = none := by
          rw [Change.source?, found, Option.map_none]
        have noProject : Change.project? (.project disk root) = none := found
        rw [changed_of_not_found _ found, inductionHypothesis once,
          List.filterMap_cons_none noSource, List.filterMap_cons_none noProject]
      | some settings =>
        have source : Change.source? (.project disk root) = some (projectFile root) := by
          rw [Change.source?, found, Option.map_some]
        have project : Change.project? (.project disk root) = some settings := found
        rw [changed_of_found found]
        refine (inductionHypothesis ?_).trans ?_
        · exact once
        · rw [List.filterMap_cons_some source, List.filterMap_cons_some project,
            ← List.append_cons, ← List.append_cons]
    | client settings =>
      have client : Change.client? (.client settings) = some settings := rfl
      have noSource : Change.source? (.client settings) = none := rfl
      have noProject : Change.project? (.client settings) = none := rfl
      rw [List.filterMap_cons_some client, List.length_append, List.length_cons] at once
      have unset : layers.client = none := by
        cases present : layers.client with
        | none => rfl
        | some earlier =>
          rw [present, Option.toList_some, List.length_singleton] at once
          omega
      have last : later.filterMap Change.client? = [] := List.eq_nil_of_length_eq_zero (by omega)
      have onceAgain : ((some settings).toList ++ later.filterMap Change.client?).length ≤ 1 := by
        rw [last]
        exact Nat.le_refl 1
      rw [changed, applyClient_ofLayers settings unset, inductionHypothesis onceAgain,
        List.filterMap_cons_some client, List.filterMap_cons_none noSource,
        List.filterMap_cons_none noProject, unset]
      rfl

end Config

end WorkspaceSync
