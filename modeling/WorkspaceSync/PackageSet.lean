/-
This file defines the set of the packages of a workspace.

The packages stand in ascending order of their ids. Reading walks the set from
its start; writing a package finds its place by bisection. Where several
packages share an id, reading takes the first of them and writing replaces the
last.
-/
import WorkspaceSync.Package

namespace WorkspaceSync

/-- The packages of a workspace, in the order of their ids. -/
structure PackageSet where
  packages : List Package

namespace PackageSet

/-- The set without packages. -/
def empty : PackageSet := ⟨[]⟩

instance : Inhabited PackageSet := ⟨empty⟩

/-- The set of the given packages; those with equal ids keep their order. -/
def ofList (packages : List Package) : PackageSet :=
  ⟨packages.mergeSort fun left right => left.id ≤ right.id⟩

/-! ### Reading -/

/-- The first package with an id. -/
def get? (set : PackageSet) (id : PackageId) : Option Package :=
  set.packages.find? fun package => package.id = id

/-- The first package that has a file. -/
def ownerOf? (set : PackageSet) (path : Path) : Option Package :=
  set.packages.find? fun package => package.files.contains path

/-- The ids in the order of the set. -/
def ids (set : PackageSet) : List PackageId :=
  set.packages.map Package.id

/-- The ids of the packages whose diagnostics wait to be published, in the order of the set. -/
def dirty (set : PackageSet) : List PackageId :=
  (set.packages.filter Package.isDirty).map Package.id

/-! ### Writing -/

/-- The last index from `base` on, within `size` packages, whose id is not above the given one, or
`base` if all of them are above it. -/
def bisect (packages : List Package) (id : PackageId) (base size : Nat) : Nat :=
  if size ≤ 1 then base
  else
    let half := size / 2
    let middle := base + half
    if packages[middle]?.any fun package => id < package.id then
      bisect packages id base (size - half)
    else bisect packages id middle (size - half)
termination_by size
decreasing_by all_goals omega

/-- Puts a package in, in place of the last one with its id if there is one. -/
def upsert (set : PackageSet) (package : Package) : PackageSet :=
  let index := bisect set.packages package.id 0 set.packages.length
  match set.packages[index]? with
  | none => ⟨[package]⟩
  | some found =>
    if found.id = package.id then ⟨set.packages.set index package⟩
    else if found.id < package.id then ⟨set.packages.insertIdx (index + 1) package⟩
    else ⟨set.packages.insertIdx index package⟩

/-- Changes the first package with an id. -/
def modify (set : PackageSet) (id : PackageId) (change : Package → Package) : PackageSet :=
  ⟨set.packages.modify (set.packages.findIdx fun package => package.id = id) change⟩

/-- The set once the diagnostics of a package are published: the package is settled, and dropped
if it has no files left. -/
def settle (set : PackageSet) (id : PackageId) : PackageSet :=
  match set.get? id with
  | none => set
  | some package =>
    if package.files.isEmpty then ⟨set.packages.eraseP fun package => package.id = id⟩
    else set.modify id Package.settled

end PackageSet

end WorkspaceSync
