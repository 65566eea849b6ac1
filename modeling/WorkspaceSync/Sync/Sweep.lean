/-
This file publishes what changed: a sweep fetches the diagnostics of every
dirty package, adds advisory findings where the package has no errors, and
publishes them file by file.

A package that was published is settled. One whose diagnostics cannot be
fetched stays dirty, so that the next sweep tries again.
-/
import WorkspaceSync.Lint.Command
import WorkspaceSync.Sync.Error
import WorkspaceSync.Tracking

namespace WorkspaceSync

/-- What fetches the diagnostics of a package of a set. The number says how many fetches were made
before in the same sweep, so that a fetcher may fail at some calls and not at others. -/
abbrev Fetcher := Nat → PackageSet → PackageId → Except PackageError FileDiagnostics

/-- One list of diagnostics that replaces whatever was published for its file before. -/
structure Publication where
  file : Path
  diagnostics : List Diagnostic
  deriving DecidableEq, Repr

/-- What one sweep did. -/
structure Sweep where
  /-- The packages that were published and are settled now. -/
  swept : List PackageId
  /-- What was published, in order. -/
  published : List Publication
  /-- How many publications were made. -/
  count : Nat
  /-- The packages that stay dirty, and why. -/
  failures : List (PackageId × PackageError)
  /-- The packages whose diagnostics were asked for. -/
  fetched : List PackageId
  /-- The packages that were handed to the linter. -/
  linted : List PackageId
  deriving DecidableEq, Repr

namespace Sweep

/-- The sweep that did nothing. -/
def none : Sweep := ⟨[], [], 0, [], [], []⟩

/-- The failures as errors of the whole. -/
def errors (sweep : Sweep) : List SyncError :=
  sweep.failures.map fun (package, cause) => .diagnosticsFetch package cause

/-- Whether advisory findings are wanted for a package: errors keep them out. -/
def wantsLint (lint : Bool) (package : Package) : Bool :=
  lint && package.errors.isEmpty

/-- What is published for a package. -/
def publications (linter : Linter) (lint : Bool) (set : PackageSet) (package : Package)
    (fetched : FileDiagnostics) : List Publication :=
  let all :=
    if wantsLint lint package then FileDiagnostics.append fetched (linter set package) else fetched
  all.entries.map fun (file, diagnostics) => ⟨file, diagnostics⟩

/-- Sweeps one package. -/
def one (fetcher : Fetcher) (linter : Linter) (lint : Bool) (state : PackageSet × Sweep)
    (id : PackageId) : PackageSet × Sweep :=
  let (set, sweep) := state
  let asked := { sweep with fetched := sweep.fetched ++ [id] }
  match fetcher sweep.fetched.length set id with
  | .error cause => (set, { asked with failures := asked.failures ++ [(id, cause)] })
  | .ok fetched =>
    match set.get? id with
    | .none => (set, asked)
    | .some package =>
      let publications := publications linter lint set package fetched
      (set.settle id,
        { asked with
          swept := asked.swept ++ [id]
          published := asked.published ++ publications
          count := asked.count + publications.length
          linted := if wantsLint lint package then asked.linted ++ [id] else asked.linted })

/-- Sweeps every dirty package of a set, in the order of the set. -/
def run (fetcher : Fetcher) (linter : Linter) (lint : Bool) (set : PackageSet) :
    PackageSet × Sweep :=
  set.dirty.foldl (one fetcher linter lint) (set, .none)

end Sweep

end WorkspaceSync
