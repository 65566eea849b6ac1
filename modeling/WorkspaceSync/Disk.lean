/-
This file models the disk as a finite tree of directories, files and symbolic
links, and says what reading a path gives.

A path is followed step by step. Links on the way are replaced by their
targets, at most forty times; every step but the last has to be a directory,
and so has the last one if the path ends in a separator. What reading gives is
a `Reading`: a text, the news that nothing is there, or another reason why
there is no text.
-/
import WorkspaceSync.Path

namespace WorkspaceSync

/-! ### Outcomes -/

/-- Why a path cannot be followed or read. -/
inductive DiskError where
  | notFound
  | notADirectory
  | isADirectory
  | nameTooLong
  | tooManyLinks
  | nulInName
  | notText
  deriving DecidableEq, Repr

/-- The text of a disk error. -/
def DiskError.message : DiskError → String
  | .notFound => "No such file or directory (os error 2)"
  | .notADirectory => "Not a directory (os error 20)"
  | .isADirectory => "Is a directory (os error 21)"
  | .nameTooLong => "File name too long (os error 36)"
  | .tooManyLinks => "Too many levels of symbolic links (os error 40)"
  | .nulInName => "file name contained an unexpected NUL byte"
  | .notText => "stream did not contain valid UTF-8"

/-- What reading a file as text gives. -/
inductive Reading where
  /-- The file has this text. -/
  | text (text : String)
  /-- There is no such file. -/
  | absent
  /-- The file cannot be read as text. -/
  | failed (reason : String)
  deriving DecidableEq, Repr

/-- The reading that an error leads to. -/
def Reading.ofError : DiskError → Reading
  | .notFound => .absent
  | error => .failed error.message

/-! ### The tree -/

/-- An entry of a directory. -/
inductive Node where
  | file (content : ByteArray)
  | directory (entries : List (String × Node))
  | link (target : Path)

namespace Node

/-- Whether an entry is itself a directory; a link to a directory is none. -/
def isDirectory : Node → Bool
  | .directory _ => true
  | _ => false

/-- The entry of a directory with a name. -/
def child? : Node → String → Option Node
  | .directory entries, name => (entries.find? fun entry => entry.1 = name).map Prod.snd
  | _, _ => none

/-- The entry reached by a row of names, links not followed. -/
def descend? (node : Node) : List String → Option Node
  | [] => some node
  | name :: rest => (node.child? name).bind fun child => child.descend? rest

/-- Puts an entry at a name of a directory, removes it if none is given. -/
def setChild (name : String) (child : Option Node) : Node → Node
  | .directory entries =>
    .directory (entries.filter (fun entry => entry.1 ≠ name) ++
      (child.map fun node => (name, node)).toList)
  | node => node

/-- Puts an entry at a row of names, with the directories on the way; removes it if none is
given. -/
def update (node : Node) (child : Option Node) : List String → Node
  | [] => child.getD node
  | [name] => node.setChild name child
  | name :: rest =>
    match node.child? name with
    | some inner => node.setChild name (some (inner.update child rest))
    | none => node.setChild name (some ((directory []).update child rest))

end Node

/-- The disk: the tree below `/` and the directory that relative paths are seen from. -/
structure Disk where
  root : Node
  working : List String

namespace Disk

/-! ### Following paths -/

/-- The greatest number of links that are followed on the way along one path. -/
def linkLimit : Nat := 40

/-- The steps of a path as they are written, without regard to what they mean. -/
def steps (path : Path) : List String :=
  (List.splitOn '/' path.text.toList).map String.ofList

/-- Walks from the directory `reached`, given by its names in reverse, along the pending steps.
The result is the place that was reached, again in reverse. A link at the very end is followed
only if `final` says so. -/
def walk (root : Node) (final : Bool) (links : Nat) (reached : List String)
    (pending : List String) : Except DiskError (List String) :=
  match pending with
  | [] => .ok reached
  | step :: rest =>
    match root.descend? reached.reverse with
    | none => .error .notFound
    | some here =>
      if !here.isDirectory then .error .notADirectory
      else if step = "" ∨ step = "." then walk root final links reached rest
      else if step = ".." then walk root final links reached.tail rest
      else if step.utf8ByteSize > 255 then .error .nameTooLong
      else
        match here.child? step with
        | none => .error .notFound
        | some (.link target) =>
          if rest = [] ∧ final = false then .ok (step :: reached)
          else
            match links with
            | 0 => .error .tooManyLinks
            | remaining + 1 =>
              if target.text = "" then .error .notFound
              else
                walk root final remaining (if target.isAbsolute then [] else reached)
                  (steps target ++ rest)
        | some _ => walk root final links (step :: reached) rest
termination_by (links, pending.length)

/-- The place that a path leads to, by its names from `/` on. -/
def locate (disk : Disk) (final : Bool) (path : Path) : Except DiskError (List String) :=
  if path.text.toList.contains (Char.ofNat 0) then .error .nulInName
  else if path.text = "" then .error .notFound
  else if path.text.utf8ByteSize ≥ 4096 then .error .nameTooLong
  else
    (walk disk.root final linkLimit (if path.isAbsolute then [] else disk.working.reverse)
      (steps path)).map List.reverse

/-- The entry that a path leads to, links followed. -/
def entry (disk : Disk) (path : Path) : Except DiskError Node :=
  match disk.locate true path with
  | .error error => .error error
  | .ok place =>
    match disk.root.descend? place with
    | none => .error .notFound
    | some node => .ok node

/-- Whether a path leads to a file. -/
def isFile (disk : Disk) (path : Path) : Bool :=
  match disk.entry path with
  | .ok (.file _) => true
  | _ => false

/-- Reads the text of a file. -/
def readText (disk : Disk) (path : Path) : Except DiskError String :=
  match disk.entry path with
  | .error error => .error error
  | .ok (.file content) =>
    match String.fromUTF8? content with
    | some text => .ok text
    | none => .error .notText
  | .ok (.directory _) => .error .isADirectory
  | .ok (.link _) => .error .tooManyLinks

/-- What reading a path gives. -/
def read (disk : Disk) (path : Path) : Reading :=
  match disk.readText path with
  | .ok text => .text text
  | .error error => .ofError error

/-! ### Changing the disk -/

/-- Goes from a place along the steps of a path. Each step that leads somewhere is followed, links
included; a step to something that does not exist is taken as it is written. -/
def settle (disk : Disk) (reached : List String) : List String → List String
  | [] => reached
  | step :: rest =>
    match walk disk.root true linkLimit reached.reverse [step] with
    | .ok place => disk.settle place.reverse rest
    | .error _ =>
      if step = "" ∨ step = "." then disk.settle reached rest
      else if step = ".." then disk.settle reached.dropLast rest
      else disk.settle (reached ++ [step]) rest

/-- The place that a path has, or would have if it were made. -/
def placeFor (disk : Disk) (path : Path) : List String :=
  disk.settle (if path.isAbsolute then [] else disk.working) (steps path)

/-- Puts an entry at a path, with the directories that lead to it. -/
def put (disk : Disk) (path : Path) (node : Node) : Disk :=
  { disk with root := disk.root.update (some node) (disk.placeFor path) }

/-- Makes a directory, unless there is one. -/
def makeDirectory (disk : Disk) (path : Path) : Disk :=
  match disk.entry path with
  | .ok (.directory _) => disk
  | _ => disk.put path (.directory [])

/-- Removes what is at a path: a file, a link or a whole directory. -/
def remove (disk : Disk) (path : Path) : Disk :=
  match disk.locate false path with
  | .ok (name :: rest) => { disk with root := disk.root.update none (name :: rest) }
  | _ => disk

/-- Makes a symbolic link in place of whatever is at a path. -/
def makeLink (disk : Disk) (path target : Path) : Disk :=
  (disk.remove path).put path (.link target)

end Disk

end WorkspaceSync
