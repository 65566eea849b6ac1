/-
This file checks that the files of a package agree.

The files are read in path order. The first clause found names the package;
every later clause has to give the same name, and every file has to be readable
and to have a clause. A file that fails gets exactly one error.
-/
import WorkspaceSync.Clause
import WorkspaceSync.Package

namespace WorkspaceSync

namespace Analysis

/-- Who the errors are attributed to. -/
def source : String := "gunk"

/-- The clause that named the package: the name and the file. -/
structure Declaration where
  name : String
  file : Path
  deriving DecidableEq, Repr

/-- An error of the analysis. -/
def errorAt (file : Path) (span : Span) (message : String) : Diagnostic :=
  { file, message, severity := .error, span, source := some source }

/-- The last component of a path if it is a name, and else the path. -/
def shortName (path : Path) : String :=
  (path.fileName?.map String.ofList).getD path.text

/-- The error of a file whose clause gives another name than the declaration. -/
def mismatch (declared : Declaration) (file : Path) (clause : Clause) : Diagnostic :=
  errorAt file clause.span
    ("package " ++ clause.name ++ " does not match package " ++ declared.name ++
      " declared in " ++ shortName declared.file)

/-- The errors of a row of files and the declaration in force after them. -/
def run (declared : Option Declaration) :
    List (Path × SourceFile) → Option Declaration × List Diagnostic
  | [] => (declared, [])
  | (path, file) :: later =>
    match file.readError with
    | some reason =>
      let (final, errors) := run declared later
      (final, errorAt path .start ("could not read file: " ++ reason) :: errors)
    | none =>
      match Header.scan file.text with
      | .missing =>
        let (final, errors) := run declared later
        (final, errorAt path .start "missing package clause" :: errors)
      | .malformed line text =>
        let (final, errors) := run declared later
        (final,
          errorAt path (.onLine line 0 (UInt32.ofNat (Text.width text.toList)))
            ("expected package clause, found `" ++ text ++ "`") :: errors)
      | .found clause =>
        match declared with
        | none => run (some ⟨clause.name, path⟩) later
        | some declaration =>
          let (final, errors) := run declared later
          if clause.name = declaration.name then (final, errors)
          else (final, mismatch declaration path clause :: errors)

end Analysis

/-- The package with its name and errors worked out anew from its files. -/
def Package.analyzed (package : Package) : Package :=
  let (declared, errors) := Analysis.run none package.files.entries
  { package with name := declared.map Analysis.Declaration.name, errors }

end WorkspaceSync
