import FiveStage.Command.SourceFile
import FiveStage.Text.Fields

/-!
# Directories

The files below a working directory, and how a path is followed there. A path is followed name by
name: only a directory can be entered, an empty name and a dot stay, and two dots go up. Nothing is
known about what lies above the working directory, so every name there is missing.
-/
namespace FiveStage

/-- Files by the names that lead to them. Of two files with the same names the first counts. -/
structure Directory where
  files : List (List String × String) := []
  deriving DecidableEq, Repr

/-- A place a path has led to. -/
inductive Place
  | below (names : List String)
  | above
  deriving DecidableEq, Repr

namespace Directory

/-- The names of a path. A slash at its start or end gives an empty one. -/
def names (path : String) : List String :=
  (Text.pieces (· == '/') path.toList).map String.ofList

def ofFiles (files : List (String × String)) : Directory :=
  ⟨files.map fun (path, text) => (names path, text)⟩

def text? (d : Directory) (names : List String) : Option String :=
  (d.files.find? fun file => file.1 == names).map Prod.snd

/-- Some file lies below these names. -/
def holds (d : Directory) (names : List String) : Bool :=
  names.isEmpty || d.files.any fun file => names.isPrefixOf file.1 && file.1 != names

/-- The longest name there can be, in bytes. -/
def longestName : Nat := 255

/-- Follows one name from a directory. -/
def follow (d : Directory) (place : Place) (name : String) : Except FileError Place :=
  match place, name with
  | place, "" | place, "." => .ok place
  | .above, ".." => .ok .above
  | .below names, ".." => .ok (if names.isEmpty then .above else .below names.dropLast)
  | place, name =>
    if longestName < name.utf8ByteSize then .error .nameTooLong
    else
      match place with
      | .above => .error .missing
      | .below names =>
        let next := names ++ [name]
        if d.holds next || (d.text? next).isSome then .ok (.below next) else .error .missing

def isFile (d : Directory) : Place → Bool
  | .below names => (d.text? names).isSome
  | .above => false

/-- Follows the names of a path, every one but the first from where the last has led. -/
def walk (d : Directory) (place : Place) : List String → Except FileError Place
  | [] => .ok place
  | name :: rest =>
    if d.isFile place then .error .notDirectory
    else do d.walk (← d.follow place name) rest

/-- Where a path starts. -/
def origin (path : String) : Place := if path.startsWith "/" then .above else .below []

/-- Reads the file at a path. -/
def read (d : Directory) (path : String) : Reading := do
  if path.isEmpty then throw .missing
  match ← d.walk (origin path) (names path) with
  | .above => throw .isDirectory
  | .below place =>
    match d.text? place with
    | some text => return ⟨String.intercalate "/" place, text⟩
    | none => throw .isDirectory

end Directory

end FiveStage
