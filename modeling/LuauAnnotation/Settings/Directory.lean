import LuauAnnotation.Settings.Load

/-!
# Files in a directory

A directory that holds files and no further directories gives a view of the file system. A path
is walked from there name by name. Walking comes before reading, so a path that leads to a
directory is a fault of reading, and every other fault is met on the way.
-/

namespace LuauAnnotation

/-- A directory of files: their names with their texts. -/
abbrev Directory := List (Text × Text)

namespace Directory

/-- The greatest number of bytes in a name. -/
def nameLimit : Nat := 255

/-- The number of bytes that a path stays below. -/
def pathLimit : Nat := 4096

/-- Where a walk has come to. -/
inductive Place where
  /-- The directory itself. -/
  | home
  /-- A directory outside it, in which nothing is found. -/
  | outside
  | file (text : Text)

/-- The names between the slashes of a path, which may be empty. -/
def names : Text → List Text
  | [] => [[]]
  | c :: rest =>
    if c = '/' then [] :: names rest
    else
      match names rest with
      | [] => [[c]]
      | name :: others => (c :: name) :: others

/-- A walk goes on from directories only. An empty name and a dot stay where they are. -/
def step (directory : Directory) (place : Place) (name : Text) : Except FileFault Place :=
  match place with
  | .file _ => .error .notDirectory
  | _ =>
    if name = [] ∨ name = ['.'] then .ok place
    else if name = ['.', '.'] then .ok .outside
    else if nameLimit < Text.bytes name then .error .nameTooLong
    else
      match place, directory.lookup name with
      | .home, some text => .ok (.file text)
      | _, _ => .error .notFound

/-- What stands at the paths that start in a directory. -/
def view (directory : Directory) : FileView := fun path =>
  if '\x00' ∈ path then .error .nullInPath
  else if pathLimit ≤ Text.bytes path then .error .nameTooLong
  else do
    let start := if path.head? = some '/' then Place.outside else Place.home
    match ← (names path).foldlM directory.step start with
    | .file text => .ok text.utf8
    | _ => .error .directory

end Directory

end LuauAnnotation
