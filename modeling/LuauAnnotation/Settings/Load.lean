import LuauAnnotation.Fault
import LuauAnnotation.Json.Bytes
import LuauAnnotation.Settings.Json

/-!
# Settings from a file

Settings are loaded by the path of a file. What stands at a path is given by a view of the file
system, so that loading is a function.
-/

namespace LuauAnnotation

/-- Why there are no bytes at a path. -/
inductive FileFault where
  | notFound
  | notDirectory
  | nameTooLong
  | nullInPath
  | denied
  | directory
deriving DecidableEq

namespace FileFault

/-- The system's words for a fault. -/
def words : FileFault → String
  | .notFound => "No such file or directory (os error 2)"
  | .notDirectory => "Not a directory (os error 20)"
  | .nameTooLong => "File name too long (os error 36)"
  | .nullInPath => "file name contained an unexpected NUL byte"
  | .denied => "Permission denied (os error 13)"
  | .directory => "Is a directory (os error 21)"

/-- A directory can be opened and has no bytes to be read. All other faults keep a file from being
opened. -/
def isOpened : FileFault → Bool
  | .directory => true
  | _ => false

end FileFault

/-- What stands at every path. -/
abbrev FileView := Text → Except FileFault (List UInt8)

/-- Why settings were not loaded. -/
inductive LoadFault where
  | file (path : Text) (fault : FileFault)
  | content (path : Text) (fault : Json.Fault)
deriving DecidableEq

/-- The reason in words. For content that is not JSON the reader has words of its own, and for all
content it says the line and the column; neither is reproduced. -/
def LoadFault.words : LoadFault → String
  | .file path fault =>
    let verb := if fault.isOpened then "parse" else "open"
    s!"failed to {verb} {String.ofList path}: {fault.words}"
  | .content path fault => s!"failed to parse {String.ofList path}: {fault.message}"

namespace Settings

/-- The settings in the file at a path, or why there are none. -/
def fromFile (files : FileView) (path : Text) : Except LoadFault Settings :=
  match files path with
  | .error fault => .error (.file path fault)
  | .ok bytes =>
    match read (Json.textOf bytes) with
    | .error fault => .error (.content path fault)
    | .ok settings => .ok settings

/-- The settings in the file at a path. -/
def load (files : FileView) (path : Text) : Except Fault Settings :=
  (fromFile files path).mapError fun fault => .settings fault.words

/-- A stray byte does no harm in a member that is passed over, and a key with one is malformed. -/
example :
    (read (Json.textOf [0x7B, 0x22, 0x61, 0x22, 0x3A, 0x22, 0xFF, 0x22, 0x7D])).toOption = some {} ∧
      (read (Json.textOf [0x7B, 0x22, 0xFF, 0x22, 0x3A, 0x31, 0x7D])).toOption = none := by
  decide +kernel

end Settings

end LuauAnnotation
