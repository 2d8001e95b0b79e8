import LuauAnnotation.Command.Response

/-!
# The program

The program hands its arguments, its input and the file that they name to the command, and
passes on the response.
-/

namespace LuauAnnotation.Command

/-- All bytes that are still to come from a stream. -/
partial def readAllBytes (stream : IO.FS.Stream) (before : ByteArray) : IO ByteArray := do
  let chunk ← stream.read 65536
  if chunk.isEmpty then return before else readAllBytes stream (before ++ chunk)

/-- A call that fails gives the number of the error or its negative. -/
def isErrorCode (code number : UInt32) : Bool := code == number || code == 0 - number

/-- The fault behind an error of the system. -/
def FileFault.ofError : IO.Error → FileFault
  | .inappropriateType _ code _ => if isErrorCode code 20 then .notDirectory else .directory
  | .invalidArgument _ code _ => if isErrorCode code 36 then .nameTooLong else .nullInPath
  | .permissionDenied .. => .denied
  | _ => .notFound

/-- The bytes of the file at a path. -/
def readFileBytes (path : Text) : IO (Except FileFault (List UInt8)) := do
  try
    let bytes ← IO.FS.readBinFile (String.ofList path)
    return .ok bytes.toList
  catch error => return .error (FileFault.ofError error)

/-- One call of the program. -/
def serve (arguments : List Text) : IO UInt32 := do
  let input ← if readsInput arguments then readAllBytes (← IO.getStdin) .empty else pure .empty
  let file ← match configPath? arguments with
    | some path => readFileBytes path
    | none => pure (.error .notFound)
  let response := respond (fun _ => file) input.toList arguments
  IO.print (String.ofList response.output)
  if let some complaint := response.complaint then IO.eprintln complaint.message
  return response.exitCode.toUInt32

end LuauAnnotation.Command

/-- The entry point of the program. -/
def main (arguments : List String) : IO UInt32 :=
  LuauAnnotation.Command.serve (arguments.map String.toList)
