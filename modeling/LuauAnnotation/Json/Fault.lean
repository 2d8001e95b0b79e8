import LuauAnnotation.Json.Number
import LuauAnnotation.Text.Quoted

/-!
# Faults in JSON

A text may end before its value does, it may not be JSON at all, or it may be JSON that does
not fit what is read from it. Only the last has a message of its own that says what was found
and what was wanted.
-/

namespace LuauAnnotation.Json

/-- A value without parts and quotes. -/
inductive Scalar where
  | null
  | boolean (value : Bool)
  | number (value : Number)
deriving DecidableEq

/-- What stands where something else was wanted. -/
inductive Found where
  | scalar (value : Scalar)
  | string (text : Text)
  | sequence
  | map
deriving DecidableEq

namespace Found

/-- What was found, in words. -/
def words : Found → String
  | .scalar .null => "null"
  | .scalar (.boolean value) => s!"boolean `{value}`"
  | .scalar (.number (.integer value)) => s!"integer `{value}`"
  | .scalar (.number (.real value)) =>
    s!"floating point `{String.ofList (realLayout.floatText value)}`"
  | .string text => "string " ++ String.ofList (quotedText text)
  | .sequence => "sequence"
  | .map => "map"

end Found

/-- Why a text is not read. -/
inductive Fault where
  /-- The text ends before the value does. -/
  | ended
  /-- The text is not JSON, nests too deep, or goes on after the value. -/
  | malformed
  /-- A value has the wrong type. -/
  | wrongType (found : Found) (wanted : String)
  /-- A value has the right type and is not admitted. -/
  | wrongValue (found : Found) (wanted : String)
  /-- A sequence has the wrong number of items. -/
  | wrongLength (length : Nat) (wanted : String)
  /-- A name is none of the known ones. -/
  | unknownVariant (name : Text) (known : List String)
  /-- A map lacks an entry. -/
  | missingField (name : String)
  /-- A map has two entries with one key. -/
  | duplicateField (name : String)
deriving DecidableEq

namespace Fault

/-- The message for readers. A reader of JSON has words of its own for a text that ends early or is
malformed; they are not reproduced, and what stands in for them is put in angle brackets. -/
def message : Fault → String
  | .ended => "<eof>"
  | .malformed => "<syntax>"
  | .wrongType found wanted => s!"invalid type: {found.words}, expected {wanted}"
  | .wrongValue found wanted => s!"invalid value: {found.words}, expected {wanted}"
  | .wrongLength length wanted => s!"invalid length {length}, expected {wanted}"
  | .unknownVariant name known =>
    let names := ", ".intercalate (known.map fun word => s!"`{word}`")
    s!"unknown variant `{String.ofList name}`, expected one of {names}"
  | .missingField name => s!"missing field `{name}`"
  | .duplicateField name => s!"duplicate field `{name}`"

end Fault

end LuauAnnotation.Json
