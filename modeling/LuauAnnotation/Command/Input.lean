import LuauAnnotation.Text.Blank

/-!
# Lines of input

The input is a sequence of bytes. A line feed ends a line, a carriage return directly in front
of it belongs to it, and the last line need not be ended. Lines that are blank hold no
annotation.
-/

namespace LuauAnnotation.Command

/-- The lines of an input without what ends them. -/
def lines : List UInt8 → List (List UInt8)
  | [] => []
  | 0x0A :: rest => [] :: lines rest
  | 0x0D :: 0x0A :: rest => [] :: lines rest
  | byte :: rest =>
    match lines rest with
    | [] => [[byte]]
    | line :: others => (byte :: line) :: others

/-- The text of which bytes are the UTF-8 form. -/
def decode? (bytes : List UInt8) : Option Text :=
  (String.fromUTF8? ⟨bytes.toArray⟩).map String.toList

/-- The annotations on the lines of an input, with nothing in the place of a line that is not
UTF-8. -/
def inputAnnotations (input : List UInt8) : List (Option Text) :=
  ((lines input).map decode?).filter fun line =>
    match line with
    | some text => !text.all isBlank
    | none => true

end LuauAnnotation.Command
