import LuauAnnotation.Text.Encoding

/-!
# JSON in bytes

A file is read as JSON byte by byte, and its bytes need not be UTF-8 everywhere. A stray byte, which
is no part of a character, is malformed where it is met: between values at once, and in a string at
the closing quotation mark, where the string is decoded. A string that is passed over is not decoded
and may hold stray bytes.

Reading works on texts, so a stray byte is written as a letter, which starts no value. A string with
a stray byte ends in half a surrogate pair, which is malformed in just the strings that are wanted.
-/

namespace LuauAnnotation.Json

/-- The first half of a surrogate pair as an escape, which has no partner behind it in a string. -/
def loneSurrogate : Text := ['\\', 'u', 'd', '8', '0', '0']

/-- The text for characters and stray bytes. `marked` says that the string so far holds a stray
byte, and `escaped` that the character before was a backslash with a meaning of its own. Where the
text breaks off in an escape by code behind a stray byte, it may be malformed rather than ended. -/
def markStrays (marked escaped : Bool) : List (Option Char) → Text
  | [] => []
  | none :: rest => 'x' :: markStrays true false rest
  | some c :: rest =>
    if c = '"' ∧ marked ∧ !escaped then loneSurrogate ++ c :: markStrays false false rest
    else c :: markStrays marked (c = '\\' ∧ !escaped) rest

/-- The text that is read as JSON in place of the bytes of a file. -/
def textOf (bytes : List UInt8) : Text := markStrays false false (decodeEach bytes)

/-- Characters without stray bytes among them are a text as they are. -/
theorem markStrays_map_some (escaped : Bool) (text : Text) :
    markStrays false escaped (text.map some) = text := by
  induction text generalizing escaped with
  | nil => rfl
  | cons c rest ih =>
    rw [List.map_cons, markStrays, if_neg (by simp), ih]

/-- The UTF-8 form of a text is read as the text. -/
theorem textOf_utf8 (text : Text) : textOf text.utf8 = text := by
  rw [textOf, decodeEach_utf8, markStrays_map_some]

end LuauAnnotation.Json
