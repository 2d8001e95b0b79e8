import LuauAnnotation.Text.Basic

/-!
# Texts as bytes

A file holds bytes. The UTF-8 form of a text gives the characters of the text back. A byte that is
no part of a character gives nothing and does not disturb the characters around it.
-/

namespace LuauAnnotation

/-- The UTF-8 form of a text. -/
def Text.utf8 (text : Text) : List UInt8 := text.flatMap String.utf8EncodeChar

/-- The character whose UTF-8 form stands in front. -/
def headChar? (bytes : List UInt8) : Option Char :=
  (bytes.take 4).toByteArray.utf8DecodeChar? 0

/-- The characters that bytes hold, with nothing in the place of each byte that is no part of a
character. -/
def decodeEach : List UInt8 → List (Option Char)
  | [] => []
  | byte :: rest =>
    match headChar? (byte :: rest) with
    | some c => some c :: decodeEach (rest.drop (c.utf8Size - 1))
    | none => none :: decodeEach rest
termination_by bytes => bytes.length
decreasing_by
  all_goals simp only [List.length_drop, List.length_cons]; omega

/-- A character is found in front of whatever follows its UTF-8 form. -/
theorem headChar?_append (c : Char) (rest : List UInt8) :
    headChar? (String.utf8EncodeChar c ++ rest) = some c := by
  have hsize : (String.utf8EncodeChar c).length ≤ 4 := by
    rw [String.length_utf8EncodeChar]
    exact c.utf8Size_le_four
  rw [headChar?, List.take_append, List.take_of_length_le hsize, List.toByteArray_append,
    ← List.utf8Encode_singleton]
  exact ByteArray.utf8DecodeChar?_append_eq_some List.utf8DecodeChar?_utf8Encode_singleton _

/-- The UTF-8 form of a text holds its characters and nothing else. -/
theorem decodeEach_utf8 (text : Text) : decodeEach text.utf8 = text.map some := by
  induction text with
  | nil => simp [Text.utf8, decodeEach]
  | cons c rest ih =>
    have hutf8 : Text.utf8 (c :: rest) = String.utf8EncodeChar c ++ Text.utf8 rest :=
      List.flatMap_cons
    have hhead := headChar?_append c (Text.utf8 rest)
    have hwidth := String.length_utf8EncodeChar c
    rw [hutf8]
    cases hbytes : String.utf8EncodeChar c with
    | nil =>
      have hpos := c.utf8Size_pos
      rw [← hwidth, hbytes] at hpos
      exact absurd hpos (Nat.lt_irrefl 0)
    | cons byte bytes =>
      rw [hbytes, List.length_cons] at hwidth
      rw [hbytes, List.cons_append] at hhead
      rw [List.cons_append, decodeEach, hhead]
      simp only [← hwidth, Nat.add_sub_cancel, List.drop_left, ih, List.map_cons]

end LuauAnnotation
