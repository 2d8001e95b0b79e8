/-!
# Annotation text

A text is the list of its characters. Positions reported to a reader of messages count the
bytes of the UTF-8 form, so the width of a text is the sum of the widths of its characters.
-/

namespace LuauAnnotation

/-- A text is the list of its characters. -/
abbrev Text := List Char

namespace Text

/-- The number of bytes in the UTF-8 form of a text. -/
def bytes : Text → Nat
  | [] => 0
  | c :: rest => c.utf8Size + bytes rest

@[simp] theorem bytes_nil : bytes [] = 0 := rfl

@[simp] theorem bytes_cons (c : Char) (rest : Text) :
    bytes (c :: rest) = c.utf8Size + bytes rest := rfl

/-- Widths add up along a concatenation. -/
@[simp] theorem bytes_append (left right : Text) :
    bytes (left ++ right) = bytes left + bytes right := by
  induction left with
  | nil => simp
  | cons c rest ih => simp [ih, Nat.add_assoc]

/-- A text holds at least as many bytes as characters. -/
theorem length_le_bytes (text : Text) : text.length ≤ bytes text := by
  induction text with
  | nil => simp
  | cons c rest ih =>
    have := c.utf8Size_pos
    simp only [List.length_cons, bytes_cons]
    omega

/-- Only the empty text has no bytes. -/
theorem bytes_eq_zero_iff (text : Text) : bytes text = 0 ↔ text = [] := by
  constructor
  · intro h
    exact List.length_eq_zero_iff.mp (Nat.le_zero.mp (h ▸ length_le_bytes text))
  · rintro rfl
    rfl

end Text

end LuauAnnotation
