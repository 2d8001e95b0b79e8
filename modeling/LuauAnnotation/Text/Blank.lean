import LuauAnnotation.Text.Basic
import LuauAnnotation.Text.CodeRanges

/-!
# Blank characters

Blank means the Unicode property White_Space. Blanks separate the tokens of an annotation and
never belong to one, so squeezing a text removes all of them.
-/

namespace LuauAnnotation

/-- The characters with the Unicode property White_Space. -/
def blankCodes : CodeRanges :=
  [(0x0009, 0x000D), (0x0020, 0x0020), (0x0085, 0x0085), (0x00A0, 0x00A0), (0x1680, 0x1680),
   (0x2000, 0x200A), (0x2028, 0x2029), (0x202F, 0x202F), (0x205F, 0x205F), (0x3000, 0x3000)]

/-- A blank has the Unicode property White_Space. -/
def isBlank (c : Char) : Bool := blankCodes.holds c

namespace Text

/-- Squeezing removes every blank. -/
def squeeze (text : Text) : Text := text.filter fun c => !isBlank c

/-- A blank is squeezed out. -/
theorem squeeze_cons_blank {c : Char} (hblank : isBlank c = true) (rest : Text) :
    squeeze (c :: rest) = squeeze rest := by
  simp [squeeze, hblank]

/-- Any other character stays. -/
theorem squeeze_cons {c : Char} (hblank : isBlank c = false) (rest : Text) :
    squeeze (c :: rest) = c :: squeeze rest := by
  simp [squeeze, hblank]

/-- Squeezing works piece by piece. -/
@[simp] theorem squeeze_append (left right : Text) :
    squeeze (left ++ right) = squeeze left ++ squeeze right := by
  simp [squeeze]

end Text

end LuauAnnotation
