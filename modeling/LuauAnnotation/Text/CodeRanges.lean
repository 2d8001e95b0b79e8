/-!
# Tables of character codes

A Unicode property is a table of inclusive ranges of character codes. A character has the property
when one of the ranges holds its code.
-/

namespace LuauAnnotation

/-- A table of character codes as inclusive ranges. -/
abbrev CodeRanges := List (Nat × Nat)

/-- A character belongs to a table when one of its ranges holds the character's code. -/
def CodeRanges.holds (table : CodeRanges) (c : Char) : Bool :=
  table.any fun range => range.1 ≤ c.toNat && c.toNat ≤ range.2

end LuauAnnotation
