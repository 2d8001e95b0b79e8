import LuauAnnotation.Text.Quoted
import LuauAnnotation.Token.Basic

/-!
# The outline of tokens

The outline shows a token by its constructor and parts, every text in quotes.
-/

namespace LuauAnnotation

namespace Token

mutual

/-- The constructor of a token and its parts. -/
def outline : Token → Outline
  | .punctuation c => .call "Punctuation" [.leaf (quotedChar c)]
  | .arrow => .leaf "Arrow".toList
  | .union => .leaf "Union".toList
  | .intersection => .leaf "Intersection".toList
  | .separator => .leaf "Separator".toList
  | .identifier name => .call "Identifier" [.leaf (quotedText name)]
  | .typeName name => .call "LuaType" [.leaf (quotedText name)]
  | .bracketed kind children =>
    .record "Bracketed" [("kind", kind.outline), ("children", .list (outlines children))]

/-- The outlines of the tokens of a sequence. -/
def outlines : List Token → List Outline
  | [] => []
  | token :: rest => outline token :: outlines rest

end

/-- The outline of a token sequence. -/
def outlineAll (tokens : List Token) : Outline := .list (outlines tokens)

end Token

end LuauAnnotation
