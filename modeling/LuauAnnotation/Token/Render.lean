import LuauAnnotation.Token.Basic

/-!
# The text form of tokens

Tokens are written one after the other with a blank between, no blank before a separator, and
none inside a bracket. The form does not depend on the layout that the tokens were read from.
-/

namespace LuauAnnotation

namespace Token

/-- The blank in front of a token that is not the first of its sequence. -/
def gap : Token → Text
  | .separator => []
  | _ => [' ']

mutual

/-- The text form of one token. -/
def render : Token → Text
  | .punctuation c => [c]
  | .arrow => ['-', '>']
  | .union => ['|']
  | .intersection => ['&']
  | .separator => [',']
  | .identifier name => name ++ [':']
  | .typeName name => name
  | .bracketed kind children => kind.opener :: renderAll children ++ [kind.closer]

/-- The text form of a token sequence. -/
def renderAll : List Token → Text
  | [] => []
  | token :: rest => render token ++ renderRest rest

/-- The text form of the tokens that follow the first of a sequence. -/
def renderRest : List Token → Text
  | [] => []
  | token :: rest => gap token ++ render token ++ renderRest rest

end

end Token

end LuauAnnotation
