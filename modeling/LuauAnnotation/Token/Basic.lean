import LuauAnnotation.Bracket

/-!
# Tokens

An annotation is a sequence of tokens. A bracket pair and everything between is a single token,
which holds the tokens of its interior, so a token sequence is a forest.
-/

namespace LuauAnnotation

/-- One token of an annotation. -/
inductive Token where
  /-- A punctuation character without a meaning of its own. -/
  | punctuation (c : Char)
  /-- The arrow between the arguments and the results of a function. -/
  | arrow
  /-- The bar of a union. -/
  | union
  /-- The ampersand of an intersection. -/
  | intersection
  /-- The comma between the members of a group. -/
  | separator
  /-- The name of a parameter or field, written with a colon behind it. -/
  | identifier (name : Text)
  /-- The name of a type. -/
  | typeName (name : Text)
  /-- A bracket pair with the tokens between. -/
  | bracketed (kind : BracketKind) (children : List Token)

namespace Token

/-- The tokens between the brackets of a bracket token. -/
def children? : Token → Option (List Token)
  | .bracketed _ children => some children
  | _ => none

mutual

/-- Tokens agree when their constructors and all their parts do. -/
def agrees : Token → Token → Bool
  | .punctuation c, .punctuation d => c == d
  | .arrow, .arrow => true
  | .union, .union => true
  | .intersection, .intersection => true
  | .separator, .separator => true
  | .identifier name, .identifier other => name == other
  | .typeName name, .typeName other => name == other
  | .bracketed kind children, .bracketed other tokens =>
    kind == other && agreesAll children tokens
  | _, _ => false

/-- Token sequences agree when they have the same length and agree token by token. -/
def agreesAll : List Token → List Token → Bool
  | [], [] => true
  | token :: rest, other :: tokens => agrees token other && agreesAll rest tokens
  | _, _ => false

end

mutual

/-- Agreement of tokens is equality. -/
theorem agrees_iff (token other : Token) : agrees token other = true ↔ token = other := by
  match token, other with
  | .bracketed kind children, .bracketed kind' children' =>
    simp [agrees, agreesAll_iff children children']
  | .bracketed _ _, .punctuation _ | .bracketed _ _, .arrow | .bracketed _ _, .union
  | .bracketed _ _, .intersection | .bracketed _ _, .separator | .bracketed _ _, .identifier _
  | .bracketed _ _, .typeName _ => simp [agrees]
  | .punctuation _, other | .arrow, other | .union, other | .intersection, other
  | .separator, other | .identifier _, other | .typeName _, other =>
    cases other <;> simp [agrees]

/-- Agreement of token sequences is equality. -/
theorem agreesAll_iff (tokens others : List Token) :
    agreesAll tokens others = true ↔ tokens = others := by
  match tokens, others with
  | [], [] => simp [agreesAll]
  | [], _ :: _ => simp [agreesAll]
  | _ :: _, [] => simp [agreesAll]
  | token :: rest, other :: others =>
    simp [agreesAll, agrees_iff token other, agreesAll_iff rest others]

end

/-- Equality of tokens is decided by agreement. -/
instance : DecidableEq Token := fun token other =>
  decidable_of_iff (agrees token other = true) (agrees_iff token other)

end Token

end LuauAnnotation
