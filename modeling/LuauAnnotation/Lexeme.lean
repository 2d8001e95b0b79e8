import LuauAnnotation.Matcher.Basic
import LuauAnnotation.Text.Blank
import LuauAnnotation.Token.Basic

/-!
# Lexemes

Outside brackets a text is made of lexemes: separators, arrows, punctuation characters and
atoms. Each class of lexemes is a matcher with the tokens that its matches stand for, and the
first class that matches decides.

An atom is a maximal run of characters that are neither blank nor punctuation. Its first colon
parts a name from a type, and what stands behind a second colon is dropped.
-/

namespace LuauAnnotation

namespace Token

/-- The token of a punctuation character. -/
def ofPunctuation : Char → Token
  | '|' => .union
  | '&' => .intersection
  | c => .punctuation c

/-- The tokens of an atom: a name if it ends with a colon, a name and a type if a colon stands
before its end, and a type otherwise. -/
def ofAtom (atom : Text) : List Token :=
  if atom.getLast? = some ':' then [.identifier atom.dropLast]
  else
    match atom.dropWhile (· != ':') with
    | [] => [.typeName atom]
    | _ :: rest => [.identifier (atom.takeWhile (· != ':')), .typeName (rest.takeWhile (· != ':'))]

end Token

namespace Lexeme

/-- The characters that end an atom besides blanks. -/
def punctuationChars : Text := ['{', '}', '<', '>', '-', '|', '&', '(', ')', '[', ']']

/-- A blank. -/
def blank : Matcher := .satisfying isBlank

/-- A comma, which separates the members of a group. -/
def comma : Matcher := .char ','

/-- An arrow. -/
def arrow : Matcher := .literal ['-', '>']

/-- A punctuation character. -/
def punctuation : Matcher := .oneOf punctuationChars

/-- Any character. -/
def anything : Matcher := .satisfying fun _ => true

/-- What ends an atom. A comma does so in a group only. -/
def atomEnd (inGroup : Bool) : Matcher :=
  .firstOf (if inGroup then [blank, punctuation, comma] else [blank, punctuation])

/-- An atom. -/
def atom (inGroup : Bool) : Matcher := anything.oneOrMoreUntil (atomEnd inGroup)

/-- The classes of lexemes in the order in which they are tried, each with the tokens that a
match stands for. -/
def classes (inGroup : Bool) : List (Matcher × (Text → List Token)) :=
  (if inGroup then [(comma, fun _ => [.separator])] else []) ++
    [(arrow, fun _ => [.arrow]),
     (punctuation, fun matched => matched.map Token.ofPunctuation),
     (atom inGroup, Token.ofAtom)]

/-- The tokens of the lexeme at the start of a text, with the number of its characters. -/
def read? (inGroup : Bool) (text : Text) : Option (List Token × Nat) :=
  (classes inGroup).findSome? fun lexeme =>
    (lexeme.1.span? text).map fun n => (lexeme.2 (text.take n), n)

end Lexeme

end LuauAnnotation
