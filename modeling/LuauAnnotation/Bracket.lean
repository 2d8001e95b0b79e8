import LuauAnnotation.Text.Outline

/-!
# Brackets

Three kinds of bracket pair group the parts of an annotation: tuples in parentheses, indexers
in square brackets and tables in braces. Opening and closing characters identify their kind,
and no character is both.
-/

namespace LuauAnnotation

/-- Which pair of bracket characters encloses a group. -/
inductive BracketKind where
  | tuple
  | indexer
  | table
deriving DecidableEq

namespace BracketKind

/-- Every kind, in the order in which messages list them. -/
def all : List BracketKind := [.tuple, .indexer, .table]

/-- The character that opens a group of this kind. -/
def opener : BracketKind → Char
  | .tuple => '('
  | .indexer => '['
  | .table => '{'

/-- The character that closes a group of this kind. -/
def closer : BracketKind → Char
  | .tuple => ')'
  | .indexer => ']'
  | .table => '}'

/-- The kind of group that a character opens. -/
def ofOpener? : Char → Option BracketKind
  | '(' => some .tuple
  | '[' => some .indexer
  | '{' => some .table
  | _ => none

/-- The word for a kind in messages and in data. -/
def name : BracketKind → String
  | .tuple => "tuple"
  | .indexer => "indexer"
  | .table => "table"

/-- The kind with a given word. -/
def ofName? (word : Text) : Option BracketKind :=
  all.find? fun kind => kind.name.toList = word

/-- The kind's constructor in a value outline. -/
def outline : BracketKind → Outline
  | .tuple => .leaf "Tuple".toList
  | .indexer => .leaf "Indexer".toList
  | .table => .leaf "Table".toList

/-- An opening character determines the kind and nothing else does. -/
theorem ofOpener?_eq_some_iff (c : Char) (kind : BracketKind) :
    ofOpener? c = some kind ↔ c = kind.opener := by
  constructor
  · intro h
    unfold ofOpener? at h
    split at h <;> simp_all [opener]
    all_goals subst h; rfl
  · rintro rfl
    cases kind <;> rfl

/-- No closing character opens a group. -/
theorem ofOpener?_closer (kind : BracketKind) (other : BracketKind) :
    ofOpener? kind.closer ≠ some other := by
  cases kind <;> cases other <;> decide

end BracketKind

end LuauAnnotation
