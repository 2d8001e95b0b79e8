import LuauAnnotation.Lexeme
import LuauAnnotation.Token.Render

/-!
# Token forests

A token sequence is a forest, so its measures count at every level: how deep the brackets nest,
how many closers of a kind stand as punctuation, and how many type names are empty. What the text
form holds of a character is counted token by token.
-/

namespace LuauAnnotation

namespace Token

/-- What holds of the empty sequence, and is kept by a token without children and by a bracket
token whose children have it, holds of every token sequence. -/
theorem forest_induction {motive : List Token → Prop} (nil : motive [])
    (leaf : ∀ token rest, token.children? = none → motive rest → motive (token :: rest))
    (bracketed : ∀ kind children rest, motive children → motive rest →
      motive (.bracketed kind children :: rest)) (tokens : List Token) : motive tokens := by
  match tokens with
  | [] => exact nil
  | .bracketed kind children :: rest =>
    exact bracketed kind children rest (forest_induction nil leaf bracketed children)
      (forest_induction nil leaf bracketed rest)
  | .punctuation _ :: rest | .arrow :: rest | .union :: rest | .intersection :: rest
  | .separator :: rest | .identifier _ :: rest | .typeName _ :: rest =>
    exact leaf _ rest rfl (forest_induction nil leaf bracketed rest)
termination_by sizeOf tokens

/-! ### Measures -/

mutual

/-- The number of bracket levels of a token. -/
def depth : Token → Nat
  | .bracketed _ children => depthAll children + 1
  | _ => 0

/-- The number of bracket levels of a token sequence. -/
def depthAll : List Token → Nat
  | [] => 0
  | token :: rest => max (depth token) (depthAll rest)

end

mutual

/-- The number of closers of a kind that stand as punctuation, at any level of a token. -/
def strays (kind : BracketKind) : Token → Nat
  | .punctuation c => if c = kind.closer then 1 else 0
  | .bracketed _ children => straysAll kind children
  | _ => 0

/-- The number of closers of a kind that stand as punctuation, at any level of a sequence. -/
def straysAll (kind : BracketKind) : List Token → Nat
  | [] => 0
  | token :: rest => strays kind token + straysAll kind rest

end

mutual

/-- The number of type names without characters, at any level of a token. -/
def emptyTypes : Token → Nat
  | .typeName name => if name = [] then 1 else 0
  | .bracketed _ children => emptyTypesAll children
  | _ => 0

/-- The number of type names without characters, at any level of a sequence. -/
def emptyTypesAll : List Token → Nat
  | [] => 0
  | token :: rest => emptyTypes token + emptyTypesAll rest

end

/-- The deeper part of a sequence counts. -/
@[simp] theorem depthAll_append (left right : List Token) :
    depthAll (left ++ right) = max (depthAll left) (depthAll right) := by
  induction left with
  | nil => simp [depthAll]
  | cons token rest ih => simp [depthAll, ih, Nat.max_assoc]

/-- Stray closers of both parts count. -/
@[simp] theorem straysAll_append (kind : BracketKind) (left right : List Token) :
    straysAll kind (left ++ right) = straysAll kind left + straysAll kind right := by
  induction left with
  | nil => simp [straysAll]
  | cons token rest ih => simp [straysAll, ih, Nat.add_assoc]

/-- Empty type names of both parts count. -/
@[simp] theorem emptyTypesAll_append (left right : List Token) :
    emptyTypesAll (left ++ right) = emptyTypesAll left + emptyTypesAll right := by
  induction left with
  | nil => simp [emptyTypesAll]
  | cons token rest ih => simp [emptyTypesAll, ih, Nat.add_assoc]

/-- A punctuation character has no levels. -/
@[simp] theorem depth_ofPunctuation (c : Char) : depth (ofPunctuation c) = 0 := by
  unfold ofPunctuation
  split <;> rfl

/-- A punctuation character is no type name. -/
@[simp] theorem emptyTypes_ofPunctuation (c : Char) : emptyTypes (ofPunctuation c) = 0 := by
  unfold ofPunctuation
  split <;> rfl

/-- A punctuation character is written as itself. -/
@[simp] theorem render_ofPunctuation (c : Char) : render (ofPunctuation c) = [c] := by
  unfold ofPunctuation
  split <;> rfl

/-! ### Characters of the text form -/

/-- In front of a token stands nothing or a blank. -/
theorem gap_cases (token : Token) : gap token = [] ∨ gap token = [' '] := by
  cases token with
  | separator => exact Or.inl rfl
  | _ => exact Or.inr rfl

/-- The blanks between tokens aside, the first token of a sequence is written like the others. -/
theorem count_renderRest (c : Char) (hc : c ≠ ' ') (tokens : List Token) :
    (renderRest tokens).count c = (renderAll tokens).count c := by
  cases tokens with
  | nil => simp [renderRest, renderAll]
  | cons token rest =>
    have hgap : (gap token).count c = 0 := by
      rcases gap_cases token with hgap | hgap <;> simp [hgap, hc.symm]
    rw [renderRest, renderAll, List.count_append, List.count_append, List.count_append, hgap,
      Nat.zero_add]

/-- The blanks between tokens aside, the text form holds the characters of each token. -/
theorem count_renderAll_cons (c : Char) (hc : c ≠ ' ') (token : Token) (rest : List Token) :
    (renderAll (token :: rest)).count c = (render token).count c + (renderAll rest).count c := by
  rw [renderAll, List.count_append, count_renderRest c hc]

/-- The blanks between tokens aside, the text form of a concatenation holds the characters of
both parts. -/
theorem count_renderAll_append (c : Char) (hc : c ≠ ' ') (left right : List Token) :
    (renderAll (left ++ right)).count c = (renderAll left).count c + (renderAll right).count c := by
  induction left with
  | nil => simp [renderAll]
  | cons token rest ih =>
    rw [List.cons_append, count_renderAll_cons c hc, count_renderAll_cons c hc, ih, Nat.add_assoc]

/-- A bracket token is written with its own two brackets around its children. -/
theorem count_renderAll_bracketed (c : Char) (hc : c ≠ ' ') (kind : BracketKind)
    (children rest : List Token) :
    (renderAll (.bracketed kind children :: rest)).count c =
      [kind.opener].count c + (renderAll children).count c + [kind.closer].count c +
        (renderAll rest).count c := by
  rw [count_renderAll_cons c hc, render, List.cons_append, ← List.singleton_append,
    List.count_append, List.count_append]
  omega

end Token

end LuauAnnotation
