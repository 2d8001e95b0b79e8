import LuauAnnotation.Proofs.Legibility
import LuauAnnotation.Proofs.Tokenizing

/-!
# Reading the text form back

The text form of legible tokens whose brackets are nested is read back token by token, and only
an empty type name leaves nothing to be read. From this follow the token sequences that survive
their text form, and what a strict reading loses when it is written and read again.
-/

namespace LuauAnnotation

namespace Token

mutual

/-- The token without the empty type names at any level below it. -/
def prune : Token → Token
  | .bracketed kind children => .bracketed kind (pruneAll children)
  | token => token

/-- The sequence without empty type names at any level. -/
def pruneAll : List Token → List Token
  | [] => []
  | .typeName [] :: rest => pruneAll rest
  | token :: rest => prune token :: pruneAll rest

end

/-- The parts of a sequence are pruned on their own. -/
theorem pruneAll_cons (token : Token) (rest : List Token) :
    pruneAll (token :: rest) = pruneAll [token] ++ pruneAll rest := by
  cases token with
  | typeName name => cases name <;> simp [pruneAll]
  | _ => simp [pruneAll]

/-- A sequence without empty type names is not changed by pruning. -/
theorem pruneAll_eq_self (tokens : List Token) (h : emptyTypesAll tokens = 0) :
    pruneAll tokens = tokens := by
  induction tokens using forest_induction with
  | nil => rw [pruneAll]
  | leaf token rest hleaf ih =>
    simp only [emptyTypesAll, Nat.add_eq_zero_iff] at h
    rw [pruneAll_cons, ih h.2]
    cases token with
    | typeName name =>
      cases name with
      | nil => exact absurd h.1 (by decide)
      | cons c name => simp [pruneAll, prune]
    | bracketed kind children => cases hleaf
    | _ => simp [pruneAll, prune]
  | bracketed kind children rest ihchildren ihrest =>
    simp only [emptyTypesAll, emptyTypes, Nat.add_eq_zero_iff] at h
    rw [pruneAll, prune, ihchildren h.1, ihrest h.2]
    intro hempty
    cases hempty

/-- Pruning leaves no empty type names. -/
theorem emptyTypesAll_pruneAll (tokens : List Token) : emptyTypesAll (pruneAll tokens) = 0 := by
  induction tokens using forest_induction with
  | nil => simp [pruneAll, emptyTypesAll]
  | leaf token rest hleaf ih =>
    rw [pruneAll_cons, emptyTypesAll_append, ih]
    cases token with
    | typeName name => cases name <;> simp [pruneAll, prune, emptyTypesAll, emptyTypes]
    | bracketed kind children => cases hleaf
    | _ => simp [pruneAll, prune, emptyTypesAll, emptyTypes]
  | bracketed kind children rest ihchildren ihrest =>
    simp [pruneAll, prune, emptyTypesAll, emptyTypes, ihchildren, ihrest]

/-- Pruning keeps every level. -/
theorem depthAll_pruneAll (tokens : List Token) : depthAll (pruneAll tokens) = depthAll tokens := by
  induction tokens using forest_induction with
  | nil => rw [pruneAll]
  | leaf token rest hleaf ih =>
    rw [pruneAll_cons, depthAll_append, ih, depthAll]
    cases token with
    | typeName name => cases name <;> simp [pruneAll, prune, depthAll, depth]
    | bracketed kind children => cases hleaf
    | _ => simp [pruneAll, prune, depthAll, depth]
  | bracketed kind children rest ihchildren ihrest =>
    simp [pruneAll, prune, depthAll, depth, ihchildren, ihrest]

/-! ### Brackets of the text form -/

/-- Written after another token, a balanced token keeps the text form of a sequence balanced. -/
theorem balanced_renderRest_cons {kind : BracketKind} (token : Token) (rest : List Token)
    (htoken : kind.Balanced (render token)) (hrest : kind.Balanced (renderRest rest)) :
    kind.Balanced (renderRest (token :: rest)) := by
  have hgap : kind.Balanced (gap token) := by
    apply kind.balanced_of_not_mem
    · rcases gap_cases token with hgap | hgap <;> rw [hgap] <;> cases kind <;> decide
    · rcases gap_cases token with hgap | hgap <;> rw [hgap] <;> cases kind <;> decide
  rw [renderRest]
  exact (hgap.append htoken).append hrest

/-- The text form of a legible token without children holds no opener. -/
theorem opener_not_mem_render_leaf (kind : BracketKind) (inGroup : Bool) (token : Token)
    (hleaf : token.children? = none) (hlegible : Legible inGroup token) :
    kind.opener ∉ render token := by
  have hname (name : Text) (h : ∀ c ∈ name, Lexeme.isAtomChar inGroup c = true) :
      kind.opener ∉ name :=
    List.count_eq_zero.mp (count_name h (Lexeme.opener_mem_punctuationChars kind))
  cases token with
  | punctuation c =>
    have hall : ∀ d ∈ ['}', ')', ']', '<', '>', '-'], kind.opener ≠ d :=
      List.all_iff_forall_prop.mp (by cases kind <;> decide)
    simpa [render] using hall c hlegible
  | identifier name =>
    have hcolon : kind.opener ≠ ':' := by cases kind <;> decide
    simpa [render, hcolon] using hname name hlegible
  | typeName name => exact hname name hlegible.2
  | bracketed other children => cases hleaf
  | _ => cases kind <;> decide

/-- The text form of a legible token without children is balanced unless it is a closer. -/
theorem balanced_render_leaf (kind : BracketKind) (inGroup : Bool) (token : Token)
    (hleaf : token.children? = none) (hlegible : Legible inGroup token)
    (hstrays : strays kind token = 0) : kind.Balanced (render token) := by
  have hname (name : Text) (h : ∀ c ∈ name, Lexeme.isAtomChar inGroup c = true) :
      kind.closer ∉ name :=
    List.count_eq_zero.mp (count_name h (Lexeme.closer_mem_punctuationChars kind))
  apply kind.balanced_of_not_mem
  · exact opener_not_mem_render_leaf kind inGroup token hleaf hlegible
  · cases token with
    | punctuation c =>
      have hne : c ≠ kind.closer := by simpa [strays] using hstrays
      simpa [render] using hne.symm
    | identifier name =>
      have hcolon : kind.closer ≠ ':' := by cases kind <;> decide
      simpa [render, hcolon] using hname name hlegible
    | typeName name => exact hname name hlegible.2
    | bracketed other children => cases hleaf
    | _ => cases kind <;> decide

/-- The text form of a bracket token is balanced in every kind in which that of its children
is. -/
theorem balanced_render_bracketed {kind : BracketKind} (other : BracketKind)
    (children : List Token) (h : kind.Balanced (renderAll children)) :
    kind.Balanced (render (.bracketed other children)) := by
  rw [render, List.cons_append]
  exact h.pair other

/-- The text form of legible tokens is balanced in a kind of which no closer is stray. -/
theorem balanced_renderAll (kind : BracketKind) (inGroup : Bool) (tokens : List Token)
    (hlegible : LegibleAll inGroup tokens) (hstrays : straysAll kind tokens = 0) :
    kind.Balanced (renderAll tokens) ∧ kind.Balanced (renderRest tokens) := by
  have hempty : kind.Balanced [] := kind.balanced_of_not_mem [] (by simp) (by simp)
  induction tokens using forest_induction generalizing inGroup with
  | nil => exact ⟨hempty, hempty⟩
  | leaf token rest hleaf ih =>
    simp only [straysAll, Nat.add_eq_zero_iff] at hstrays
    have htoken := balanced_render_leaf kind inGroup token hleaf hlegible.1 hstrays.1
    have hrest := (ih inGroup hlegible.2 hstrays.2).2
    exact ⟨htoken.append hrest, balanced_renderRest_cons token rest htoken hrest⟩
  | bracketed other children rest ihchildren ihrest =>
    simp only [straysAll, strays, Nat.add_eq_zero_iff] at hstrays
    have htoken := balanced_render_bracketed other children
      (ihchildren true hlegible.1 hstrays.1).1
    have hrest := (ihrest inGroup hlegible.2 hstrays.2).2
    exact ⟨htoken.append hrest, balanced_renderRest_cons _ rest htoken hrest⟩

end Token

/-! ### Reading the text form -/

/-- A text that may stand behind a token in a text form. -/
def Breaks (inGroup : Bool) (after : Text) : Prop :=
  ∀ c, after.head? = some c → c = ' ' ∨ (inGroup = true ∧ c = ',')

/-- The text form of the tokens behind the first starts with a blank or a separator. -/
theorem breaks_renderRest (inGroup : Bool) (tokens : List Token)
    (hlegible : Token.LegibleAll inGroup tokens) : Breaks inGroup (Token.renderRest tokens) := by
  intro c hc
  cases tokens with
  | nil => simp [Token.renderRest] at hc
  | cons token rest =>
    cases token with
    | separator =>
      simp only [Token.renderRest, Token.gap, Token.render, List.nil_append, List.cons_append,
        List.head?_cons, Option.some.injEq] at hc
      exact Or.inr ⟨hlegible.1, hc.symm⟩
    | _ =>
      simp only [Token.renderRest, Token.gap, List.cons_append, List.head?_cons,
        Option.some.injEq] at hc
      exact Or.inl hc.symm

/-- An atom ends where a text may stand behind a token. -/
theorem Breaks.endsAtom {inGroup : Bool} {after : Text} (h : Breaks inGroup after) :
    Lexeme.EndsAtom inGroup after := by
  intro c hc
  rcases h c hc with rfl | ⟨rfl, rfl⟩
  · cases inGroup <;> decide
  · decide

/-- A legible token without children is read back from its text form, unless it is an empty type
name, which leaves nothing to be read. -/
theorem reads_render_leaf {strict inGroup : Bool} (token : Token) {after : Text}
    {others : List Token} (hleaf : token.children? = none) (hlegible : Token.Legible inGroup token)
    (hafter : Breaks inGroup after) (hothers : Reads strict inGroup after others) :
    Reads strict inGroup (token.render ++ after) (Token.pruneAll [token] ++ others) := by
  have hpunctuation (c : Char) (hc : c ∈ Lexeme.punctuationChars)
      (hopener : BracketKind.ofOpener? c = none) :
      Reads strict inGroup ([c] ++ after) ([Token.ofPunctuation c] ++ others) := by
    refine .lexeme (.punctuation c after hc hopener fun _ hhead => ?_) hothers
    rcases hafter _ hhead with hblank | ⟨_, hcomma⟩
    · exact absurd hblank (by decide)
    · exact absurd hcomma (by decide)
  cases token with
  | punctuation c =>
    have hall : ∀ d ∈ ['}', ')', ']', '<', '>', '-'], d ∈ Lexeme.punctuationChars ∧
        BracketKind.ofOpener? d = none ∧ Token.ofPunctuation d = .punctuation d :=
      List.all_iff_forall_prop.mp (by decide)
    obtain ⟨hc, hopener, htoken⟩ := hall c hlegible
    have hread := hpunctuation c hc hopener
    rw [htoken] at hread
    simpa [Token.render, Token.pruneAll, Token.prune] using hread
  | arrow => simpa [Token.render, Token.pruneAll, Token.prune] using .lexeme (.arrow after) hothers
  | union => exact hpunctuation '|' (by decide) (by decide)
  | intersection => exact hpunctuation '&' (by decide) (by decide)
  | separator => exact .lexeme (.separator after hlegible) hothers
  | identifier name =>
    have hchars : ∀ c ∈ name ++ [':'], Lexeme.isAtomChar inGroup c = true := by
      intro c hc
      rcases List.mem_append.mp hc with hc | hc
      · exact hlegible c hc
      · rw [List.mem_singleton.mp hc]
        cases inGroup <;> decide
    have hread := Reads.lexeme (.atom (name ++ [':']) after (by simp) hchars hafter.endsAtom) hothers
    rw [Token.ofAtom_name] at hread
    simpa [Token.render, Token.pruneAll, Token.prune] using hread
  | typeName name =>
    cases name with
    | nil => exact hothers
    | cons c name =>
      have hread := Reads.lexeme
        (.atom (c :: name) after (List.cons_ne_nil _ _) hlegible.2 hafter.endsAtom) hothers
      rw [Token.ofAtom_type _ hlegible.1] at hread
      simpa [Token.render, Token.pruneAll, Token.prune] using hread
  | bracketed kind children => cases hleaf

/-- A text form is read behind a blank or a separator as it is read on its own. -/
theorem reads_renderRest_cons {strict inGroup : Bool} (token : Token) (rest : List Token)
    {tokens : List Token}
    (h : Reads strict inGroup (token.render ++ Token.renderRest rest) tokens) :
    Reads strict inGroup (Token.renderRest (token :: rest)) tokens := by
  rw [Token.renderRest, List.append_assoc]
  cases token with
  | separator => exact h
  | _ => exact .blank (by decide) h

/-- Legible tokens with nested brackets are read back from their text form, up to their empty
type names. The reading is strict. -/
theorem reads_renderAll (inGroup : Bool) (tokens : List Token)
    (hlegible : Token.LegibleAll inGroup tokens) (hnested : Token.NestedAll tokens) :
    Reads true inGroup (Token.renderAll tokens) (Token.pruneAll tokens) ∧
      Reads true inGroup (Token.renderRest tokens) (Token.pruneAll tokens) := by
  induction tokens using Token.forest_induction generalizing inGroup with
  | nil => exact ⟨.nil inGroup, .nil inGroup⟩
  | leaf token rest hleaf ih =>
    have hrest := (ih inGroup hlegible.2 hnested.2).2
    have htoken := reads_render_leaf token hleaf hlegible.1
      (breaks_renderRest inGroup rest hlegible.2) hrest
    rw [← Token.pruneAll_cons] at htoken
    exact ⟨htoken, reads_renderRest_cons token rest htoken⟩
  | bracketed kind children rest ihchildren ihrest =>
    have hchildren := (ihchildren true hlegible.1 hnested.1.2).1
    have hrest := (ihrest inGroup hlegible.2 hnested.2).2
    have hinterior := (Token.balanced_renderAll kind true children hlegible.1 hnested.1.1).1
    have htoken := Reads.closed kind hinterior hchildren hrest
    have htext : Token.render (.bracketed kind children) ++ Token.renderRest rest =
        kind.opener :: (Token.renderAll children ++ kind.closer :: Token.renderRest rest) := by
      simp [Token.render]
    rw [← htext] at htoken
    exact ⟨htoken, reads_renderRest_cons _ rest htoken⟩

end LuauAnnotation
