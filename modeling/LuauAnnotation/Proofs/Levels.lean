import LuauAnnotation.Proofs.Legibility
import LuauAnnotation.Proofs.Tokenizing

/-!
# What holds on every level of a result

The tokens of a text stand on levels: the sequence itself is one, and the children of every bracket
pair on a level are another. Each level is the reading of a text of its own, so what holds of the
tokens of every text holds on all their levels: names are free of blanks and punctuation,
separators stand in groups only, punctuation has no other meaning, and a type without a name is
what is left between the two colons behind a name.
-/

namespace LuauAnnotation

namespace Token

/-- The levels of a token sequence, and whether each of them stands in a group. -/
inductive HasLevel (inGroup : Bool) (tokens : List Token) : Bool → List Token → Prop where
  | outermost : HasLevel inGroup tokens inGroup tokens
  | inside {outer : Bool} {level children : List Token} {kind : BracketKind}
      (houter : HasLevel inGroup tokens outer level) (hmem : .bracketed kind children ∈ level) :
      HasLevel inGroup tokens true children

/-- Every type without a name stands directly behind an identifier. -/
def EmptyTypesNamed (tokens : List Token) : Prop :=
  ∀ before after, tokens = before ++ .typeName [] :: after →
    ∃ earlier name, before = earlier ++ [.identifier name]

/-- What can stand on one level, in a group or outside. -/
structure Tidy (inGroup : Bool) (level : List Token) : Prop where
  /-- Names hold neither blanks nor punctuation, and no comma in a group. -/
  names : ∀ name, .identifier name ∈ level ∨ .typeName name ∈ level → ∀ c ∈ name,
    isBlank c = false ∧ c ∉ Lexeme.punctuationChars ∧ (inGroup = true → c ≠ ',')
  /-- A colon stands in identifiers only. -/
  types : ∀ name, .typeName name ∈ level → ':' ∉ name
  /-- Openers and the characters with tokens of their own are no punctuation. -/
  punctuation : ∀ c, .punctuation c ∈ level → c ∈ ['}', ')', ']', '<', '>', '-']
  /-- Separators stand in groups. -/
  separators : .separator ∈ level → inGroup = true
  /-- A type without a name stands directly behind an identifier. -/
  emptyTypes : EmptyTypesNamed level

/-- A sequence is legible if each of its tokens is. -/
theorem legibleAll_iff (inGroup : Bool) (tokens : List Token) :
    LegibleAll inGroup tokens ↔ ∀ token ∈ tokens, Legible inGroup token := by
  induction tokens with
  | nil => simp [LegibleAll]
  | cons token rest ih => simp [LegibleAll, ih]

/-- The levels of a token are among those of its sequence. -/
theorem depth_le_depthAll {token : Token} {tokens : List Token} (h : token ∈ tokens) :
    depth token ≤ depthAll tokens := by
  induction tokens with
  | nil => cases h
  | cons first rest ih =>
    rw [depthAll]
    rcases List.mem_cons.mp h with rfl | hrest
    · exact Nat.le_max_left _ _
    · exact (ih hrest).trans (Nat.le_max_right _ _)

/-- A sequence without empty type names has none to be named. -/
theorem emptyTypesNamed_of_not_mem {tokens : List Token} (h : .typeName [] ∉ tokens) :
    EmptyTypesNamed tokens := by
  rintro before after rfl
  simp at h

/-- Where two sequences meet, no type without a name loses its identifier. -/
theorem EmptyTypesNamed.append {left right : List Token} (hleft : EmptyTypesNamed left)
    (hright : EmptyTypesNamed right) : EmptyTypesNamed (left ++ right) := by
  intro before after h
  rcases List.append_eq_append_iff.mp h with ⟨middle, rfl, hmiddle⟩ | ⟨middle, rfl, hmiddle⟩
  · obtain ⟨earlier, name, rfl⟩ := hright middle after hmiddle
    exact ⟨left ++ earlier, name, (List.append_assoc _ _ _).symm⟩
  · cases middle with
    | nil =>
      -- The empty type would be the first token on the right.
      obtain ⟨earlier, name, hnone⟩ := hright [] after hmiddle.symm
      simp at hnone
    | cons token middle =>
      obtain ⟨rfl, -⟩ := List.cons.inj hmiddle
      exact hleft before middle rfl

end Token

/-! ### Readings level by level -/

section

variable {strict inGroup : Bool} {text : Text} {tokens : List Token}

/-- The tokens of a lexeme name the types that have no names. -/
theorem Lexeme.StandsFor.emptyTypesNamed {lexeme after : Text}
    (h : Lexeme.StandsFor inGroup lexeme tokens after) : Token.EmptyTypesNamed tokens := by
  cases h with
  | separator _ _ => exact Token.emptyTypesNamed_of_not_mem (by decide)
  | arrow => exact Token.emptyTypesNamed_of_not_mem (by decide)
  | punctuation c _ _ _ _ =>
    apply Token.emptyTypesNamed_of_not_mem
    unfold Token.ofPunctuation
    split <;> simp
  | atom _ _ hrun _ _ =>
    obtain ⟨name, -, htokens⟩ | ⟨-, htokens⟩ | ⟨name, type, tail, -, -, -, -, -, htokens⟩ :=
      Token.ofAtom_cases lexeme
    · rw [htokens]
      exact Token.emptyTypesNamed_of_not_mem (by simp)
    · rw [htokens]
      exact Token.emptyTypesNamed_of_not_mem (by simpa using hrun.symm)
    · rw [htokens]
      intro before after hsplit
      cases before with
      | nil => simp at hsplit
      | cons first before =>
        obtain ⟨rfl, hrest⟩ := List.cons.inj hsplit
        cases before with
        | nil => exact ⟨[], name, rfl⟩
        | cons second before => simp at hrest

/-- Every type without a name stands behind an identifier. -/
theorem Reads.emptyTypesNamed (h : Reads strict inGroup text tokens) :
    Token.EmptyTypesNamed tokens := by
  have hbracketed (kind : BracketKind) (children : List Token) :
      Token.EmptyTypesNamed [.bracketed kind children] :=
    Token.emptyTypesNamed_of_not_mem (by simp)
  induction h with
  | nil => exact Token.emptyTypesNamed_of_not_mem (by simp)
  | blank _ _ ih => exact ih
  | lexeme hlexeme _ ih => exact hlexeme.emptyTypesNamed.append ih
  | closed kind _ _ _ _ ih => exact (hbracketed kind _).append ih
  | unclosed kind _ _ _ _ => exact hbracketed kind _

/-- The children of a bracket pair are the reading of its interior. -/
theorem Reads.exists_reads_children {kind : BracketKind} {children : List Token}
    (h : Reads strict inGroup text tokens) (hmem : .bracketed kind children ∈ tokens) :
    ∃ interior, Reads strict true interior children := by
  induction h with
  | nil => cases hmem
  | blank _ _ ih => exact ih hmem
  | lexeme hlexeme _ ih =>
    rcases List.mem_append.mp hmem with hhere | hbehind
    · have hdepth := Token.depth_le_depthAll hhere
      rw [hlexeme.depthAll_eq_zero, Token.depth] at hdepth
      omega
    · exact ih hbehind
  | closed _ _ hchildren _ _ ih =>
    rcases List.mem_cons.mp hmem with hhere | hbehind
    · cases hhere
      exact ⟨_, hchildren⟩
    · exact ih hbehind
  | unclosed _ _ _ hchildren _ =>
    cases List.mem_singleton.mp hmem
    exact ⟨_, hchildren⟩

/-- Every level of a reading is a reading. -/
theorem Reads.exists_reads_level {inside : Bool} {level : List Token}
    (h : Reads strict inGroup text tokens) (hlevel : Token.HasLevel inGroup tokens inside level) :
    ∃ part, Reads strict inside part level := by
  induction hlevel with
  | outermost => exact ⟨text, h⟩
  | inside _ hmem ih =>
    obtain ⟨_, houter⟩ := ih
    exact houter.exists_reads_children hmem

/-- The tokens of a reading are tidy. -/
theorem Reads.tidy (h : Reads strict inGroup text tokens) : Token.Tidy inGroup tokens := by
  have hlegible := (Token.legibleAll_iff inGroup tokens).mp h.legibleAll
  refine ⟨?names, ?types, ?punctuation, ?separators, h.emptyTypesNamed⟩
  case names =>
    rintro name (hmem | hmem) c hc
    · exact (Lexeme.isAtomChar_iff inGroup c).mp (hlegible _ hmem c hc)
    · exact (Lexeme.isAtomChar_iff inGroup c).mp ((hlegible _ hmem).2 c hc)
  case types => exact fun name hmem => (hlegible _ hmem).1
  case punctuation => exact fun c hmem => hlegible _ hmem
  case separators => exact fun hmem => hlegible _ hmem

end

/-- Whatever the settings accept is tidy on every level. -/
theorem tidy_of_tokenize (settings : Settings) (inGroup : Bool) (text : Text) (tokens : List Token)
    (h : tokenize settings inGroup text = .ok tokens) (inside : Bool) (level : List Token)
    (hlevel : Token.HasLevel inGroup tokens inside level) : Token.Tidy inside level := by
  obtain ⟨hreads, -⟩ := (tokenize_eq_ok_iff settings inGroup text tokens).mp h
  obtain ⟨_, hpart⟩ := hreads.exists_reads_level hlevel
  exact hpart.tidy

/-- Two levels down in brackets that are never closed, a type without a name stands behind its
identifier and the comma is a separator, while outside the comma is part of a name. -/
theorem tidy_of_tokenize_unclosed :
    (tokenize ⟨2, false⟩ false [',', '(', '{', 'a', ':', ':', 'b', ','] =
      .ok [.typeName [','],
        .bracketed .tuple [.bracketed .table [.identifier ['a'], .typeName [], .separator]]]) ∧
      Token.HasLevel false [.typeName [','],
        .bracketed .tuple [.bracketed .table [.identifier ['a'], .typeName [], .separator]]] true
        [.identifier ['a'], .typeName [], .separator] ∧
      Token.Tidy true [.identifier ['a'], .typeName [], .separator] := by
  have htokens : tokenize ⟨2, false⟩ false [',', '(', '{', 'a', ':', ':', 'b', ','] =
      .ok [.typeName [','],
        .bracketed .tuple [.bracketed .table [.identifier ['a'], .typeName [], .separator]]] := by
    decide +kernel
  have hlevel : Token.HasLevel false [.typeName [','],
      .bracketed .tuple [.bracketed .table [.identifier ['a'], .typeName [], .separator]]] true
      [.identifier ['a'], .typeName [], .separator] :=
    .inside (.inside .outermost (List.mem_cons_of_mem _ List.mem_cons_self)) List.mem_cons_self
  exact ⟨htokens, hlevel, tidy_of_tokenize _ _ _ _ htokens _ _ hlevel⟩

end LuauAnnotation
