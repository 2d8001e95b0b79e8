import LuauAnnotation.Proofs.Reading

/-!
# What readings hold

The tokens of a text hold only what the text form can show: names without blanks and
punctuation, separators inside groups only, and punctuation that is neither an opener nor has a
token of its own. Compared with the text, the text form of its tokens has the same openers, at
least the same closers, and colons enough less to account for every empty type name. A strict
reading adds no closers, hence no group in it holds a stray closer of its own kind.
-/

namespace LuauAnnotation

namespace Token

mutual

/-- The parts of the token can be told apart in its text form. A comma in a name cannot if the
token stands in a group. -/
def Legible (inGroup : Bool) : Token → Prop
  | .punctuation c => c ∈ ['}', ')', ']', '<', '>', '-']
  | .arrow | .union | .intersection => True
  | .separator => inGroup = true
  | .identifier name => ∀ c ∈ name, Lexeme.isAtomChar inGroup c = true
  | .typeName name => ':' ∉ name ∧ ∀ c ∈ name, Lexeme.isAtomChar inGroup c = true
  | .bracketed _ children => LegibleAll true children

/-- Every token of the sequence is legible. -/
def LegibleAll (inGroup : Bool) : List Token → Prop
  | [] => True
  | token :: rest => Legible inGroup token ∧ LegibleAll inGroup rest

end

mutual

/-- No bracket pair of the token holds a stray closer of its own kind. -/
def Nested : Token → Prop
  | .bracketed kind children => straysAll kind children = 0 ∧ NestedAll children
  | _ => True

/-- No bracket pair of the sequence holds a stray closer of its own kind. -/
def NestedAll : List Token → Prop
  | [] => True
  | token :: rest => Nested token ∧ NestedAll rest

end

mutual

/-- Whether a token is legible is decided by its parts. -/
def decideLegible (inGroup : Bool) : (token : Token) → Decidable (Legible inGroup token)
  | .punctuation c => inferInstanceAs (Decidable (c ∈ ['}', ')', ']', '<', '>', '-']))
  | .arrow | .union | .intersection => isTrue trivial
  | .separator => inferInstanceAs (Decidable (inGroup = true))
  | .identifier name =>
    decidable_of_iff (name.all (Lexeme.isAtomChar inGroup) = true) List.all_eq_true
  | .typeName name =>
    decidable_of_iff (':' ∉ name ∧ name.all (Lexeme.isAtomChar inGroup) = true)
      (and_congr_right' List.all_eq_true)
  | .bracketed _ children => decideLegibleAll true children

/-- Whether a sequence is legible is decided token by token. -/
def decideLegibleAll (inGroup : Bool) : (tokens : List Token) → Decidable (LegibleAll inGroup tokens)
  | [] => isTrue trivial
  | token :: rest =>
    letI := decideLegible inGroup token
    letI := decideLegibleAll inGroup rest
    inferInstanceAs (Decidable (Legible inGroup token ∧ LegibleAll inGroup rest))

end

mutual

/-- Whether a token is nested is decided by its children. -/
def decideNested : (token : Token) → Decidable (Nested token)
  | .bracketed kind children =>
    letI := decideNestedAll children
    inferInstanceAs (Decidable (straysAll kind children = 0 ∧ NestedAll children))
  | .punctuation _ | .arrow | .union | .intersection | .separator | .identifier _ | .typeName _ =>
    isTrue trivial

/-- Whether a sequence is nested is decided token by token. -/
def decideNestedAll : (tokens : List Token) → Decidable (NestedAll tokens)
  | [] => isTrue trivial
  | token :: rest =>
    letI := decideNested token
    letI := decideNestedAll rest
    inferInstanceAs (Decidable (Nested token ∧ NestedAll rest))

end

instance (inGroup : Bool) (tokens : List Token) : Decidable (LegibleAll inGroup tokens) :=
  decideLegibleAll inGroup tokens

instance (tokens : List Token) : Decidable (NestedAll tokens) := decideNestedAll tokens

/-- The tokens of both parts are legible. -/
@[simp] theorem legibleAll_append (inGroup : Bool) (left right : List Token) :
    LegibleAll inGroup (left ++ right) ↔ LegibleAll inGroup left ∧ LegibleAll inGroup right := by
  induction left with
  | nil => simp [LegibleAll]
  | cons token rest ih => simp [LegibleAll, ih, and_assoc]

/-- The bracket pairs of both parts are nested. -/
@[simp] theorem nestedAll_append (left right : List Token) :
    NestedAll (left ++ right) ↔ NestedAll left ∧ NestedAll right := by
  induction left with
  | nil => simp [NestedAll]
  | cons token rest ih => simp [NestedAll, ih, and_assoc]

/-- Nothing but a colon and the characters of atoms stands in a name. -/
theorem count_name {inGroup : Bool} {name : Text} {c : Char}
    (hname : ∀ d ∈ name, Lexeme.isAtomChar inGroup d = true) (hc : c ∈ Lexeme.punctuationChars) :
    name.count c = 0 := by
  rw [List.count_eq_zero]
  intro hmem
  exact ((Lexeme.isAtomChar_iff inGroup c).mp (hname c hmem)).2.1 hc

/-- In the text form of legible tokens the closers of a kind exceed its openers by the stray
ones. -/
theorem count_closer_of_legibleAll (kind : BracketKind) (inGroup : Bool) (tokens : List Token)
    (h : LegibleAll inGroup tokens) :
    (renderAll tokens).count kind.closer =
      (renderAll tokens).count kind.opener + straysAll kind tokens := by
  have hopener : kind.opener ≠ ' ' := by cases kind <;> decide
  have hcloser : kind.closer ≠ ' ' := by cases kind <;> decide
  induction tokens using forest_induction generalizing inGroup with
  | nil => simp [renderAll, straysAll]
  | leaf token rest hleaf ih =>
    rw [count_renderAll_cons _ hcloser, count_renderAll_cons _ hopener, straysAll,
      ih inGroup h.2]
    suffices (render token).count kind.closer =
        (render token).count kind.opener + strays kind token by omega
    have htoken := h.1
    cases token with
    | punctuation c =>
      have hall : ∀ d ∈ ['}', ')', ']', '<', '>', '-'], d ≠ kind.opener :=
        List.all_iff_forall_prop.mp (by cases kind <;> decide)
      simp [render, strays, List.count_singleton, hall c htoken]
    | identifier name =>
      simp only [render, strays, List.count_append,
        count_name htoken (Lexeme.opener_mem_punctuationChars kind),
        count_name htoken (Lexeme.closer_mem_punctuationChars kind)]
      cases kind <;> decide
    | typeName name =>
      simp only [render, strays, count_name htoken.2 (Lexeme.opener_mem_punctuationChars kind),
        count_name htoken.2 (Lexeme.closer_mem_punctuationChars kind)]
    | bracketed kind children => cases hleaf
    | _ => cases kind <;> decide
  | bracketed other children rest ihchildren ihrest =>
    rw [count_renderAll_bracketed _ hcloser, count_renderAll_bracketed _ hopener, straysAll, strays,
      ihchildren true h.1, ihrest inGroup h.2]
    have hpair := other.count_pair kind
    omega

end Token

/-! ### Lexemes -/

namespace Lexeme

variable {inGroup : Bool} {lexeme after : Text} {tokens : List Token}

/-- The tokens of a lexeme are legible. -/
theorem StandsFor.legibleAll (h : StandsFor inGroup lexeme tokens after) :
    Token.LegibleAll inGroup tokens := by
  cases h with
  | separator _ hgroup => exact ⟨hgroup, trivial⟩
  | arrow => exact ⟨trivial, trivial⟩
  | punctuation c _ hc hopener _ =>
    have hall : ∀ d ∈ punctuationChars, BracketKind.ofOpener? d = none → d ≠ '|' → d ≠ '&' →
        d ∈ ['}', ')', ']', '<', '>', '-'] := List.all_iff_forall_prop.mp (by decide)
    refine ⟨?_, trivial⟩
    unfold Token.ofPunctuation
    split
    · exact trivial
    · exact trivial
    case h_3 hunion hintersection => exact hall c hc hopener hunion hintersection
  | atom _ _ _ hchars _ =>
    obtain ⟨name, hrun, htokens⟩ | ⟨hcolon, htokens⟩ |
      ⟨name, type, tail, hrun, hname, htype, _, _, htokens⟩ := Token.ofAtom_cases lexeme
    · rw [htokens]
      refine ⟨fun c hc => hchars c ?_, trivial⟩
      simp [hrun, hc]
    · rw [htokens]
      exact ⟨⟨hcolon, hchars⟩, trivial⟩
    · rw [htokens]
      refine ⟨fun c hc => hchars c ?_, ⟨htype, fun c hc => hchars c ?_⟩, trivial⟩
      · simp [hrun, hc]
      · simp [hrun, hc]

/-- A lexeme stands for no bracket pair. -/
theorem StandsFor.nestedAll (h : StandsFor inGroup lexeme tokens after) :
    Token.NestedAll tokens := by
  cases h with
  | separator _ _ => exact ⟨trivial, trivial⟩
  | arrow => exact ⟨trivial, trivial⟩
  | punctuation c _ _ _ _ =>
    refine ⟨?_, trivial⟩
    unfold Token.ofPunctuation
    split <;> exact trivial
  | atom _ _ _ _ _ =>
    obtain ⟨_, _, htokens⟩ | ⟨_, htokens⟩ | ⟨_, _, _, _, _, _, _, _, htokens⟩ :=
      Token.ofAtom_cases lexeme
    · exact htokens ▸ ⟨trivial, trivial⟩
    · exact htokens ▸ ⟨trivial, trivial⟩
    · exact htokens ▸ ⟨trivial, trivial, trivial⟩

/-- The tokens of a lexeme are written with the punctuation of the lexeme. -/
theorem StandsFor.count_renderAll (h : StandsFor inGroup lexeme tokens after) (c : Char)
    (hc : c ∈ punctuationChars) : (Token.renderAll tokens).count c = lexeme.count c := by
  cases h with
  | separator _ _ => rfl
  | arrow => rfl
  | punctuation d _ _ _ _ => simp [Token.renderAll, Token.renderRest]
  | atom _ _ _ hchars _ =>
    have hall : ∀ d ∈ punctuationChars, [':'].count d = 0 ∧ [' '].count d = 0 :=
      List.all_iff_forall_prop.mp (by decide)
    obtain ⟨hcolon, hblank⟩ := hall c hc
    have hrun := Token.count_name hchars hc
    obtain ⟨name, hname, htokens⟩ | ⟨_, htokens⟩ |
      ⟨name, type, tail, hname, _, _, _, _, htokens⟩ := Token.ofAtom_cases lexeme
    · rw [htokens, hname]
      simp [Token.renderAll, Token.renderRest, Token.render]
    · rw [htokens]
      simp [Token.renderAll, Token.renderRest, Token.render]
    · rw [hname, List.count_append, ← List.singleton_append, List.count_append,
        List.count_append] at hrun
      have hparts : name.count c = 0 ∧ type.count c = 0 := by omega
      rw [htokens, Token.count_name hchars hc]
      simp only [Token.renderAll, Token.renderRest, Token.render, Token.gap, List.count_append,
        hparts, hcolon, hblank, List.append_nil]

/-- The tokens of a lexeme are written with no more colons than the lexeme holds, and one less
for an empty type name. -/
theorem StandsFor.count_colon (h : StandsFor inGroup lexeme tokens after) :
    (Token.renderAll tokens).count ':' + Token.emptyTypesAll tokens ≤ lexeme.count ':' := by
  cases h with
  | separator _ _ => decide
  | arrow => decide
  | punctuation c _ _ _ _ =>
    simp [Token.renderAll, Token.renderRest, Token.emptyTypesAll]
  | atom _ _ hrun _ _ =>
    obtain ⟨name, hname, htokens⟩ | ⟨_, htokens⟩ |
      ⟨name, type, tail, hname, _, _, htail, hlast, htokens⟩ := Token.ofAtom_cases lexeme
    · rw [htokens, hname]
      simp [Token.renderAll, Token.renderRest, Token.render, Token.emptyTypesAll, Token.emptyTypes]
    · rw [htokens]
      simp [Token.renderAll, Token.renderRest, Token.render, Token.emptyTypesAll, Token.emptyTypes,
        hrun]
    · -- An empty type name stands between two colons, and the second one is dropped.
      have hempty : Token.emptyTypes (.typeName type) ≤ tail.count ':' := by
        simp only [Token.emptyTypes]
        split
        case isTrue htype =>
          rcases htail with rfl | hhead
          · simp [htype] at hlast
          · obtain ⟨more, rfl⟩ := List.head?_eq_some_iff.mp hhead
            simp
        case isFalse _ => exact Nat.zero_le _
      rw [htokens, hname]
      simp only [Token.renderAll, Token.renderRest, Token.render, Token.gap, Token.emptyTypesAll,
        List.count_append, List.count_cons, List.count_nil, List.append_nil]
      simp only [Token.emptyTypes] at hempty ⊢
      simp
      omega

end Lexeme

/-! ### Readings -/

variable {strict inGroup : Bool} {text : Text} {tokens : List Token}

/-- The tokens of a reading are legible. -/
theorem Reads.legibleAll (h : Reads strict inGroup text tokens) :
    Token.LegibleAll inGroup tokens := by
  induction h with
  | nil => exact trivial
  | blank _ _ ih => exact ih
  | lexeme hlexeme _ ih => exact (Token.legibleAll_append _ _ _).mpr ⟨hlexeme.legibleAll, ih⟩
  | closed _ _ _ _ ihchildren ihrest => exact ⟨ihchildren, ihrest⟩
  | unclosed _ _ _ _ ih => exact ⟨ih, trivial⟩

/-- The characters of a closed group and the text behind it. -/
theorem count_group (c : Char) (kind : BracketKind) (interior rest : Text) :
    (kind.opener :: (interior ++ kind.closer :: rest)).count c =
      [kind.opener].count c + interior.count c + [kind.closer].count c + rest.count c := by
  rw [← List.singleton_append, List.count_append, List.count_append,
    ← List.singleton_append (l := rest), List.count_append]
  omega

/-- The characters of a group that is never closed. -/
theorem count_open (c : Char) (kind : BracketKind) (interior : Text) :
    (kind.opener :: interior).count c = [kind.opener].count c + interior.count c := by
  rw [← List.singleton_append, List.count_append]

/-- No punctuation character is blank in the text form. -/
theorem ne_blank_of_mem_punctuationChars (c : Char) (hc : c ∈ Lexeme.punctuationChars) :
    c ≠ ' ' := by
  have hblank : isBlank ' ' = true := by decide
  exact (Lexeme.ne_of_isBlank hblank hc).symm

/-- The text form of a reading holds all the punctuation of the text. -/
theorem Reads.count_le (h : Reads strict inGroup text tokens) (c : Char)
    (hc : c ∈ Lexeme.punctuationChars) : text.count c ≤ (Token.renderAll tokens).count c := by
  have hblank := ne_blank_of_mem_punctuationChars c hc
  induction h with
  | nil => exact Nat.zero_le _
  | @blank _ d _ _ hd _ ih =>
    rw [List.count_cons_of_ne (Lexeme.ne_of_isBlank hd hc)]
    exact ih
  | lexeme hlexeme _ ih =>
    rw [List.count_append, Token.count_renderAll_append c hblank, hlexeme.count_renderAll c hc]
    omega
  | closed kind _ _ _ ihchildren ihrest =>
    rw [count_group, Token.count_renderAll_bracketed c hblank]
    omega
  | unclosed kind _ _ _ ih =>
    rw [count_open, Token.count_renderAll_bracketed c hblank]
    omega

/-- The text form of a reading adds no punctuation but closers, and a strict one not even these. -/
theorem Reads.count_eq (h : Reads strict inGroup text tokens) (c : Char)
    (hc : c ∈ Lexeme.punctuationChars) (hsame : strict = true ∨ ∀ kind : BracketKind, c ≠ kind.closer) :
    (Token.renderAll tokens).count c = text.count c := by
  have hblank := ne_blank_of_mem_punctuationChars c hc
  induction h with
  | nil => rfl
  | @blank _ d _ _ hd _ ih =>
    rw [List.count_cons_of_ne (Lexeme.ne_of_isBlank hd hc)]
    exact ih
  | lexeme hlexeme _ ih =>
    rw [List.count_append, Token.count_renderAll_append c hblank, hlexeme.count_renderAll c hc, ih]
  | closed kind _ _ _ ihchildren ihrest =>
    rw [count_group, Token.count_renderAll_bracketed c hblank, ihchildren, ihrest]
  | unclosed kind hstrict _ _ ih =>
    have hcloser : [kind.closer].count c = 0 := by
      rcases hsame with htrue | hne
      · exact absurd (htrue.symm.trans hstrict) (by decide)
      · simp [(hne kind).symm]
    rw [count_open, Token.count_renderAll_bracketed c hblank, ih, hcloser]
    rfl

/-- The text form of a reading holds just the openers of the text. -/
theorem Reads.count_opener (h : Reads strict inGroup text tokens) (kind : BracketKind) :
    (Token.renderAll tokens).count kind.opener = text.count kind.opener :=
  h.count_eq kind.opener (Lexeme.opener_mem_punctuationChars kind) (Or.inr kind.opener_ne_closer)

/-- The text form of a strict reading holds just the closers of the text. -/
theorem Reads.count_closer (h : Reads true inGroup text tokens) (kind : BracketKind) :
    (Token.renderAll tokens).count kind.closer = text.count kind.closer :=
  h.count_eq kind.closer (Lexeme.closer_mem_punctuationChars kind) (Or.inl rfl)

/-- A reading whose text form has no more closers than the text is strict. -/
theorem Reads.strict_of_count_le (h : Reads strict inGroup text tokens)
    (hcount : ∀ kind : BracketKind,
      (Token.renderAll tokens).count kind.closer ≤ text.count kind.closer) :
    Reads true inGroup text tokens := by
  induction h with
  | nil inGroup => exact .nil inGroup
  | @blank _ c rest _ hblank _ ih =>
    refine .blank hblank (ih fun kind => ?_)
    have hne := Lexeme.ne_of_isBlank hblank (Lexeme.closer_mem_punctuationChars kind)
    have hwhole := hcount kind
    rwa [List.count_cons_of_ne hne] at hwhole
  | lexeme hlexeme _ ih =>
    refine .lexeme hlexeme (ih fun kind => ?_)
    have hcloser := Lexeme.closer_mem_punctuationChars kind
    have hwhole := hcount kind
    rw [List.count_append, Token.count_renderAll_append _ (ne_blank_of_mem_punctuationChars _ hcloser),
      hlexeme.count_renderAll _ hcloser] at hwhole
    omega
  | closed kind hinterior hchildren hrest ihchildren ihrest =>
    have hparts (other : BracketKind) := by
      have hcloser := Lexeme.closer_mem_punctuationChars other
      have hwhole := hcount other
      rw [count_group, Token.count_renderAll_bracketed _ (ne_blank_of_mem_punctuationChars _ hcloser)]
        at hwhole
      exact And.intro hwhole (And.intro (hchildren.count_le _ hcloser) (hrest.count_le _ hcloser))
    refine .closed kind hinterior (ihchildren fun other => ?_) (ihrest fun other => ?_)
    · obtain ⟨hwhole, hinner, hafter⟩ := hparts other
      omega
    · obtain ⟨hwhole, hinner, hafter⟩ := hparts other
      omega
  | unclosed kind _ _ hchildren _ =>
    -- The closer that the text form adds is one too many.
    have hcloser := Lexeme.closer_mem_punctuationChars kind
    have hwhole := hcount kind
    have hinner := hchildren.count_le _ hcloser
    rw [count_open, Token.count_renderAll_bracketed _ (ne_blank_of_mem_punctuationChars _ hcloser),
      List.count_singleton_self] at hwhole
    omega

/-- The text form of a reading has no more colons than the text, and one less for each empty
type name. -/
theorem Reads.count_colon (h : Reads strict inGroup text tokens) :
    (Token.renderAll tokens).count ':' + Token.emptyTypesAll tokens ≤ text.count ':' := by
  have hpair (kind : BracketKind) :
      [kind.opener].count ':' = 0 ∧ [kind.closer].count ':' = 0 := by
    cases kind <;> decide
  have hcolon : ':' ≠ ' ' := by decide
  induction h with
  | nil => exact Nat.zero_le _
  | blank _ _ ih => exact ih.trans List.count_le_count_cons
  | lexeme hlexeme _ ih =>
    have hhere := hlexeme.count_colon
    rw [List.count_append, Token.count_renderAll_append _ hcolon, Token.emptyTypesAll_append]
    omega
  | closed kind _ _ _ ihchildren ihrest =>
    rw [count_group, Token.count_renderAll_bracketed _ hcolon, Token.emptyTypesAll,
      Token.emptyTypes, (hpair kind).1, (hpair kind).2]
    omega
  | unclosed kind _ _ _ ih =>
    rw [count_open, Token.count_renderAll_bracketed _ hcolon, Token.emptyTypesAll,
      Token.emptyTypes, (hpair kind).1, (hpair kind).2]
    simp only [Token.emptyTypesAll, Token.renderAll, List.count_nil]
    omega

/-- In a strict reading no bracket pair holds a stray closer of its own kind. -/
theorem Reads.nestedAll (h : Reads true inGroup text tokens) : Token.NestedAll tokens := by
  induction h with
  | nil => exact trivial
  | blank _ _ ih => exact ih
  | lexeme hlexeme _ ih => exact (Token.nestedAll_append _ _).mpr ⟨hlexeme.nestedAll, ih⟩
  | closed kind hinterior hchildren _ ihchildren ihrest =>
    have hwritten := Token.count_closer_of_legibleAll kind true _ hchildren.legibleAll
    rw [hchildren.count_opener, hchildren.count_closer, hinterior.count_eq] at hwritten
    exact ⟨⟨by omega, ihchildren⟩, ihrest⟩
  | unclosed _ hstrict _ _ _ => exact absurd hstrict (by decide)

end LuauAnnotation
