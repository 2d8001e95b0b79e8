import LuauAnnotation.Proofs.RoundTrip

/-!
# Reading a text form again

Settings that are not strict close a group that its text leaves open. The text form then holds a
closer that the text did not, and the groups around it may end elsewhere when the form is read. The
openers of the form are those of the text, each opens a group again, and each group ends at the
closer that the form has for it or before that. A group can therefore lose groups around it, and
it gains none.
-/

namespace LuauAnnotation

/-- The kinds of the groups that a text opens, in the order of its openers. -/
def Text.openers (text : Text) : List BracketKind := text.filterMap BracketKind.ofOpener?

namespace Token

mutual

/-- The kinds of the groups of a token, a group before those in it. -/
def kinds : Token → List BracketKind
  | .bracketed kind children => kind :: kindsAll children
  | _ => []

/-- The kinds of the groups of a token sequence in the order of their openers. -/
def kindsAll : List Token → List BracketKind
  | [] => []
  | token :: rest => kinds token ++ kindsAll rest

end

/-- The groups of both parts count. -/
@[simp] theorem kindsAll_append (left right : List Token) :
    kindsAll (left ++ right) = kindsAll left ++ kindsAll right := by
  induction left with
  | nil => rfl
  | cons token rest ih => rw [List.cons_append, kindsAll, kindsAll, ih, List.append_assoc]

/-- A token sequence without levels has no groups. -/
theorem kindsAll_eq_nil (tokens : List Token) (h : depthAll tokens = 0) : kindsAll tokens = [] := by
  induction tokens with
  | nil => rw [kindsAll]
  | cons token rest ih =>
    rw [depthAll, Nat.max_eq_zero_iff] at h
    rw [kindsAll, ih h.2]
    cases token with
    | bracketed kind children => simp [depth] at h
    | _ => simp [kinds]

end Token

/-! ### Openers in order -/

namespace Text

/-- The openers of both parts count. -/
@[simp] theorem openers_append (left right : Text) :
    openers (left ++ right) = openers left ++ openers right := by
  simp [openers]

/-- A text opens no group if no character of it does. -/
theorem openers_eq_nil (text : Text) (h : ∀ kind : BracketKind, kind.opener ∉ text) :
    openers text = [] := by
  rw [openers, List.filterMap_eq_nil_iff]
  intro c hc
  rw [Option.eq_none_iff_forall_ne_some]
  intro kind hkind
  rw [BracketKind.ofOpener?_eq_some_iff] at hkind
  exact h kind (hkind ▸ hc)

/-- An opener opens a group in front of those behind it. -/
@[simp] theorem openers_opener (kind : BracketKind) (rest : Text) :
    openers (kind.opener :: rest) = kind :: openers rest := by
  simp [openers, kind.ofOpener?_opener]

/-- A closer opens no group. -/
@[simp] theorem openers_closer (kind : BracketKind) (rest : Text) :
    openers (kind.closer :: rest) = openers rest := by
  simp [openers, kind.ofOpener?_closer_eq_none]

end Text

/-- The groups of a reading stand in the order of the openers of the text. -/
theorem Reads.kindsAll_eq {strict inGroup : Bool} {text : Text} {tokens : List Token}
    (h : Reads strict inGroup text tokens) : Token.kindsAll tokens = text.openers := by
  induction h with
  | nil => rfl
  | @blank _ c rest tokens hblank _ ih =>
    rw [ih, Text.openers, Text.openers, List.filterMap_cons_none]
    exact BracketKind.ofOpener?_of_isBlank hblank
  | lexeme hlexeme _ ih =>
    rw [Token.kindsAll_append, Token.kindsAll_eq_nil _ hlexeme.depthAll_eq_zero, Text.openers_append,
      Text.openers_eq_nil _ hlexeme.opener_not_mem, ih]
  | closed kind _ _ _ ihchildren ihrest =>
    simp [Token.kindsAll, Token.kinds, ihchildren, ihrest]
  | unclosed kind _ _ _ ih => simp [Token.kindsAll, Token.kinds, ih]

namespace Token

/-- Behind another token a sequence is written as on its own, but for a blank in front. -/
theorem renderRest_cases (tokens : List Token) :
    renderRest tokens = renderAll tokens ∨ renderRest tokens = ' ' :: renderAll tokens := by
  cases tokens with
  | nil => exact Or.inl rfl
  | cons token rest =>
    rw [renderRest, renderAll]
    rcases gap_cases token with hgap | hgap
    · exact Or.inl (by rw [hgap, List.nil_append])
    · exact Or.inr (by rw [hgap, List.append_assoc, List.singleton_append])

/-- Behind another token a sequence opens the same groups. -/
theorem openers_renderRest (tokens : List Token) :
    (renderRest tokens).openers = (renderAll tokens).openers := by
  rcases renderRest_cases tokens with h | h
  · rw [h]
  · rw [h, Text.openers, Text.openers, List.filterMap_cons_none]
    rfl

/-- The text form of legible tokens opens their groups in order. -/
theorem openers_renderAll (inGroup : Bool) (tokens : List Token)
    (hlegible : LegibleAll inGroup tokens) : (renderAll tokens).openers = kindsAll tokens := by
  induction tokens using forest_induction generalizing inGroup with
  | nil => rfl
  | leaf token rest hleaf ih =>
    have hnone := Text.openers_eq_nil (render token) fun kind =>
      opener_not_mem_render_leaf kind inGroup token hleaf hlegible.1
    have hkinds : kinds token = [] := by
      cases token with
      | bracketed kind children => cases hleaf
      | _ => rfl
    rw [renderAll, Text.openers_append, hnone, openers_renderRest, ih inGroup hlegible.2, kindsAll,
      hkinds]
  | bracketed kind children rest ihchildren ihrest =>
    simp [renderAll, render, openers_renderRest, ihchildren true hlegible.1,
      ihrest inGroup hlegible.2, kindsAll, kinds]

/-! ### Groups of the text form -/

/-- A character of a concatenation stands in the first part or in the second. -/
theorem exists_split_of_append_eq {left right front behind : Text} {c : Char}
    (h : left ++ right = front ++ c :: behind) :
    (∃ inner, left = front ++ c :: inner ∧ behind = inner ++ right) ∨
      ∃ inner, right = inner ++ c :: behind := by
  rcases List.append_eq_append_iff.mp h with ⟨inner, -, hright⟩ | ⟨inner, hleft, hbehind⟩
  · exact Or.inr ⟨inner, hright⟩
  · cases inner with
    | nil => exact Or.inr ⟨[], hbehind.symm⟩
    | cons d inner =>
      obtain ⟨rfl, hinner⟩ := List.cons.inj hbehind
      exact Or.inl ⟨inner, hleft, hinner⟩

/-- An opener that is written behind another token is written on its own as well. -/
theorem exists_opener_of_renderRest (rest : List Token) (kind : BracketKind) {front behind : Text}
    (h : renderRest rest = front ++ kind.opener :: behind) :
    ∃ front, renderAll rest = front ++ kind.opener :: behind := by
  rcases renderRest_cases rest with hsame | hblank
  · exact ⟨front, hsame ▸ h⟩
  · rw [hblank, ← List.singleton_append] at h
    rcases exists_split_of_append_eq h with ⟨_, hleft, -⟩ | hright
    · have hmem : kind.opener ∈ [' '] := hleft ▸ by simp
      cases kind <;> exact absurd hmem (by decide)
    · exact hright

/-- Each opener of the text form belongs to a group, which is written behind it with its closer and
has fewer levels than the whole. -/
theorem exists_group_of_opener (inGroup : Bool) (tokens : List Token)
    (hlegible : LegibleAll inGroup tokens) (kind : BracketKind) {front behind : Text}
    (htext : renderAll tokens = front ++ kind.opener :: behind) :
    ∃ children after, LegibleAll true children ∧ depthAll children < depthAll tokens ∧
      behind = renderAll children ++ kind.closer :: after := by
  induction tokens using forest_induction generalizing inGroup front behind with
  | nil => simp [renderAll] at htext
  | leaf token rest hleaf ih =>
    rw [renderAll] at htext
    rcases exists_split_of_append_eq htext with ⟨inner, htoken, -⟩ | ⟨inner, hbehind⟩
    · exact absurd (htoken ▸ by simp)
        (opener_not_mem_render_leaf kind inGroup token hleaf hlegible.1)
    · obtain ⟨_, hopener⟩ := exists_opener_of_renderRest rest kind hbehind
      obtain ⟨children, after, hchildren, hdepth, hgroup⟩ := ih inGroup hlegible.2 hopener
      exact ⟨children, after, hchildren, hdepth.trans_le (le_max_right _ _), hgroup⟩
  | bracketed other children rest ihchildren ihrest =>
    rw [renderAll, render, List.cons_append] at htext
    rcases exists_split_of_append_eq htext with ⟨inner, htoken, rfl⟩ | ⟨inner, hbehind⟩
    · rw [depthAll, depth]
      cases front with
      | nil =>
        obtain ⟨hkind, rfl⟩ := List.cons.inj htoken
        obtain rfl := (other.opener_inj kind).mp hkind
        exact ⟨children, renderRest rest, hlegible.1, by omega, by simp⟩
      | cons c front =>
        obtain ⟨-, hinside⟩ := List.cons.inj htoken
        rcases exists_split_of_append_eq hinside with ⟨inner', hopener, rfl⟩ | ⟨_, hcloser⟩
        · obtain ⟨children', after, hchildren, hdepth, rfl⟩ := ihchildren true hlegible.1 hopener
          exact ⟨children', after ++ [other.closer] ++ renderRest rest, hchildren, by omega, by simp⟩
        · have hmem : kind.opener ∈ [other.closer] := hcloser ▸ by simp
          exact absurd (List.mem_singleton.mp hmem) (kind.opener_ne_closer other)
    · obtain ⟨_, hopener⟩ := exists_opener_of_renderRest rest kind hbehind
      obtain ⟨children, after, hchildren, hdepth, hgroup⟩ := ihrest inGroup hlegible.2 hopener
      exact ⟨children, after, hchildren, hdepth.trans_le (le_max_right _ _), hgroup⟩

/-- In front of the closer of a group that is written, a text that does not close the group is
part of what is written in the group. -/
theorem prefix_renderAll_of_unclosed {kind : BracketKind} {inGroup : Bool} {children : List Token}
    (hlegible : LegibleAll inGroup children) {interior more after : Text}
    (hinterior : kind.Unclosed interior)
    (htext : interior ++ more = renderAll children ++ kind.closer :: after) :
    interior <+: renderAll children := by
  rcases exists_split_of_append_eq htext with ⟨inner, rfl, -⟩ | ⟨inner, hmore⟩
  · -- A longer text would hold the closer of the group.
    have hclosed := hinterior (renderAll children ++ [kind.closer]) ⟨inner, by simp⟩
    have hcount := count_closer_of_legibleAll kind inGroup children hlegible
    rw [List.count_append, List.count_append, List.count_singleton_self,
      List.count_singleton, beq_false_of_ne (kind.opener_ne_closer kind).symm] at hclosed
    simp only [Bool.false_eq_true, if_false] at hclosed
    omega
  · rw [hmore, ← List.append_assoc] at htext
    exact ⟨inner, List.append_cancel_right htext⟩

/-- What is read as the interior of a group in a piece of the text form is part of what is written
in a group of fewer levels. -/
theorem exists_children_of_piece {kind : BracketKind} {inGroup : Bool} {tokens : List Token}
    (hlegible : LegibleAll inGroup tokens) {interior more : Text} (hinterior : kind.Unclosed interior)
    (hpiece : kind.opener :: (interior ++ more) <:+: renderAll tokens) :
    ∃ children, LegibleAll true children ∧ depthAll children < depthAll tokens ∧
      interior <+: renderAll children := by
  obtain ⟨front, behind, htext⟩ := hpiece
  rw [List.append_assoc, List.cons_append, List.append_assoc] at htext
  obtain ⟨children, after, hchildren, hdepth, hgroup⟩ :=
    exists_group_of_opener inGroup tokens hlegible kind htext.symm
  exact ⟨children, hchildren, hdepth, prefix_renderAll_of_unclosed hchildren hinterior hgroup⟩

end Token

/-- A piece of the text form of legible tokens is read with no more levels than they have. -/
theorem Reads.depthAll_le {strict inGroup : Bool} {text : Text} {tokens : List Token}
    (h : Reads strict inGroup text tokens) {around : Bool} {form : List Token}
    (hlegible : Token.LegibleAll around form) (hpiece : text <:+: Token.renderAll form) :
    Token.depthAll tokens ≤ Token.depthAll form := by
  induction h generalizing around form with
  | nil => exact Nat.zero_le _
  | @blank _ c rest _ _ _ ih =>
    exact ih hlegible ((List.suffix_cons c rest).isInfix.trans hpiece)
  | @lexeme _ lexeme rest _ _ hlexeme _ ih =>
    rw [Token.depthAll_append, hlexeme.depthAll_eq_zero, Nat.zero_max]
    exact ih hlegible ((List.suffix_append lexeme rest).isInfix.trans hpiece)
  | @closed _ interior rest children others kind hinterior _ _ ihchildren ihrest =>
    obtain ⟨written, hwritten, hdepth, hprefix⟩ :=
      Token.exists_children_of_piece hlegible hinterior.covered hpiece
    have hchildren := ihchildren hwritten hprefix.isInfix
    have hbehind : rest <:+: kind.opener :: (interior ++ kind.closer :: rest) :=
      ⟨kind.opener :: (interior ++ [kind.closer]), [], by simp⟩
    have hothers := ihrest hlegible (hbehind.trans hpiece)
    rw [Token.depthAll, Token.depth]
    omega
  | @unclosed _ interior children kind _ hinterior _ ih =>
    rw [← List.append_nil interior] at hpiece
    obtain ⟨written, hwritten, hdepth, hprefix⟩ :=
      Token.exists_children_of_piece hlegible hinterior hpiece
    have hchildren := ih hwritten hprefix.isInfix
    rw [Token.depthAll, Token.depth, Token.depthAll]
    omega

/-- The text form of a reading is read again, strictly if it was read strictly before. Then it has
the same groups in the order of their openers and no more levels. -/
theorem Reads.exists_reads_renderAll {strict inGroup : Bool} {text : Text} {tokens : List Token}
    (h : Reads strict inGroup text tokens) :
    ∃ again, Reads strict inGroup (Token.renderAll tokens) again ∧
      Token.kindsAll again = Token.kindsAll tokens ∧
        Token.depthAll again ≤ Token.depthAll tokens := by
  have hagain : ∃ again, Reads strict inGroup (Token.renderAll tokens) again := by
    cases strict with
    | true => exact ⟨_, (reads_renderAll inGroup tokens h.legibleAll h.nestedAll).1⟩
    | false => exact exists_reads inGroup (Token.renderAll tokens)
  obtain ⟨again, hreads⟩ := hagain
  refine ⟨again, hreads, ?_, hreads.depthAll_le h.legibleAll (List.infix_refl _)⟩
  rw [hreads.kindsAll_eq, Token.openers_renderAll inGroup tokens h.legibleAll]

/-- The text form of accepted tokens is accepted by the same settings. What comes back has groups
of the same kinds in the same order, and no more levels. -/
theorem exists_tokenize_renderAll (settings : Settings) (inGroup : Bool) (text : Text)
    (tokens : List Token) (h : tokenize settings inGroup text = .ok tokens) :
    ∃ again, tokenize settings inGroup (Token.renderAll tokens) = .ok again ∧
      Token.kindsAll again = Token.kindsAll tokens ∧
        Token.depthAll again ≤ Token.depthAll tokens := by
  obtain ⟨hreads, hdepth⟩ := (tokenize_eq_ok_iff settings inGroup text tokens).mp h
  obtain ⟨again, hagain, hkinds, hless⟩ := hreads.exists_reads_renderAll
  exact ⟨again, (tokenize_eq_ok_iff _ _ _ _).mpr ⟨hagain, hless.trans hdepth⟩, hkinds, hless⟩

/-- A group that its text leaves open inside another takes away the closer of the other. -/
theorem exists_tokenize_renderAll_open :
    let inner := Token.bracketed .tuple [.bracketed .table []]
    let tokens := [Token.bracketed .table [inner, .punctuation '}']]
    let again := [Token.bracketed .table [inner], .punctuation '}']
    tokenize ⟨3, false⟩ false ['{', '(', '{', ')', '}', '}'] = .ok tokens ∧
      tokenize ⟨3, false⟩ false (Token.renderAll tokens) = .ok again ∧
      Token.kindsAll again = Token.kindsAll tokens ∧
        Token.depthAll again ≤ Token.depthAll tokens := by
  intro inner tokens again
  have hfirst : tokenize ⟨3, false⟩ false ['{', '(', '{', ')', '}', '}'] = .ok tokens := by
    decide +kernel
  have hagain : tokenize ⟨3, false⟩ false (Token.renderAll tokens) = .ok again := by
    decide +kernel
  obtain ⟨found, hfound, hkinds, hdepth⟩ := exists_tokenize_renderAll ⟨3, false⟩ false _ _ hfirst
  rw [hagain, Except.ok.injEq] at hfound
  subst hfound
  exact ⟨hfirst, hagain, hkinds, hdepth⟩

end LuauAnnotation
