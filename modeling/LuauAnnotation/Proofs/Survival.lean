import LuauAnnotation.Proofs.RoundTrip

/-!
# Token sequences that survive their text form

A token sequence is well formed if it is legible, has no empty type names and no bracket pair with
a stray closer of its own kind. These are exactly the sequences that are read back from their text
form, by lenient settings as by strict ones. Of what strict settings accept, the sequences without
empty type names survive, and no others: the empty type names are all that is lost, and a second
round trip loses nothing.
-/

namespace LuauAnnotation

namespace Token

/-- At every level the names, punctuation and separators are legible, type names are not empty,
and no bracket pair holds a stray closer of its own kind. -/
structure WellFormed (inGroup : Bool) (tokens : List Token) : Prop where
  legible : LegibleAll inGroup tokens
  named : emptyTypesAll tokens = 0
  nested : NestedAll tokens

instance (inGroup : Bool) (tokens : List Token) : Decidable (WellFormed inGroup tokens) :=
  decidable_of_iff (LegibleAll inGroup tokens ∧ emptyTypesAll tokens = 0 ∧ NestedAll tokens)
    ⟨fun h => ⟨h.1, h.2.1, h.2.2⟩, fun h => ⟨h.legible, h.named, h.nested⟩⟩

end Token

/-- The text form of a sequence is read as that sequence exactly if the sequence is well formed. -/
theorem reads_renderAll_iff (strict inGroup : Bool) (tokens : List Token) :
    Reads strict inGroup (Token.renderAll tokens) tokens ↔ Token.WellFormed inGroup tokens := by
  constructor
  · intro h
    -- Text and text form agree here, so no closer is added and no colon is lost.
    have hstrict := h.strict_of_count_le fun kind => Nat.le_refl _
    have hcolon := h.count_colon
    exact ⟨h.legibleAll, by omega, hstrict.nestedAll⟩
  · intro h
    have hread := (reads_renderAll inGroup tokens h.legible h.nested).1
    rw [Token.pruneAll_eq_self tokens h.named] at hread
    cases strict with
    | true => exact hread
    | false => exact hread.lenient

/-- A sequence whose brackets nest no deeper than the settings allow is read back from its text
form exactly if it is well formed, whether the settings are strict or not. -/
theorem tokenize_renderAll_eq_ok_iff (settings : Settings) (inGroup : Bool) (tokens : List Token)
    (hdepth : Token.depthAll tokens ≤ settings.maxDepth.toNat) :
    tokenize settings inGroup (Token.renderAll tokens) = .ok tokens ↔
      Token.WellFormed inGroup tokens := by
  rw [tokenize_eq_ok_iff, reads_renderAll_iff, and_iff_left hdepth]

/-- A closer of another kind between two brackets does no harm. -/
theorem tokenize_renderAll_stray_closer :
    Token.depthAll [.bracketed .table [.bracketed .tuple [.punctuation ']']], .identifier [':']] ≤
        (2 : UInt64).toNat ∧
      (tokenize ⟨2, false⟩ false (Token.renderAll
          [.bracketed .table [.bracketed .tuple [.punctuation ']']], .identifier [':']]) =
        .ok [.bracketed .table [.bracketed .tuple [.punctuation ']']], .identifier [':']] ↔
      Token.WellFormed false
        [.bracketed .table [.bracketed .tuple [.punctuation ']']], .identifier [':']]) :=
  ⟨by decide, tokenize_renderAll_eq_ok_iff ⟨2, false⟩ false _ (by decide)⟩

/-- A closer does harm to a pair of its own kind from two levels down. -/
example : ¬ Token.WellFormed true
    [.bracketed .tuple [.bracketed .table [.punctuation ')']]] := by
  decide

/-- Legible tokens with nested brackets are well formed once their empty type names are gone. -/
theorem wellFormed_pruneAll (inGroup : Bool) (tokens : List Token)
    (hlegible : Token.LegibleAll inGroup tokens) (hnested : Token.NestedAll tokens) :
    Token.WellFormed inGroup (Token.pruneAll tokens) := by
  have hread := (reads_renderAll inGroup tokens hlegible hnested).1
  exact ⟨hread.legibleAll, Token.emptyTypesAll_pruneAll tokens, hread.nestedAll⟩

/-- Legible tokens with nested brackets are read back up to their empty type names, by any settings
that admit their levels. -/
theorem tokenize_renderAll_eq_pruneAll (settings : Settings) (inGroup : Bool) (tokens : List Token)
    (hlegible : Token.LegibleAll inGroup tokens) (hnested : Token.NestedAll tokens)
    (hdepth : Token.depthAll tokens ≤ settings.maxDepth.toNat) :
    tokenize settings inGroup (Token.renderAll tokens) = .ok (Token.pruneAll tokens) := by
  have hread := (reads_renderAll inGroup tokens hlegible hnested).1
  rw [tokenize_eq_ok_iff, Token.depthAll_pruneAll]
  refine ⟨?_, hdepth⟩
  cases settings.strict with
  | true => exact hread
  | false => exact hread.lenient

/-- What strict settings accept is read back from its text form exactly if it has no empty type
name at any level. -/
theorem strict_tokenize_renderAll_iff (settings : Settings) (hstrict : settings.strict = true)
    (inGroup : Bool) (text : Text) (tokens : List Token)
    (h : tokenize settings inGroup text = .ok tokens) :
    tokenize settings inGroup (Token.renderAll tokens) = .ok tokens ↔
      Token.emptyTypesAll tokens = 0 := by
  obtain ⟨hreads, hdepth⟩ := (tokenize_eq_ok_iff settings inGroup text tokens).mp h
  rw [tokenize_eq_ok_iff, reads_renderAll_iff, and_iff_left hdepth]
  constructor
  · exact fun hwellFormed => hwellFormed.named
  · intro hnamed
    rw [hstrict] at hreads
    exact ⟨hreads.legibleAll, hnamed, hreads.nestedAll⟩

/-- Names, separators and closers of other kinds come back from a strict reading. -/
theorem strict_tokenize_renderAll_members :
    (true = true ∧ tokenize ⟨2, true⟩ false ['(', 'a', ':', 'b', ',', ']', ')', 'c', ':', ':'] =
      .ok [.bracketed .tuple [.identifier ['a'], .typeName ['b'], .separator, .punctuation ']'],
        .identifier ['c', ':']]) ∧
      (tokenize ⟨2, true⟩ false (Token.renderAll
          [.bracketed .tuple [.identifier ['a'], .typeName ['b'], .separator, .punctuation ']'],
            .identifier ['c', ':']]) =
        .ok [.bracketed .tuple [.identifier ['a'], .typeName ['b'], .separator, .punctuation ']'],
          .identifier ['c', ':']] ↔
      Token.emptyTypesAll
        [.bracketed .tuple [.identifier ['a'], .typeName ['b'], .separator, .punctuation ']'],
          .identifier ['c', ':']] = 0) :=
  ⟨⟨rfl, by decide +kernel⟩, strict_tokenize_renderAll_iff ⟨2, true⟩ rfl false
    ['(', 'a', ':', 'b', ',', ']', ')', 'c', ':', ':'] _ (by decide +kernel)⟩

/-- A strict reading need not come back: two colons in front of a type make an empty type name,
which its text form does not show. -/
theorem exists_strict_tokenize_renderAll_ne :
    ¬ ∀ (settings : Settings) (inGroup : Bool) (text : Text) (tokens : List Token),
      settings.strict = true → tokenize settings inGroup text = .ok tokens →
        tokenize settings inGroup (Token.renderAll tokens) = .ok tokens := by
  intro h
  have hread := h ⟨128, true⟩ false ['a', ':', ':', 'b'] [.identifier ['a'], .typeName []] rfl
    (by decide +kernel)
  exact absurd hread (by decide +kernel)

/-- What strict settings accept comes back from its text form without its empty type names and
otherwise unchanged, and what came back comes back unchanged. -/
theorem strict_tokenize_renderAll_eq_pruneAll (settings : Settings)
    (hstrict : settings.strict = true) (inGroup : Bool) (text : Text) (tokens : List Token)
    (h : tokenize settings inGroup text = .ok tokens) :
    tokenize settings inGroup (Token.renderAll tokens) = .ok (Token.pruneAll tokens) ∧
      tokenize settings inGroup (Token.renderAll (Token.pruneAll tokens)) =
        .ok (Token.pruneAll tokens) := by
  obtain ⟨hreads, hdepth⟩ := (tokenize_eq_ok_iff settings inGroup text tokens).mp h
  rw [hstrict] at hreads
  have hlegible := hreads.legibleAll
  have hnested := hreads.nestedAll
  refine ⟨tokenize_renderAll_eq_pruneAll settings inGroup tokens hlegible hnested hdepth, ?_⟩
  rw [tokenize_renderAll_eq_ok_iff settings inGroup _ (by rwa [Token.depthAll_pruneAll])]
  exact wellFormed_pruneAll inGroup tokens hlegible hnested

/-- Inside a group two colons in front of a type make an empty type name, which is lost at the
first round trip. -/
theorem strict_tokenize_renderAll_eq_pruneAll_colons :
    (true = true ∧ tokenize ⟨2, true⟩ false ['(', 'a', ':', ':', 'b', ',', ')', 'c'] =
      .ok [.bracketed .tuple [.identifier ['a'], .typeName [], .separator], .typeName ['c']]) ∧
      tokenize ⟨2, true⟩ false (Token.renderAll
          [.bracketed .tuple [.identifier ['a'], .typeName [], .separator], .typeName ['c']]) =
        .ok (Token.pruneAll
          [.bracketed .tuple [.identifier ['a'], .typeName [], .separator], .typeName ['c']]) ∧
      tokenize ⟨2, true⟩ false (Token.renderAll (Token.pruneAll
          [.bracketed .tuple [.identifier ['a'], .typeName [], .separator], .typeName ['c']])) =
        .ok (Token.pruneAll
          [.bracketed .tuple [.identifier ['a'], .typeName [], .separator], .typeName ['c']]) :=
  ⟨⟨rfl, by decide +kernel⟩, strict_tokenize_renderAll_eq_pruneAll ⟨2, true⟩ rfl false
    ['(', 'a', ':', ':', 'b', ',', ')', 'c'] _ (by decide +kernel)⟩

end LuauAnnotation
