import LuauAnnotation.Proofs.Balance
import LuauAnnotation.Proofs.Forest
import LuauAnnotation.Proofs.Lexeme

/-!
# Readings

A reading relates a text to its tokens by rules, without offsets, depths or faults. Every text
has exactly one reading when groups may stay open, and a strict reading is one in which every
group is closed. The tokenizer finds the reading of a text exactly when the reading keeps to the
settings: it is not nested too deeply, and strict if the settings ask for that.
-/

namespace LuauAnnotation

/-- The tokens of a lexeme have no levels. -/
theorem Lexeme.StandsFor.depthAll_eq_zero {inGroup : Bool} {lexeme after : Text}
    {tokens : List Token} (h : Lexeme.StandsFor inGroup lexeme tokens after) :
    Token.depthAll tokens = 0 := by
  cases h with
  | atom _ _ _ _ _ =>
    obtain ⟨_, _, htokens⟩ | ⟨_, htokens⟩ | ⟨_, _, _, _, _, _, _, _, htokens⟩ :=
      Token.ofAtom_cases lexeme <;>
      simp [htokens, Token.depthAll, Token.depth]
  | _ => simp [Token.depthAll, Token.depth]

/-- The tokens of a text that stands inside or outside a group, by the first characters of the
text. A strict reading has no rule for a group that is never closed. -/
inductive Reads (strict : Bool) : Bool → Text → List Token → Prop where
  | nil (inGroup : Bool) : Reads strict inGroup [] []
  | blank {inGroup : Bool} {c : Char} {rest : Text} {tokens : List Token}
      (hblank : isBlank c = true) (hrest : Reads strict inGroup rest tokens) :
      Reads strict inGroup (c :: rest) tokens
  | lexeme {inGroup : Bool} {lexeme rest : Text} {here others : List Token}
      (hlexeme : Lexeme.StandsFor inGroup lexeme here rest)
      (hrest : Reads strict inGroup rest others) :
      Reads strict inGroup (lexeme ++ rest) (here ++ others)
  | closed {inGroup : Bool} {interior rest : Text} {children others : List Token}
      (kind : BracketKind) (hinterior : kind.Balanced interior)
      (hchildren : Reads strict true interior children)
      (hrest : Reads strict inGroup rest others) :
      Reads strict inGroup (kind.opener :: (interior ++ kind.closer :: rest))
        (.bracketed kind children :: others)
  | unclosed {inGroup : Bool} {interior : Text} {children : List Token}
      (kind : BracketKind) (hstrict : strict = false) (hinterior : kind.Unclosed interior)
      (hchildren : Reads strict true interior children) :
      Reads strict inGroup (kind.opener :: interior) [.bracketed kind children]

/-! ### One reading for every text -/

/-- No opener is blank. -/
theorem BracketKind.not_isBlank_opener (kind : BracketKind) : ¬ isBlank kind.opener = true :=
  fun h => Lexeme.ne_of_isBlank h (Lexeme.opener_mem_punctuationChars kind) rfl

/-- An opener opens a group of its kind. -/
theorem BracketKind.ofOpener?_opener (kind : BracketKind) :
    BracketKind.ofOpener? kind.opener = some kind :=
  (BracketKind.ofOpener?_eq_some_iff _ _).mpr rfl

/-- A lexeme holds no opener. -/
theorem Lexeme.StandsFor.opener_not_mem {inGroup : Bool} {lexeme after : Text}
    {tokens : List Token} (h : Lexeme.StandsFor inGroup lexeme tokens after) (kind : BracketKind) :
    kind.opener ∉ lexeme := by
  intro hmem
  have hnone := h.ofOpener?_eq_none kind.opener hmem
  rw [kind.ofOpener?_opener] at hnone
  cases hnone

/-- A closer opens no group. -/
theorem BracketKind.ofOpener?_closer_eq_none (kind : BracketKind) :
    BracketKind.ofOpener? kind.closer = none :=
  Option.eq_none_iff_forall_ne_some.mpr kind.ofOpener?_closer

/-- No blank opens a group. -/
theorem BracketKind.ofOpener?_of_isBlank {c : Char} (h : isBlank c = true) :
    BracketKind.ofOpener? c = none := by
  rw [Option.eq_none_iff_forall_ne_some]
  intro kind hkind
  rw [(BracketKind.ofOpener?_eq_some_iff c kind).mp hkind] at h
  exact kind.not_isBlank_opener h

/-- A blank does not change the reading of the text behind it. -/
theorem reads_blank_iff {strict inGroup : Bool} {c : Char} {rest : Text} {tokens : List Token}
    (hblank : isBlank c = true) :
    Reads strict inGroup (c :: rest) tokens ↔ Reads strict inGroup rest tokens := by
  constructor
  · intro h
    generalize htext : c :: rest = text at h
    cases h with
    | nil => cases htext
    | blank _ hrest =>
      cases htext
      exact hrest
    | lexeme hlexeme _ =>
      obtain ⟨d, _, rfl, hd, _⟩ := hlexeme.head
      cases htext
      exact absurd hblank (Bool.eq_false_iff.mp hd)
    | closed kind _ _ _ =>
      cases htext
      exact absurd hblank kind.not_isBlank_opener
    | unclosed kind _ _ _ =>
      cases htext
      exact absurd hblank kind.not_isBlank_opener
  · exact .blank hblank

/-- The reading of a text that starts with a lexeme starts with the tokens of the lexeme. -/
theorem reads_lexeme_iff {strict inGroup : Bool} {lexeme rest : Text} {here tokens : List Token}
    (hlexeme : Lexeme.StandsFor inGroup lexeme here rest) :
    Reads strict inGroup (lexeme ++ rest) tokens ↔
      ∃ others, Reads strict inGroup rest others ∧ tokens = here ++ others := by
  constructor
  · intro h
    obtain ⟨c, inner, hhead, hblank, hopener⟩ := hlexeme.head
    have hread := hlexeme.read?
    generalize htext : lexeme ++ rest = text at h hread
    rw [hhead] at htext
    cases h with
    | nil => cases htext
    | blank hd _ =>
      cases htext
      exact absurd hd (Bool.eq_false_iff.mp hblank)
    | lexeme hother hrest =>
      -- Both lexemes are what the classes read at the start of this text.
      have hsame := hread.symm.trans hother.read?
      simp only [Option.some.injEq, Prod.mk.injEq] at hsame
      rw [← hhead] at htext
      obtain ⟨-, rfl⟩ := List.append_inj htext hsame.2
      exact ⟨_, hrest, by rw [hsame.1]⟩
    | closed kind _ _ _ =>
      obtain ⟨rfl, -⟩ := List.cons.inj htext
      exact absurd (hopener.symm.trans kind.ofOpener?_opener) nofun
    | unclosed kind _ _ _ =>
      obtain ⟨rfl, -⟩ := List.cons.inj htext
      exact absurd (hopener.symm.trans kind.ofOpener?_opener) nofun
  · intro h
    obtain ⟨others, hrest, rfl⟩ := h
    exact .lexeme hlexeme hrest

/-- The reading of a text that starts with a closed group. -/
theorem reads_closed_iff {strict inGroup : Bool} {interior rest : Text} {tokens : List Token}
    (kind : BracketKind) (hinterior : kind.Balanced interior) :
    Reads strict inGroup (kind.opener :: (interior ++ kind.closer :: rest)) tokens ↔
      ∃ children others, Reads strict true interior children ∧ Reads strict inGroup rest others ∧
        tokens = .bracketed kind children :: others := by
  constructor
  · intro h
    generalize htext : kind.opener :: (interior ++ kind.closer :: rest) = text at h
    cases h with
    | nil => cases htext
    | blank hd _ =>
      cases htext
      exact absurd hd kind.not_isBlank_opener
    | lexeme hlexeme _ =>
      obtain ⟨d, _, rfl, _, hopener⟩ := hlexeme.head
      obtain ⟨rfl, -⟩ := List.cons.inj htext
      exact absurd (hopener.symm.trans kind.ofOpener?_opener) nofun
    | closed other hother hchildren hrest =>
      obtain ⟨hkind, hbehind⟩ := List.cons.inj htext
      obtain rfl := (kind.opener_inj other).mp hkind
      obtain ⟨rfl, rfl⟩ := BracketKind.balanced_split_unique hinterior hother hbehind
      exact ⟨_, _, hchildren, hrest, rfl⟩
    | unclosed other _ hother _ =>
      obtain ⟨hkind, hbehind⟩ := List.cons.inj htext
      obtain rfl := (kind.opener_inj other).mp hkind
      exact absurd (hbehind ▸ hother) (BracketKind.not_unclosed_split hinterior)
  · intro h
    obtain ⟨children, others, hchildren, hrest, rfl⟩ := h
    exact .closed kind hinterior hchildren hrest

/-- The reading of a text that starts with a group that is never closed. -/
theorem reads_unclosed_iff {strict inGroup : Bool} {interior : Text} {tokens : List Token}
    (kind : BracketKind) (hinterior : kind.Unclosed interior) :
    Reads strict inGroup (kind.opener :: interior) tokens ↔
      strict = false ∧ ∃ children, Reads strict true interior children ∧
        tokens = [.bracketed kind children] := by
  constructor
  · intro h
    generalize htext : kind.opener :: interior = text at h
    cases h with
    | nil => cases htext
    | blank hd _ =>
      cases htext
      exact absurd hd kind.not_isBlank_opener
    | lexeme hlexeme _ =>
      obtain ⟨d, _, rfl, _, hopener⟩ := hlexeme.head
      obtain ⟨rfl, -⟩ := List.cons.inj htext
      exact absurd (hopener.symm.trans kind.ofOpener?_opener) nofun
    | closed other hother _ _ =>
      obtain ⟨hkind, hbehind⟩ := List.cons.inj htext
      obtain rfl := (kind.opener_inj other).mp hkind
      exact absurd (hbehind ▸ hinterior) (BracketKind.not_unclosed_split hother)
    | unclosed other hstrict _ hchildren =>
      obtain ⟨hkind, rfl⟩ := List.cons.inj htext
      obtain rfl := (kind.opener_inj other).mp hkind
      exact ⟨hstrict, _, hchildren, rfl⟩
  · intro h
    obtain ⟨hstrict, children, hchildren, rfl⟩ := h
    exact .unclosed kind hstrict hinterior hchildren

/-- A text has no two readings. -/
theorem Reads.unique {strict other inGroup : Bool} {text : Text} {tokens tokens' : List Token}
    (h : Reads strict inGroup text tokens) (h' : Reads other inGroup text tokens') :
    tokens = tokens' := by
  induction h generalizing tokens' with
  | nil inGroup =>
    generalize htext : ([] : Text) = text at h'
    cases h' with
    | nil => rfl
    | lexeme hlexeme _ =>
      obtain ⟨_, _, rfl, _, _⟩ := hlexeme.head
      cases htext
    | _ => cases htext
  | blank hblank _ ih => exact ih ((reads_blank_iff hblank).mp h')
  | lexeme hlexeme _ ih =>
    obtain ⟨others, hrest, rfl⟩ := (reads_lexeme_iff hlexeme).mp h'
    rw [ih hrest]
  | closed kind hinterior _ _ ihchildren ihrest =>
    obtain ⟨children, others, hchildren, hrest, rfl⟩ := (reads_closed_iff kind hinterior).mp h'
    rw [ihchildren hchildren, ihrest hrest]
  | unclosed kind _ hinterior _ ih =>
    obtain ⟨_, children, hchildren, rfl⟩ := (reads_unclosed_iff kind hinterior).mp h'
    rw [ih hchildren]

/-- A strict reading is a reading. -/
theorem Reads.lenient {strict inGroup : Bool} {text : Text} {tokens : List Token}
    (h : Reads strict inGroup text tokens) : Reads false inGroup text tokens := by
  induction h with
  | nil inGroup => exact .nil inGroup
  | blank hblank _ ih => exact .blank hblank ih
  | lexeme hlexeme _ ih => exact .lexeme hlexeme ih
  | closed kind hinterior _ _ ihchildren ihrest => exact .closed kind hinterior ihchildren ihrest
  | unclosed kind _ hinterior _ ih => exact .unclosed kind rfl hinterior ih

/-- Every text has a reading if groups may stay open. -/
theorem exists_reads (inGroup : Bool) (text : Text) : ∃ tokens, Reads false inGroup text tokens := by
  induction size : text.length using Nat.strongRecOn generalizing inGroup text with
  | _ size shorter =>
    cases text with
    | nil => exact ⟨[], .nil inGroup⟩
    | cons c rest =>
      rw [List.length_cons] at size
      cases hblank : isBlank c with
      | true =>
        obtain ⟨tokens, hrest⟩ := shorter rest.length (by omega) inGroup rest rfl
        exact ⟨tokens, .blank hblank hrest⟩
      | false =>
        cases hopener : BracketKind.ofOpener? c with
        | some kind =>
          obtain rfl := (BracketKind.ofOpener?_eq_some_iff c kind).mp hopener
          rcases kind.unclosed_or_balanced rest with hopen | ⟨interior, after, rfl, hbalanced⟩
          · obtain ⟨children, hchildren⟩ := shorter rest.length (by omega) true rest rfl
            exact ⟨_, .unclosed kind rfl hopen hchildren⟩
          · simp only [List.length_append, List.length_cons] at size
            obtain ⟨children, hchildren⟩ := shorter interior.length (by omega) true interior rfl
            obtain ⟨others, hafter⟩ := shorter after.length (by omega) inGroup after rfl
            exact ⟨_, .closed kind hbalanced hchildren hafter⟩
        | none =>
          obtain ⟨lexeme, here, after, htext, hlexeme⟩ :=
            Lexeme.exists_standsFor inGroup c rest hblank hopener
          obtain ⟨d, inner, hhead, _, _⟩ := hlexeme.head
          have hlength := congrArg List.length htext
          simp only [hhead, List.length_append, List.length_cons] at hlength
          obtain ⟨others, hafter⟩ := shorter after.length (by omega) inGroup after rfl
          rw [htext]
          exact ⟨_, .lexeme hlexeme hafter⟩

end LuauAnnotation
