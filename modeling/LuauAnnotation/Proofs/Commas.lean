import LuauAnnotation.Proofs.FirstFault
import LuauAnnotation.Proofs.Skeleton

/-!
# Commas outside groups

A text may be read as the inside of a group, where commas separate, or as a text of its own, where
they belong to atoms. Groups are read in the same way in both cases, so that the faults are the same,
and so are the tokens besides names and separators. If all commas stand inside groups, the two
readings do not differ at all.
-/

namespace LuauAnnotation

/-- A token that is neither a name nor a separator. -/
def Token.isStructural : Token → Bool
  | .separator | .identifier _ | .typeName _ => false
  | _ => true

/-! ### Commas that separate and commas that do not -/

section

variable {settings : Settings} {inGroup : Bool} {depth offset : Nat}

/-- An atom stands for names only. -/
theorem filter_isStructural_ofAtom (run : Text) :
    (Token.ofAtom run).filter Token.isStructural = [] := by
  obtain ⟨_, _, htokens⟩ | ⟨_, htokens⟩ | ⟨_, _, _, _, _, _, _, _, htokens⟩ :=
    Token.ofAtom_cases run <;>
    rw [htokens] <;> rfl

/-- Without names, characters of atoms can be left out. -/
theorem scan_atomChars_isStructural {run rest : Text}
    (hrun : ∀ c ∈ run, Lexeme.isAtomChar inGroup c = true) :
    (scan settings inGroup depth offset (run ++ rest)).map (·.filter Token.isStructural) =
      (scan settings inGroup depth (offset + Text.bytes run) rest).map
        (·.filter Token.isStructural) := by
  induction run generalizing offset with
  | nil => rfl
  | cons c run ih =>
    rw [List.forall_mem_cons] at hrun
    have hshown (atom : Text) (others : List Token) :
        (Token.ofAtom atom ++ others).filter Token.isStructural =
          others.filter Token.isStructural := by
      rw [List.filter_append, filter_isStructural_ofAtom, List.nil_append]
    rw [List.cons_append, scan_cons_atom hshown hrun.1, ih hrun.2, Text.bytes_cons, Nat.add_assoc]

/-- Inside and outside groups a text is read alike, besides names and separators. -/
theorem alike_scan_inGroup (text : Text) :
    Alike (fun separated joined =>
        separated.filter Token.isStructural = joined.filter Token.isStructural) Eq
      (scan settings true depth offset text) (scan settings false depth offset text) := by
  obtain ⟨reading, hreading⟩ := exists_reads true text
  generalize hgroup : true = inGroup at hreading
  induction hreading generalizing depth offset with
  | nil _ =>
    rw [scan_nil, scan_nil]
    exact .ok rfl
  | blank hblank _ ih =>
    rw [scan_blank hblank, scan_blank hblank]
    exact ih hgroup
  | @lexeme _ lexeme rest here _ hlexeme _ ih =>
    subst hgroup
    cases hlexeme with
    | separator _ _ =>
      -- Outside a group the comma continues an atom or starts one.
      have hcomma : ∀ c ∈ [','], Lexeme.isAtomChar false c = true :=
        List.forall_mem_singleton.mpr (by decide)
      apply Alike.of_map
      rw [scan_lexeme (.separator rest rfl), map_map, scan_atomChars_isStructural hcomma]
      exact (ih rfl).map fun _ _ hsame => hsame
    | arrow _ =>
      rw [scan_lexeme (.arrow rest), scan_lexeme (.arrow rest)]
      exact (ih rfl).map fun _ _ hsame => congrArg (Token.arrow :: ·) hsame
    | punctuation c _ hc hopener harrow =>
      rw [scan_lexeme (.punctuation c rest hc hopener harrow),
        scan_lexeme (.punctuation c rest hc hopener harrow)]
      apply (ih rfl).map
      intro others others' hsame
      rw [List.filter_append, List.filter_append, hsame]
    | atom _ _ _ hchars _ =>
      have hchars' : ∀ c ∈ lexeme, Lexeme.isAtomChar false c = true :=
        fun c hc => Lexeme.isAtomChar_lenient (hchars c hc)
      apply Alike.of_map
      rw [scan_atomChars_isStructural hchars, scan_atomChars_isStructural hchars']
      exact (ih rfl).map fun _ _ hsame => hsame
  | closed kind hinterior _ _ _ ih =>
    apply alike_scan_closed hinterior hinterior
    · rfl
    · apply alike_scan_moved
      intro _ _
      rfl
    · exact ih hgroup
    · intro children children' others others' hchildren hothers
      simp only [List.filter_cons, Token.isStructural, if_true, hchildren, hothers]
  | unclosed kind _ hinterior _ _ =>
    apply alike_scan_unclosed hinterior hinterior
    · rfl
    · apply alike_scan_moved
      intro _ _
      rfl
    · intro children children' hchildren
      rw [hchildren]

end

/-! ### Texts whose commas stand in groups -/

namespace Lexeme

/-- Only commas tell the inside of a group from the outside. -/
theorem isAtomChar_eq_of_ne {c : Char} (hc : c ≠ ',') (inGroup other : Bool) :
    isAtomChar inGroup c = isAtomChar other c := by
  have hnone (flag : Bool) : (flag && c == ',') = false := by simp [hc]
  rw [isAtomChar, isAtomChar, hnone inGroup, hnone other]

/-- A lexeme without commas and not in front of one is a lexeme inside and outside groups. -/
theorem StandsFor.of_not_mem {inGroup : Bool} {lexeme after : Text} {tokens : List Token}
    (h : StandsFor inGroup lexeme tokens after) (hlexeme : ',' ∉ lexeme)
    (hafter : after.head? ≠ some ',') (other : Bool) : StandsFor other lexeme tokens after := by
  cases h with
  | separator _ _ => exact absurd List.mem_cons_self hlexeme
  | arrow _ => exact .arrow after
  | punctuation c _ hc hopener harrow => exact .punctuation c after hc hopener harrow
  | atom _ _ hrun hchars hends =>
    apply StandsFor.atom lexeme after hrun
    · intro c hc
      have hne : c ≠ ',' := fun hcomma => hlexeme (hcomma ▸ hc)
      rw [isAtomChar_eq_of_ne hne other inGroup]
      exact hchars c hc
    · intro c hc
      have hne : c ≠ ',' := fun hcomma => hafter (hcomma ▸ hc)
      rw [isAtomChar_eq_of_ne hne other inGroup]
      exact hends c hc

end Lexeme

/-- Every comma of a text stands in the interior of a bracket. -/
def Text.CommasEnclosed (text : Text) : Prop :=
  ∀ i, text[i]? = some ',' → 0 < text.depthAt i

section

variable {whole front rest : Text}

/-- Outside all interiors there is no comma then. -/
theorem Text.Level.ne_comma {c : Char} (h : Text.Level whole front (c :: rest) 0)
    (hcommas : whole.CommasEnclosed) : c ≠ ',' := by
  rintro rfl
  obtain ⟨back, hback⟩ := h.isPrefix
  have hcomma : whole[front.length]? = some ',' := by
    rw [← hback]
    simp
  have hdepth := hcommas front.length hcomma
  rw [h.depthAt_eq] at hdepth
  exact absurd hdepth (Nat.lt_irrefl 0)

/-- A text whose commas stand in groups has the same reading inside and outside a group. -/
theorem Reads.of_commasEnclosed {strict inGroup : Bool} {text : Text} {tokens : List Token}
    (h : Reads strict inGroup text tokens) (hlevel : Text.Level whole front text 0)
    (hcommas : whole.CommasEnclosed) (other : Bool) : Reads strict other text tokens := by
  induction h generalizing front with
  | nil _ => exact .nil other
  | @blank _ c rest _ hblank _ ih =>
    have hplain : ∀ d ∈ [c], BracketKind.ofOpener? d = none := by
      simpa using BracketKind.ofOpener?_of_isBlank hblank
    have hpiece : Text.Level whole front ([c] ++ rest) 0 := hlevel
    exact .blank hblank (ih (hpiece.behind_plain hplain).2)
  | @lexeme _ lexeme rest _ _ hlexeme _ ih =>
    have hbehind := (hlevel.behind_plain hlexeme.ofOpener?_eq_none).2
    apply Reads.lexeme _ (ih hbehind)
    apply hlexeme.of_not_mem
    · intro hmem
      obtain ⟨inner, more, rfl⟩ := List.append_of_mem hmem
      rw [List.append_assoc, List.cons_append] at hlevel
      have hplain : ∀ c ∈ inner, BracketKind.ofOpener? c = none :=
        fun c hc => hlexeme.ofOpener?_eq_none c (List.mem_append_left _ hc)
      exact (hlevel.behind_plain hplain).2.ne_comma hcommas rfl
    · intro hhead
      obtain ⟨more, rfl⟩ := List.head?_eq_some_iff.mp hhead
      exact hbehind.ne_comma hcommas rfl
  | closed kind hinterior hchildren _ _ ih =>
    exact .closed kind hinterior hchildren (ih (hlevel.closed hinterior).2)
  | unclosed kind hstrict hinterior hchildren _ =>
    exact .unclosed kind hstrict hinterior hchildren

end

/-- Inside and outside a group a text has the same fault, if any, and otherwise the same tokens
besides names and separators. If all its commas stand in groups, it has the same tokens. -/
theorem tokenize_inGroup (settings : Settings) (text : Text) :
    Alike (fun separated joined =>
        separated.filter Token.isStructural = joined.filter Token.isStructural) Eq
      (tokenize settings true text) (tokenize settings false text) ∧
      (text.CommasEnclosed → tokenize settings true text = tokenize settings false text) := by
  refine ⟨alike_scan_inGroup text, fun hcommas => ?_⟩
  obtain ⟨reading, hreading⟩ := exists_reads true text
  have hlevel := Text.level_whole text
  have hjoined := hreading.of_commasEnclosed hlevel hcommas false
  exact (scan_eq_outcome hreading hlevel).trans (scan_eq_outcome hjoined hlevel).symm

/-- The commas of this text stand in groups, of which two are never closed, and the text is read in
a group as at the top level. -/
theorem tokenize_inGroup_unclosed :
    let text : Text := ['[', 'a', ',', '{', 'b', ',', ']', ':', '(', 'c', ',']
    Text.CommasEnclosed text ∧
      tokenize ⟨2, false⟩ true text = tokenize ⟨2, false⟩ false text ∧
      tokenize ⟨2, false⟩ true text =
        .ok [.bracketed .indexer
            [.typeName ['a'], .separator, .bracketed .table [.typeName ['b'], .separator]],
          .identifier [], .bracketed .tuple [.typeName ['c'], .separator]] := by
  intro text
  have hcommas : Text.CommasEnclosed text := by
    intro i hi
    have hlength := (List.getElem?_eq_some_iff.mp hi).1
    have hall : ∀ j < 11, text[j]? = some ',' → 0 < Text.depthAt text j := by decide
    exact hall i hlength hi
  exact ⟨hcommas, (tokenize_inGroup ⟨2, false⟩ text).2 hcommas, by decide +kernel⟩

end LuauAnnotation
