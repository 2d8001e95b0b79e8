import LuauAnnotation.Proofs.Legibility
import LuauAnnotation.Proofs.Tokenizing
import Mathlib.Data.Finset.Insert

/-!
# The grammar of brackets

The tokenizer cuts out each interior by counting brackets of one kind and then reads it on its
own. Nevertheless what strict settings accept is given by a context-free grammar over all kinds:
inside a pair of a kind a closer of that kind ends the pair, and a closer of a kind without a pair
around it may stand anywhere. The grammar sees brackets only, every word has at most one
derivation, and the derivation nests as the tokens do.
-/

namespace LuauAnnotation

/-- One bracket pair of a derivation, with the pairs between its brackets. -/
inductive Nesting where
  | pair (kind : BracketKind) (inner : List Nesting)

namespace Nesting

mutual

/-- The number of levels of a bracket pair. -/
def depth : Nesting → Nat
  | .pair _ inner => depthAll inner + 1

/-- The number of levels of successive bracket pairs. -/
def depthAll : List Nesting → Nat
  | [] => 0
  | first :: rest => max (depth first) (depthAll rest)

end

end Nesting

namespace Token

mutual

/-- The bracket pairs of a token. -/
def nesting : Token → List Nesting
  | .bracketed kind children => [.pair kind (nestingAll children)]
  | _ => []

/-- The bracket pairs of a token sequence. -/
def nestingAll : List Token → List Nesting
  | [] => []
  | token :: rest => nesting token ++ nestingAll rest

end

/-- The bracket pairs of both parts count. -/
theorem nestingAll_append (left right : List Token) :
    nestingAll (left ++ right) = nestingAll left ++ nestingAll right := by
  induction left with
  | nil => rfl
  | cons token rest ih => rw [List.cons_append, nestingAll, nestingAll, ih, List.append_assoc]

/-- The tokens have the levels of their bracket pairs. -/
theorem depthAll_nestingAll (tokens : List Token) :
    Nesting.depthAll (nestingAll tokens) = depthAll tokens := by
  induction tokens using forest_induction with
  | nil => simp [nestingAll, depthAll, Nesting.depthAll]
  | leaf token rest hleaf ih =>
    cases token with
    | bracketed kind children => cases hleaf
    | _ => simp [nestingAll, nesting, depthAll, depth, ih]
  | bracketed kind children rest ihchildren ihrest =>
    simp [nestingAll, nesting, depthAll, depth, Nesting.depthAll, Nesting.depth, ihchildren, ihrest]

end Token

/-- A bracket opens or closes a group. -/
def isBracket (c : Char) : Bool :=
  BracketKind.all.any fun kind => c == kind.opener || c == kind.closer

/-- The brackets of a text, with all other characters erased. -/
def brackets (text : Text) : Text := text.filter isBracket

/-- The words of brackets that may stand inside pairs of the given kinds, with the pairs that
they hold. -/
inductive Derives : Finset BracketKind → Text → List Nesting → Prop where
  | empty (around : Finset BracketKind) : Derives around [] []
  | pair {around : Finset BracketKind} {interior rest : Text} {inner others : List Nesting}
      (kind : BracketKind) (hinterior : Derives (insert kind around) interior inner)
      (hrest : Derives around rest others) :
      Derives around (kind.opener :: (interior ++ kind.closer :: rest))
        (.pair kind inner :: others)
  | stray {around : Finset BracketKind} {rest : Text} {others : List Nesting}
      (kind : BracketKind) (haround : kind ∉ around) (hrest : Derives around rest others) :
      Derives around (kind.closer :: rest) others

/-! ### Erasing other characters -/

/-- Openers are kept. -/
theorem isBracket_opener (kind : BracketKind) : isBracket kind.opener = true := by
  cases kind <;> decide

/-- Closers are kept. -/
theorem isBracket_closer (kind : BracketKind) : isBracket kind.closer = true := by
  cases kind <;> decide

/-- The brackets of both parts of a text are kept. -/
theorem brackets_append (left right : Text) :
    brackets (left ++ right) = brackets left ++ brackets right :=
  List.filter_append left right

/-- An opener is kept in front of the brackets behind it. -/
theorem brackets_opener (kind : BracketKind) (rest : Text) :
    brackets (kind.opener :: rest) = kind.opener :: brackets rest := by
  simp [brackets, isBracket_opener]

/-- The brackets of a closed group and the text behind it. -/
theorem brackets_group (kind : BracketKind) (interior rest : Text) :
    brackets (kind.opener :: (interior ++ kind.closer :: rest)) =
      kind.opener :: (brackets interior ++ kind.closer :: brackets rest) := by
  simp [brackets, isBracket_opener, isBracket_closer]

/-- A covered text stays covered when all but its brackets are erased. -/
theorem unclosed_brackets {kind : BracketKind} {text : Text} (h : kind.Unclosed text) :
    kind.Unclosed (brackets text) :=
  (covered_filter_iff (isBracket_opener kind) (isBracket_closer kind)).mpr h

/-- A balanced text stays balanced when all but its brackets are erased. -/
theorem balanced_brackets {kind : BracketKind} {text : Text} (h : kind.Balanced text) :
    kind.Balanced (brackets text) :=
  (BracketKind.balanced_filter_iff (isBracket_opener kind) (isBracket_closer kind)).mpr h

/-- Every bracket is a punctuation character. -/
theorem mem_punctuationChars_of_isBracket (c : Char) (h : isBracket c = true) :
    c ∈ Lexeme.punctuationChars := by
  simp only [isBracket, List.any_eq_true, Bool.or_eq_true, beq_iff_eq] at h
  obtain ⟨kind, _, rfl | rfl⟩ := h
  · exact Lexeme.opener_mem_punctuationChars kind
  · exact Lexeme.closer_mem_punctuationChars kind

/-- No blank is a bracket. -/
theorem brackets_blank {c : Char} (hblank : isBlank c = true) (rest : Text) :
    brackets (c :: rest) = brackets rest := by
  have hc : isBracket c = false := by
    by_contra h
    have hbracket := mem_punctuationChars_of_isBracket c (by simpa using h)
    exact Lexeme.ne_of_isBlank hblank hbracket rfl
  simp [brackets, hc]

/-- A lexeme stands for no bracket pair. It holds no bracket, or is a stray closer. -/
theorem Lexeme.StandsFor.brackets_cases {inGroup : Bool} {lexeme after : Text}
    {tokens : List Token} (h : Lexeme.StandsFor inGroup lexeme tokens after) :
    Token.nestingAll tokens = [] ∧
      ((brackets lexeme = [] ∧ ∀ kind, Token.straysAll kind tokens = 0) ∨
        ∃ kind : BracketKind, lexeme = [kind.closer] ∧ tokens = [.punctuation kind.closer]) := by
  cases h with
  | separator _ _ =>
    exact ⟨rfl, Or.inl ⟨by decide, fun kind => rfl⟩⟩
  | arrow => exact ⟨rfl, Or.inl ⟨by decide, fun kind => rfl⟩⟩
  | punctuation c _ hc hopener _ =>
    have hall : ∀ d ∈ punctuationChars, BracketKind.ofOpener? d = none →
        (brackets [d] = [] ∧
          ∀ kind ∈ BracketKind.all, Token.straysAll kind [Token.ofPunctuation d] = 0) ∨
        ∃ kind ∈ BracketKind.all,
          [d] = [kind.closer] ∧ [Token.ofPunctuation d] = [.punctuation kind.closer] :=
      List.all_iff_forall_prop.mp (by decide)
    refine ⟨?_, ?_⟩
    · unfold Token.ofPunctuation
      split <;> rfl
    · rcases hall c hc hopener with ⟨hnone, hstrays⟩ | ⟨kind, _, hkind⟩
      · exact Or.inl ⟨hnone, fun kind => hstrays kind (by cases kind <;> decide)⟩
      · exact Or.inr ⟨kind, hkind⟩
  | atom _ _ _ hchars _ =>
    have hnone : brackets lexeme = [] := by
      rw [brackets, List.filter_eq_nil_iff]
      intro c hc hbracket
      exact ((isAtomChar_iff inGroup c).mp (hchars c hc)).2.1
        (mem_punctuationChars_of_isBracket c hbracket)
    obtain ⟨_, _, htokens⟩ | ⟨_, htokens⟩ | ⟨_, _, _, _, _, _, _, _, htokens⟩ :=
      Token.ofAtom_cases lexeme
    all_goals
      rw [htokens]
      exact ⟨rfl, Or.inl ⟨hnone, fun kind => rfl⟩⟩

/-! ### Derivations -/

/-- Between pairs of some kinds, words are balanced in these kinds. -/
theorem Derives.balanced {around : Finset BracketKind} {word : Text} {pairs : List Nesting}
    (h : Derives around word pairs) {kind : BracketKind} (hkind : kind ∈ around) :
    kind.Balanced word := by
  induction h with
  | empty around => exact kind.balanced_of_not_mem [] (by simp) (by simp)
  | @pair around interior rest inner others other _ _ ihinterior ihrest =>
    have hpair := (ihinterior (Finset.mem_insert_of_mem hkind)).pair other
    have hword : other.opener :: (interior ++ other.closer :: rest) =
        (other.opener :: (interior ++ [other.closer])) ++ rest := by simp
    rw [hword]
    exact hpair.append (ihrest hkind)
  | @stray around rest others other haround _ ih =>
    have hcloser : kind.Balanced [other.closer] := by
      apply kind.balanced_of_not_mem
      · simpa using kind.opener_ne_closer other
      · rw [List.mem_singleton, kind.closer_inj other]
        intro hsame
        exact haround (hsame ▸ hkind)
    exact hcloser.append (ih hkind)

/-- The derivations of a word that starts with a pair around a balanced word. -/
theorem derives_pair_iff {around : Finset BracketKind} {interior rest : Text}
    {pairs : List Nesting} (kind : BracketKind) (hinterior : kind.Balanced interior) :
    Derives around (kind.opener :: (interior ++ kind.closer :: rest)) pairs ↔
      ∃ inner others, Derives (insert kind around) interior inner ∧ Derives around rest others ∧
        pairs = .pair kind inner :: others := by
  constructor
  · intro h
    generalize hword : kind.opener :: (interior ++ kind.closer :: rest) = word at h
    cases h with
    | empty => cases hword
    | pair other hother hrest =>
      obtain ⟨hkind, hbehind⟩ := List.cons.inj hword
      obtain rfl := (kind.opener_inj other).mp hkind
      obtain ⟨rfl, rfl⟩ := BracketKind.balanced_split_unique hinterior
        (hother.balanced (Finset.mem_insert_self kind around)) hbehind
      exact ⟨_, _, hother, hrest, rfl⟩
    | stray other _ _ => exact absurd (List.cons.inj hword).1 (kind.opener_ne_closer other)
  · intro h
    obtain ⟨inner, others, hinner, hothers, rfl⟩ := h
    exact .pair kind hinner hothers

/-- No word starts with an opener that is not closed in it. -/
theorem not_derives_unclosed {around : Finset BracketKind} {rest : Text} {pairs : List Nesting}
    (kind : BracketKind) (hrest : kind.Unclosed rest) :
    ¬ Derives around (kind.opener :: rest) pairs := by
  intro h
  generalize hword : kind.opener :: rest = word at h
  cases h with
  | empty => cases hword
  | pair other hother _ =>
    obtain ⟨hkind, rfl⟩ := List.cons.inj hword
    obtain rfl := (kind.opener_inj other).mp hkind
    exact BracketKind.not_unclosed_split
      (hother.balanced (Finset.mem_insert_self kind around)) hrest
  | stray other _ _ => exact absurd (List.cons.inj hword).1 (kind.opener_ne_closer other)

/-- A word starts with a closer only if no pair of its kind stands around it. -/
theorem derives_stray_iff {around : Finset BracketKind} {rest : Text} {pairs : List Nesting}
    (kind : BracketKind) :
    Derives around (kind.closer :: rest) pairs ↔ kind ∉ around ∧ Derives around rest pairs := by
  constructor
  · intro h
    generalize hword : kind.closer :: rest = word at h
    cases h with
    | empty => cases hword
    | pair other _ _ => exact absurd (List.cons.inj hword).1.symm (other.opener_ne_closer kind)
    | stray other haround hrest =>
      obtain ⟨hkind, rfl⟩ := List.cons.inj hword
      obtain rfl := (kind.closer_inj other).mp hkind
      exact ⟨haround, hrest⟩
  · intro h
    exact .stray kind h.1 h.2

/-- The only derivation of the empty word has no pairs. -/
theorem derives_nil_iff {around : Finset BracketKind} {pairs : List Nesting} :
    Derives around [] pairs ↔ pairs = [] := by
  constructor
  · intro h
    cases h with
    | empty => rfl
  · intro h
    rw [h]
    exact .empty around

/-- The brackets of a text have a derivation between pairs of some kinds exactly if the text has
a strict reading without stray closers of these kinds, and then the pairs of the derivation are
those of the reading. -/
theorem derives_brackets_iff {inGroup : Bool} {text : Text} {tokens : List Token}
    (h : Reads false inGroup text tokens) (around : Finset BracketKind) (pairs : List Nesting) :
    Derives around (brackets text) pairs ↔
      Reads true inGroup text tokens ∧ pairs = Token.nestingAll tokens ∧
        ∀ kind ∈ around, Token.straysAll kind tokens = 0 := by
  induction h generalizing around pairs with
  | nil inGroup =>
    have hempty : brackets [] = [] := rfl
    rw [hempty, derives_nil_iff]
    constructor
    · intro hpairs
      exact ⟨.nil inGroup, hpairs, fun kind _ => rfl⟩
    · intro hread
      exact hread.2.1
  | blank hblank _ ih => rw [brackets_blank hblank, ih, reads_blank_iff hblank]
  | @lexeme inGroup lexeme rest here others hlexeme _ ih =>
    have hreads : Reads true inGroup (lexeme ++ rest) (here ++ others) ↔
        Reads true inGroup rest others := by
      rw [reads_lexeme_iff hlexeme]
      constructor
      · intro hread
        obtain ⟨others', hrest, hsame⟩ := hread
        exact List.append_cancel_left hsame ▸ hrest
      · intro hrest
        exact ⟨others, hrest, rfl⟩
    obtain ⟨hpairs, ⟨hnone, hstrays⟩ | ⟨kind, rfl, rfl⟩⟩ := hlexeme.brackets_cases
    · rw [brackets_append, hnone, List.nil_append, ih, hreads, Token.nestingAll_append, hpairs,
        List.nil_append]
      simp only [Token.straysAll_append, hstrays, Nat.zero_add]
    · have hcloser : brackets [kind.closer] = [kind.closer] := by
        simp [brackets, isBracket_closer]
      rw [brackets_append, hcloser, List.singleton_append, derives_stray_iff, ih, hreads,
        Token.nestingAll_append, hpairs, List.nil_append]
      have hstrays (other : BracketKind) :
          Token.straysAll other ([.punctuation kind.closer] ++ others) = 0 ↔
            other ≠ kind ∧ Token.straysAll other others = 0 := by
        rw [Token.straysAll_append]
        by_cases hother : other = kind
        · simp [hother, Token.straysAll, Token.strays]
        · simp [hother, Token.straysAll, Token.strays, kind.closer_inj other, Ne.symm hother]
      simp only [hstrays]
      constructor
      · intro hread
        obtain ⟨haround, hrest, hsame, hothers⟩ := hread
        exact ⟨hrest, hsame, fun other hother => ⟨fun hkind => haround (hkind ▸ hother),
          hothers other hother⟩⟩
      · intro hread
        obtain ⟨hrest, hsame, hothers⟩ := hread
        exact ⟨fun haround => (hothers kind haround).1 rfl, hrest, hsame,
          fun other hother => (hothers other hother).2⟩
  | @closed inGroup interior rest children others kind hinterior _ _ ihchildren ihrest =>
    rw [brackets_group, derives_pair_iff kind (balanced_brackets hinterior)]
    constructor
    · intro hpair
      obtain ⟨inner, pairs', hinner, hrest, rfl⟩ := hpair
      obtain ⟨hchildren, rfl, hstrays⟩ := (ihchildren _ _).mp hinner
      obtain ⟨hothers, rfl, hstrays'⟩ := (ihrest _ _).mp hrest
      refine ⟨.closed kind hinterior hchildren hothers, rfl, fun other hother => ?_⟩
      rw [Token.straysAll, Token.strays, hstrays other (Finset.mem_insert_of_mem hother),
        hstrays' other hother]
    · intro hread
      obtain ⟨hclosed, rfl, hstrays⟩ := hread
      -- The children hold no stray closer of the kind of their own pair.
      have hnested := hclosed.nestedAll.1.1
      obtain ⟨children', others', hchildren, hothers, hsame⟩ :=
        (reads_closed_iff kind hinterior).mp hclosed
      cases hsame
      have hparts (other : BracketKind) (hother : other ∈ around) :
          Token.straysAll other children = 0 ∧ Token.straysAll other others = 0 := by
        have hwhole := hstrays other hother
        rw [Token.straysAll, Token.strays, Nat.add_eq_zero_iff] at hwhole
        exact hwhole
      refine ⟨_, _, (ihchildren _ _).mpr ⟨hchildren, rfl, fun other hother => ?_⟩,
        (ihrest _ _).mpr ⟨hothers, rfl, fun other hother => (hparts other hother).2⟩, rfl⟩
      rcases Finset.mem_insert.mp hother with rfl | hother
      · exact hnested
      · exact (hparts other hother).1
  | @unclosed inGroup interior children kind _ hinterior _ _ =>
    rw [brackets_opener, reads_unclosed_iff kind hinterior]
    constructor
    · intro hderives
      exact absurd hderives (not_derives_unclosed kind (unclosed_brackets hinterior))
    · intro hread
      exact absurd hread.1.1 (by decide)

/-- Strict settings accept a text exactly if its brackets have a derivation that nests no deeper
than they allow, and the derivation then has the pairs of the tokens. -/
theorem strict_tokenize_ok_iff_derives (settings : Settings) (hstrict : settings.strict = true)
    (inGroup : Bool) (text : Text) :
    ((∃ tokens, tokenize settings inGroup text = .ok tokens) ↔
        ∃ pairs, Derives ∅ (brackets text) pairs ∧
          Nesting.depthAll pairs ≤ settings.maxDepth.toNat) ∧
      ∀ tokens, tokenize settings inGroup text = .ok tokens →
        ∀ pairs, Derives ∅ (brackets text) pairs ↔ pairs = Token.nestingAll tokens := by
  obtain ⟨reading, hreading⟩ := exists_reads inGroup text
  have hderives (pairs : List Nesting) : Derives ∅ (brackets text) pairs ↔
      Reads true inGroup text reading ∧ pairs = Token.nestingAll reading := by
    rw [derives_brackets_iff hreading]
    simp
  have haccepts (tokens : List Token) : tokenize settings inGroup text = .ok tokens ↔
      Reads true inGroup text tokens ∧ Token.depthAll tokens ≤ settings.maxDepth.toNat := by
    rw [tokenize_eq_ok_iff, hstrict]
  refine ⟨?_, ?_⟩
  · constructor
    · intro h
      obtain ⟨tokens, htokens⟩ := h
      obtain ⟨hreads, hdepth⟩ := (haccepts tokens).mp htokens
      obtain rfl := hreads.unique hreading
      exact ⟨_, (hderives _).mpr ⟨hreads, rfl⟩, by rwa [Token.depthAll_nestingAll]⟩
    · intro h
      obtain ⟨pairs, hpairs, hdepth⟩ := h
      obtain ⟨hreads, rfl⟩ := (hderives pairs).mp hpairs
      rw [Token.depthAll_nestingAll] at hdepth
      exact ⟨reading, (haccepts reading).mpr ⟨hreads, hdepth⟩⟩
  · intro tokens htokens pairs
    obtain ⟨hreads, _⟩ := (haccepts tokens).mp htokens
    obtain rfl := hreads.unique hreading
    rw [hderives, and_iff_right hreads]

/-- A closer of a kind without a pair around it may stand inside another pair. -/
theorem strict_tokenize_ok_iff_derives_stray :
    true = true ∧
      ((∃ tokens, tokenize ⟨1, true⟩ false ['(', '}', ')'] = .ok tokens) ↔
        ∃ pairs, Derives ∅ (brackets ['(', '}', ')']) pairs ∧ Nesting.depthAll pairs ≤ 1) ∧
      ∀ tokens, tokenize ⟨1, true⟩ false ['(', '}', ')'] = .ok tokens →
        ∀ pairs, Derives ∅ (brackets ['(', '}', ')']) pairs ↔ pairs = Token.nestingAll tokens :=
  ⟨rfl, strict_tokenize_ok_iff_derives ⟨1, true⟩ rfl false ['(', '}', ')']⟩

end LuauAnnotation
