import LuauAnnotation.Proofs.Grammar
import LuauAnnotation.Proofs.Rereading
import LuauAnnotation.Proofs.Survival

/-!
# Repeated round trips

A group that its text leaves open is cut off by the closer of a group around it. The text form then
has a closer in front of that place, so on the next reading the place is passed without a cut, and
the groups that ended there are no longer open. Cuts further on may be new ones. What goes down with
each round trip is therefore counted at the first cut: the openers behind it, twice, and the groups
open in front of it. Once there is no cut, only empty type names are still to be lost.
-/

namespace LuauAnnotation

namespace BracketKind

/-- The kind of group that a character closes. -/
def ofCloser? : Char → Option BracketKind
  | ')' => some .tuple
  | ']' => some .indexer
  | '}' => some .table
  | _ => none

/-- A closer closes a group of its kind. -/
theorem ofCloser?_closer (kind : BracketKind) : ofCloser? kind.closer = some kind := by
  cases kind <;> rfl

end BracketKind

/-- What is not settled yet of a text, given the kinds of the open groups from the innermost out.
The text is settled up to the first closer that cuts a group off, or to its end. From there twice
the openers count, and the groups that are open. -/
def unsettled : List BracketKind → Text → Nat
  | around, [] => around.length
  | around, c :: rest =>
    match BracketKind.ofOpener? c, BracketKind.ofCloser? c with
    | some kind, _ => unsettled (kind :: around) rest
    | none, some kind =>
      if around.head? = some kind then unsettled around.tail rest
      else if kind ∈ around then 2 * (Text.openers rest).length + around.length
      else unsettled around rest
    | none, none => unsettled around rest

section

variable {around : List BracketKind} {rest : Text} (kind : BracketKind)

/-- An opener opens one more group. -/
theorem unsettled_opener :
    unsettled around (kind.opener :: rest) = unsettled (kind :: around) rest := by
  rw [unsettled, kind.ofOpener?_opener]

/-- A closer closes the innermost group if that is of its kind. -/
theorem unsettled_closer_head :
    unsettled (kind :: around) (kind.closer :: rest) = unsettled around rest := by
  simp [unsettled, kind.ofOpener?_closer_eq_none, kind.ofCloser?_closer]

/-- A closer of a group further out cuts off those inside it. -/
theorem unsettled_closer_cut (hhead : around.head? ≠ some kind) (hkind : kind ∈ around) :
    unsettled around (kind.closer :: rest) = 2 * rest.openers.length + around.length := by
  simp [unsettled, kind.ofOpener?_closer_eq_none, kind.ofCloser?_closer, hhead, hkind]

/-- A closer without an open group of its kind does nothing. -/
theorem unsettled_closer_stray (hkind : kind ∉ around) :
    unsettled around (kind.closer :: rest) = unsettled around rest := by
  have hhead : around.head? ≠ some kind := fun hhead => hkind (List.mem_of_head? hhead)
  simp [unsettled, kind.ofOpener?_closer_eq_none, kind.ofCloser?_closer, hhead, hkind]

end

/-- The closers of the innermost groups close them. -/
theorem unsettled_closers (pending around : List BracketKind) (rest : Text) :
    unsettled (pending ++ around) (pending.map BracketKind.closer ++ rest) =
      unsettled around rest := by
  induction pending with
  | nil => rfl
  | cons kind pending ih =>
    rw [List.map_cons, List.cons_append, List.cons_append, unsettled_closer_head, ih]

/-- No more is unsettled than the openers of the text and the open groups account for. -/
theorem unsettled_le (around : List BracketKind) (text : Text) :
    unsettled around text ≤ 2 * text.openers.length + around.length := by
  induction text generalizing around with
  | nil => simp [unsettled]
  | cons c rest ih =>
    simp only [Text.openers] at ih
    simp only [unsettled, Text.openers, List.filterMap_cons]
    cases BracketKind.ofOpener? c with
    | some kind =>
      have hrest := ih (kind :: around)
      simp only [List.length_cons] at hrest ⊢
      omega
    | none =>
      cases BracketKind.ofCloser? c with
      | none => exact ih around
      | some kind =>
        have htail := ih around.tail
        have hrest := ih around
        simp only [List.length_tail] at htail hrest ⊢
        split
        · omega
        · split <;> omega

/-! ### Brackets of a text and of its text form -/

/-- How the brackets of a text form follow from those of the text, between groups of the given
kinds, innermost first. -/
inductive Mends (around : List BracketKind) (word form : Text) : Prop where
  /-- Nothing is cut off. The form closes the groups that the word leaves open, and does no more. -/
  | closing (pending : List BracketKind) (hform : form = word ++ pending.map BracketKind.closer)
      (hcount : ∀ kind ∈ around,
        word.count kind.opener = word.count kind.closer + pending.count kind)
      (hsettled : ∀ later, unsettled around (word ++ later) = unsettled (pending ++ around) later)
  /-- A group of the word is cut off, and less of the form is unsettled, however the two go on. -/
  | cut (hless : ∀ later later' : Text, later'.openers = later.openers →
      unsettled around (form ++ later') < unsettled around (word ++ later))

namespace Mends

variable {around : List BracketKind}

/-- Where there is no bracket, nothing is to be mended. -/
theorem nil (around : List BracketKind) : Mends around [] [] :=
  .closing [] rfl (fun _ _ => rfl) fun _ => rfl

/-- A closer without a group of its kind around it stays where it is. -/
theorem stray {kind : BracketKind} {word form : Text} (hkind : kind ∉ around)
    (h : Mends around word form) : Mends around (kind.closer :: word) (kind.closer :: form) := by
  cases h with
  | closing pending hform hcount hsettled =>
    refine .closing pending (by rw [hform, List.cons_append]) (fun other hother => ?_)
      fun later => ?_
    · have hne : kind.closer ≠ other.closer := fun hsame =>
        hkind ((kind.closer_inj other).mp hsame ▸ hother)
      rw [List.count_cons_of_ne (other.opener_ne_closer kind).symm, List.count_cons_of_ne hne]
      exact hcount other hother
    · rw [List.cons_append, unsettled_closer_stray kind hkind, hsettled]
  | cut hless =>
    refine .cut fun later later' hopeners => ?_
    rw [List.cons_append, List.cons_append, unsettled_closer_stray kind hkind,
      unsettled_closer_stray kind hkind]
    exact hless later later' hopeners

/-- A group that is never closed gets its closer behind all that it holds. -/
theorem unclosed {kind : BracketKind} {inner inner' : Text}
    (h : Mends (kind :: around) inner inner') :
    Mends around (kind.opener :: inner) (kind.opener :: (inner' ++ [kind.closer])) := by
  cases h with
  | closing pending hform hcount hsettled =>
    refine .closing (pending ++ [kind]) (by simp [hform]) (fun other hother => ?_) fun later => ?_
    · have hinner := hcount other (List.mem_cons_of_mem _ hother)
      have hkind : [kind.opener].count other.opener =
          [kind.opener].count other.closer + [kind].count other := by
        cases kind <;> cases other <;> decide
      rw [count_open other.opener, count_open other.closer, List.count_append, hinner, hkind]
      omega
    · rw [List.cons_append, unsettled_opener, hsettled, List.append_assoc, List.singleton_append]
  | cut hless =>
    refine .cut fun later later' hopeners => ?_
    rw [List.cons_append, List.cons_append, unsettled_opener, unsettled_opener, List.append_assoc]
    exact hless later _ (by simpa using hopeners)

/-- A closed group whose interior leaves no group open is followed by the text behind it. -/
theorem group {kind : BracketKind} {inner rest rest' : Text}
    (hcount : ∀ other ∈ kind :: around, inner.count other.opener = inner.count other.closer)
    (hsettled : ∀ later, unsettled (kind :: around) (inner ++ later) =
      unsettled (kind :: around) later) (hrest : Mends around rest rest') :
    Mends around (kind.opener :: (inner ++ kind.closer :: rest))
      (kind.opener :: (inner ++ kind.closer :: rest')) := by
  have hpass (later : Text) : unsettled around (kind.opener :: (inner ++ kind.closer :: later)) =
      unsettled around later := by
    rw [unsettled_opener, hsettled, unsettled_closer_head]
  cases hrest with
  | closing pending hform hcount' hsettled' =>
    refine .closing pending (by simp [hform]) (fun other hother => ?_) fun later => ?_
    · have hpair := kind.count_pair other
      rw [count_group, count_group, hcount other (List.mem_cons_of_mem _ hother),
        hcount' other hother]
      omega
    · rw [List.cons_append, List.append_assoc, List.cons_append, hpass, hsettled']
  | cut hless =>
    refine .cut fun later later' hopeners => ?_
    rw [List.cons_append, List.append_assoc, List.cons_append, hpass, List.cons_append,
      List.append_assoc, List.cons_append, hpass]
    exact hless later later' hopeners

/-- A closed group whose interior leaves groups open cuts these off at its closer. -/
theorem group_cut {kind : BracketKind} {pending : List BracketKind} {inner rest rest' : Text}
    (hpending : pending ≠ []) (hkind : kind ∉ pending)
    (hsettled : ∀ later, unsettled (kind :: around) (inner ++ later) =
      unsettled (pending ++ kind :: around) later) (hopeners : rest'.openers = rest.openers) :
    Mends around (kind.opener :: (inner ++ kind.closer :: rest))
      (kind.opener :: (inner ++ pending.map BracketKind.closer ++ kind.closer :: rest')) := by
  refine .cut fun later later' hlater => ?_
  have hhead : (pending ++ kind :: around).head? ≠ some kind := by
    cases pending with
    | nil => exact absurd rfl hpending
    | cons other pending =>
      rw [List.cons_append, List.head?_cons, ne_eq, Option.some.injEq]
      exact fun hsame => hkind (hsame ▸ List.mem_cons_self)
  have hword : unsettled around (kind.opener :: (inner ++ kind.closer :: rest) ++ later) =
      2 * (rest ++ later).openers.length + (pending ++ kind :: around).length := by
    rw [List.cons_append, List.append_assoc, List.cons_append, unsettled_opener, hsettled,
      unsettled_closer_cut kind hhead (by simp)]
  have hform : unsettled around (kind.opener ::
      (inner ++ pending.map BracketKind.closer ++ kind.closer :: rest') ++ later') =
      unsettled around (rest' ++ later') := by
    rw [List.cons_append, List.append_assoc, List.append_assoc, List.cons_append, unsettled_opener,
      hsettled, unsettled_closers, unsettled_closer_head]
  have hbound := unsettled_le around (rest' ++ later')
  rw [hword, hform]
  simp only [Text.openers_append, hopeners, hlater, List.length_append, List.length_cons] at hbound ⊢
  omega

end Mends

/-! ### Readings -/

namespace Token

/-- Behind another token a sequence is written with the same brackets. -/
theorem brackets_renderRest (tokens : List Token) :
    brackets (renderRest tokens) = brackets (renderAll tokens) := by
  rcases renderRest_cases tokens with h | h
  · rw [h]
  · rw [h, brackets_blank (by decide)]

/-- The brackets of the text form are those of the first token and of the others. -/
theorem brackets_renderAll_cons (token : Token) (rest : List Token) :
    brackets (renderAll (token :: rest)) = brackets (render token) ++ brackets (renderAll rest) := by
  rw [renderAll, ← brackets_renderRest rest]
  exact List.filter_append _ _

/-- The brackets of the text form are those of both parts of a sequence. -/
theorem brackets_renderAll_append (left right : List Token) :
    brackets (renderAll (left ++ right)) =
      brackets (renderAll left) ++ brackets (renderAll right) := by
  induction left with
  | nil => rfl
  | cons token rest ih =>
    rw [List.cons_append, brackets_renderAll_cons, brackets_renderAll_cons, ih, List.append_assoc]

/-- A bracket token is written with its own two brackets around those of its children. -/
theorem brackets_renderAll_bracketed (kind : BracketKind) (children rest : List Token) :
    brackets (renderAll (.bracketed kind children :: rest)) =
      kind.opener :: (brackets (renderAll children) ++ kind.closer :: brackets (renderAll rest)) := by
  rw [← brackets_group, renderAll, render, brackets_append, brackets_renderRest, ← brackets_append,
    List.cons_append, List.cons_append, List.append_assoc, List.singleton_append]

end Token

/-- Among its brackets a text has the same openers. -/
theorem openers_brackets (text : Text) : (brackets text).openers = text.openers := by
  rw [brackets, Text.openers, List.filterMap_filter, Text.openers]
  refine List.filterMap_congr fun c _ => ?_
  split
  case isTrue => rfl
  case isFalse hbracket =>
    rw [eq_comm, Option.eq_none_iff_forall_ne_some]
    intro kind hkind
    rw [BracketKind.ofOpener?_eq_some_iff] at hkind
    exact hbracket (hkind ▸ isBracket_opener kind)

/-- The tokens of a lexeme without brackets are written without brackets. -/
theorem Lexeme.StandsFor.brackets_renderAll {inGroup : Bool} {lexeme after : Text}
    {tokens : List Token} (h : Lexeme.StandsFor inGroup lexeme tokens after)
    (hnone : brackets lexeme = []) : brackets (Token.renderAll tokens) = [] := by
  rw [brackets, List.filter_eq_nil_iff] at hnone ⊢
  intro c hc hbracket
  have hcount := h.count_renderAll c (mem_punctuationChars_of_isBracket c hbracket)
  have hmem : 0 < lexeme.count c := hcount ▸ List.count_pos_iff.mpr hc
  exact hnone c (List.count_pos_iff.mp hmem) hbracket

/-- Inside a group no more than outside are the groups around it closed. -/
theorem unclosed_interior {kind : BracketKind} {around : List BracketKind} {interior more : Text}
    (hinterior : kind.Unclosed interior)
    (hcovered : ∀ other ∈ around, other.Unclosed (kind.opener :: (interior ++ more))) :
    ∀ other ∈ kind :: around, other.Unclosed interior := by
  intro other hother
  by_cases hkind : other = kind
  · exact hkind ▸ hinterior
  · have hne : kind.opener ≠ other.opener := fun hsame =>
      hkind ((kind.opener_inj other).mp hsame).symm
    have hwhole := hcovered other ((List.mem_cons.mp hother).resolve_left hkind)
    exact ((covered_cons_other _ hne (kind.opener_ne_closer other)).mp hwhole).left

/-- Behind a group that leaves nothing of a kind open no more is closed than in front of it. -/
theorem unclosed_behind {kind other : BracketKind} {interior rest : Text}
    (hinterior : interior.count other.opener = interior.count other.closer)
    (hcovered : other.Unclosed (kind.opener :: (interior ++ kind.closer :: rest))) :
    other.Unclosed rest := by
  have htext : kind.opener :: (interior ++ kind.closer :: rest) =
      kind.opener :: (interior ++ kind.closer :: []) ++ rest := by simp
  rw [htext] at hcovered
  have hpair := kind.count_pair other
  have hbehind := hcovered.right
  rw [count_group, count_group, List.count_nil, List.count_nil] at hbehind
  exact hbehind.mono (by omega)

/-- The text form of a reading mends the brackets of the text, where the text closes no group that
is open around it. -/
theorem Reads.mends {strict inGroup : Bool} {text : Text} {tokens : List Token}
    (h : Reads strict inGroup text tokens) (around : List BracketKind)
    (hcovered : ∀ kind ∈ around, kind.Unclosed text) :
    Mends around (brackets text) (brackets (Token.renderAll tokens)) := by
  induction h generalizing around with
  | nil => exact .nil around
  | @blank _ c rest _ hblank _ ih =>
    rw [brackets_blank hblank]
    refine ih around fun kind hkind => ?_
    have hopener := Lexeme.ne_of_isBlank hblank (Lexeme.opener_mem_punctuationChars kind)
    have hcloser := Lexeme.ne_of_isBlank hblank (Lexeme.closer_mem_punctuationChars kind)
    exact (covered_cons_other c hopener hcloser).mp (hcovered kind hkind)
  | @lexeme _ lexeme rest _ _ hlexeme _ ih =>
    have hrest : ∀ kind ∈ around, kind.Unclosed rest := by
      intro kind hkind
      have hbehind := (hcovered kind hkind).right
      rwa [List.count_eq_zero.mpr (hlexeme.opener_not_mem kind), Nat.add_zero, Nat.zero_sub]
        at hbehind
    rw [brackets_append, Token.brackets_renderAll_append]
    obtain ⟨-, ⟨hnone, -⟩ | ⟨kind, rfl, rfl⟩⟩ := hlexeme.brackets_cases
    · rw [hnone, hlexeme.brackets_renderAll hnone]
      exact ih around hrest
    · have hkind : kind ∉ around := fun hkind =>
        not_covered_cons_closer (kind.opener_ne_closer kind) (hcovered kind hkind)
      have hcloser : brackets [kind.closer] = [kind.closer] := by
        simp [brackets, isBracket_closer]
      have hform : Token.renderAll [.punctuation kind.closer] = [kind.closer] := rfl
      rw [hform, hcloser]
      exact (ih around hrest).stray hkind
  | @closed _ interior rest children others kind hinterior _ hrest ihchildren ihrest =>
    have hopeners : (brackets (Token.renderAll others)).openers = (brackets rest).openers := by
      rw [openers_brackets, openers_brackets, ← hrest.kindsAll_eq,
        Token.openers_renderAll _ _ hrest.legibleAll]
    rw [brackets_group, Token.brackets_renderAll_bracketed]
    cases ihchildren (kind :: around) (unclosed_interior hinterior.covered hcovered) with
    | closing pending hform hcount hsettled =>
      rw [hform]
      by_cases hpending : pending = []
      · subst hpending
        rw [List.map_nil, List.append_nil]
        refine .group hcount hsettled (ihrest around fun other hother => ?_)
        have hinner := hcount other (List.mem_cons_of_mem _ hother)
        rw [brackets, List.count_filter (isBracket_opener other),
          List.count_filter (isBracket_closer other), List.count_nil, Nat.add_zero] at hinner
        exact unclosed_behind hinner (hcovered other hother)
      · refine .group_cut hpending (fun hkind => ?_) hsettled hopeners
        have hinner := hcount kind List.mem_cons_self
        have hbalanced := (balanced_brackets hinterior).count_eq
        have hsome : 0 < pending.count kind := List.count_pos_iff.mpr hkind
        omega
    | cut hless =>
      refine .cut fun later later' hlater => ?_
      rw [List.cons_append, List.cons_append, List.append_assoc, List.append_assoc,
        unsettled_opener, unsettled_opener]
      exact hless _ _ (by simp [hopeners, hlater])
  | @unclosed _ interior children kind _ hinterior _ ih =>
    rw [← List.append_nil interior] at hcovered
    rw [brackets_opener, Token.brackets_renderAll_bracketed]
    exact (ih (kind :: around) (unclosed_interior hinterior hcovered)).unclosed

/-- A reading is strict, or less of its text form is unsettled than of the text. -/
theorem Reads.strict_or_unsettled_lt {strict inGroup : Bool} {text : Text} {tokens : List Token}
    (h : Reads strict inGroup text tokens) :
    Reads true inGroup text tokens ∨
      unsettled [] (brackets (Token.renderAll tokens)) < unsettled [] (brackets text) := by
  cases h.mends [] (fun _ hkind => absurd hkind List.not_mem_nil) with
  | closing pending hform hcount hsettled =>
    by_cases hpending : pending = []
    · refine Or.inl (h.strict_of_count_le fun kind => ?_)
      rw [hpending, List.map_nil, List.append_nil] at hform
      have hcloser := isBracket_closer kind
      rw [← List.count_filter hcloser, ← List.count_filter hcloser (l := text)]
      exact (congrArg (List.count kind.closer) hform).le
    · -- The form closes at its end what the text leaves open there.
      have hword : unsettled [] (brackets text) = pending.length := by
        have hend := hsettled []
        rwa [List.append_nil, List.append_nil, unsettled] at hend
      have hnone : unsettled [] (brackets (Token.renderAll tokens)) = 0 := by
        have hclosers := unsettled_closers pending [] []
        rw [List.append_nil (List.map _ _)] at hclosers
        rw [hform, hsettled, hclosers, unsettled, List.length_nil]
      have hsome := List.length_pos_iff.mpr hpending
      exact Or.inr (by omega)
  | cut hless =>
    have hform := hless [] [] rfl
    rw [List.append_nil, List.append_nil] at hform
    exact Or.inr hform

/-! ### Round trips -/

/-- The tokens of a text after some round trips: they are written, and their text form is read. -/
def roundTrips (settings : Settings) (inGroup : Bool) (text : Text) :
    Nat → Except Fault (List Token)
  | 0 => tokenize settings inGroup text
  | n + 1 => do
    let tokens ← roundTrips settings inGroup text n
    tokenize settings inGroup (Token.renderAll tokens)

/-- One more round trip writes and reads the tokens that came back from the others. -/
theorem roundTrips_succ {settings : Settings} {inGroup : Bool} {text : Text} {n : Nat}
    {tokens : List Token} (h : roundTrips settings inGroup text n = .ok tokens) :
    roundTrips settings inGroup text (n + 1) =
      tokenize settings inGroup (Token.renderAll tokens) := by
  rw [roundTrips, h]
  rfl

/-- From any round trip on, as many more as there is unsettled and one lead to tokens that come
back. -/
theorem exists_roundTrips_stable {settings : Settings} {inGroup : Bool} {text : Text} {n : Nat}
    {form : Text} {tokens : List Token} (hform : tokenize settings inGroup form = .ok tokens)
    (h : roundTrips settings inGroup text n = .ok tokens) :
    ∃ m ≤ n + unsettled [] (brackets form) + 1, ∃ stable,
      roundTrips settings inGroup text m = .ok stable ∧
        tokenize settings inGroup (Token.renderAll stable) = .ok stable := by
  induction hsize : unsettled [] (brackets form) using Nat.strongRecOn generalizing n form tokens with
  | _ size smaller =>
    obtain ⟨hreads, hdepth⟩ := (tokenize_eq_ok_iff settings inGroup form tokens).mp hform
    rcases hreads.strict_or_unsettled_lt with hstrict | hless
    · have hlegible := hstrict.legibleAll
      have hnested := hstrict.nestedAll
      refine ⟨n + 1, by omega, Token.pruneAll tokens, ?_, ?_⟩
      · rw [roundTrips_succ h]
        exact tokenize_renderAll_eq_pruneAll settings inGroup tokens hlegible hnested hdepth
      · rw [tokenize_renderAll_eq_ok_iff settings inGroup _ (by rwa [Token.depthAll_pruneAll])]
        exact wellFormed_pruneAll inGroup tokens hlegible hnested
    · obtain ⟨again, hagain, -, hless'⟩ := hreads.exists_reads_renderAll
      have hnext : tokenize settings inGroup (Token.renderAll tokens) = .ok again :=
        (tokenize_eq_ok_iff _ _ _ _).mpr ⟨hagain, hless'.trans hdepth⟩
      obtain ⟨m, hm, hstable⟩ := smaller _ (hsize ▸ hless) hnext
        ((roundTrips_succ h).trans hnext) rfl
      exact ⟨m, by omega, hstable⟩

/-- Round trips of an accepted text come to rest: after at most two for each opener of the text and
one more, the tokens stay the same. -/
theorem roundTrips_eventually_eq (settings : Settings) (inGroup : Bool) (text : Text)
    (tokens : List Token) (h : tokenize settings inGroup text = .ok tokens) :
    ∃ n ≤ 2 * text.openers.length + 1, ∃ stable,
      ∀ m, n ≤ m → roundTrips settings inGroup text m = .ok stable := by
  obtain ⟨n, hn, stable, hreached, hstable⟩ := exists_roundTrips_stable (n := 0) h h
  have hbound := unsettled_le [] (brackets text)
  rw [openers_brackets, List.length_nil] at hbound
  refine ⟨n, by omega, stable, fun m hm => ?_⟩
  induction m, hm using Nat.le_induction with
  | base => exact hreached
  | succ m _ ih => rw [roundTrips_succ ih, hstable]

/-- A table that is cut off leaves its closer to the tuple behind it, and the first round trip cuts
the tuple off in its turn. Nothing changes any more then. -/
theorem roundTrips_eventually_eq_cut :
    let text : Text := ['{', '[', '{', ']', '(', '}', ')', '}']
    let cut := Token.bracketed .indexer [.bracketed .table []]
    tokenize ⟨3, false⟩ false text =
        .ok [.bracketed .table [cut, .bracketed .tuple [.punctuation '}']]] ∧
      ∃ n ≤ 2 * text.openers.length + 1, ∀ m, n ≤ m →
        roundTrips ⟨3, false⟩ false text m =
          .ok [.bracketed .table [cut, .bracketed .tuple []], .punctuation ')', .punctuation '}'] := by
  intro text cut
  have hfirst : tokenize ⟨3, false⟩ false text =
      .ok [.bracketed .table [cut, .bracketed .tuple [.punctuation '}']]] := by
    decide +kernel
  have hninth : roundTrips ⟨3, false⟩ false text 9 =
      .ok [.bracketed .table [cut, .bracketed .tuple []], .punctuation ')', .punctuation '}'] := by
    decide +kernel
  obtain ⟨n, hn, stable, hstable⟩ := roundTrips_eventually_eq ⟨3, false⟩ false text _ hfirst
  have hreached := hstable 9 hn
  rw [hninth, Except.ok.injEq] at hreached
  exact ⟨hfirst, n, hn, hreached ▸ hstable⟩

end LuauAnnotation
