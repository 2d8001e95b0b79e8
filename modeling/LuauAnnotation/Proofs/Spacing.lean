import LuauAnnotation.Proofs.Composition
import LuauAnnotation.Proofs.Rereading
import LuauAnnotation.Proofs.Skeleton

/-!
# Blanks between tokens

Where a text holds blanks, any other blanks do as well, and none are needed next to a punctuation
character, unless a hyphen and a point come together there. The two texts have the same tokens, or
the same fault at the same place of the text, counted with the blanks in front of it.

The reason is that no lexeme reaches over the place. Groups may: the place may lie inside any number
of them, closed behind it or not at all, and their brackets are found as before because blanks are no
brackets.
-/

namespace LuauAnnotation

namespace Lexeme

/-- No lexeme reaches from the end of one text into the next, inside or outside a group. -/
def Parted (left right : Text) : Prop :=
  ∀ c d, left.getLast? = some c → right.head? = some d →
    (isAtomChar false c = true → isAtomChar false d = false) ∧ (c = '-' → d ≠ '>')

/-- Only the ends that meet matter for whether texts are parted. -/
theorem Parted.mono {left left' right right' : Text} (h : Parted left' right')
    (hleft : left <:+ left') (hright : right <+: right') : Parted left right := by
  obtain ⟨front, rfl⟩ := hleft
  obtain ⟨behind, rfl⟩ := hright
  intro c d hc hd
  apply h c d
  · rw [List.getLast?_append, hc]
    rfl
  · rw [List.head?_append, hd]
    rfl

/-- A text is parted from what starts with a blank. -/
theorem parted_of_blanks {blanks : Text} (hblanks : ∀ c ∈ blanks, isBlank c = true)
    (hsome : blanks ≠ []) (left right : Text) : Parted left (blanks ++ right) := by
  cases blanks with
  | nil => exact absurd rfl hsome
  | cons blank blanks =>
    have hblank := hblanks blank List.mem_cons_self
    intro c d hc hd
    obtain rfl : blank = d := by simpa using hd
    exact ⟨fun _ => not_isAtomChar_of_isBlank false hblank,
      fun _ => ne_of_isBlank hblank (by decide)⟩

/-- Texts that need no blank between them: a punctuation character ends the first one or starts the
second, and no hyphen meets a point. -/
structure MayTouch (left right : Text) : Prop where
  punctuation : (∃ c ∈ punctuationChars, left.getLast? = some c) ∨
    ∃ c ∈ punctuationChars, right.head? = some c
  no_arrow : ¬ (left.getLast? = some '-' ∧ right.head? = some '>')

/-- Texts that may touch are parted without a blank. -/
theorem MayTouch.parted {left right : Text} (h : MayTouch left right) : Parted left right := by
  intro c d hc hd
  refine ⟨fun hatom => ?_, fun hdash hpoint => ?_⟩
  · rcases h.punctuation with ⟨last, hmem, hlast⟩ | ⟨first, hmem, hfirst⟩
    · obtain rfl : last = c := Option.some.inj (hlast.symm.trans hc)
      exact absurd hatom (Bool.eq_false_iff.mp (not_isAtomChar_of_mem false hmem))
    · obtain rfl : first = d := Option.some.inj (hfirst.symm.trans hd)
      exact not_isAtomChar_of_mem false hmem
  · exact h.no_arrow ⟨hdash ▸ hc, hpoint ▸ hd⟩

section

variable {inGroup : Bool} {lexeme after : Text} {tokens : List Token}

/-- Behind a character of an atom, what is parted from it cannot continue the atom. -/
theorem Parted.not_isAtomChar {left right : Text} {c d : Char} (h : Parted left right)
    (hc : left.getLast? = some c) (hd : right.head? = some d)
    (hatom : isAtomChar inGroup c = true) : isAtomChar inGroup d = false := by
  have hnone := (h c d hc hd).1 (isAtomChar_lenient hatom)
  apply Bool.eq_false_iff.mpr
  intro hjoined
  exact Bool.false_ne_true (hnone.symm.trans (isAtomChar_lenient hjoined))

/-- The two parts of a lexeme are not parted. -/
theorem StandsFor.not_parted {front behind : Text}
    (h : StandsFor inGroup (front ++ behind) tokens after) (hfront : front ≠ [])
    (hbehind : behind ≠ []) : ¬ Parted front behind := by
  intro hparted
  have hlong : 2 ≤ (front ++ behind).length := by
    have hfirst := List.length_pos_iff.mpr hfront
    have hsecond := List.length_pos_iff.mpr hbehind
    rw [List.length_append]
    omega
  generalize hlexeme : front ++ behind = lexeme at h hlong
  cases h with
  | separator _ _ => exact absurd hlong (by decide)
  | arrow _ =>
    rcases List.append_eq_cons_iff.mp hlexeme with ⟨hnil, -⟩ | ⟨inner, rfl, hpoint⟩
    · exact hfront hnil
    · rcases List.singleton_eq_append_iff.mp hpoint with ⟨rfl, rfl⟩ | ⟨-, hnil⟩
      · exact (hparted '-' '>' rfl rfl).2 rfl rfl
      · exact hbehind hnil
  | punctuation c _ _ _ _ => exact absurd hlong (by simp)
  | atom _ _ _ hchars _ =>
    rw [← hlexeme] at hchars
    have hlast := List.getLast?_eq_some_getLast hfront
    have hhead := List.head?_eq_some_head hbehind
    have hc := hchars _ (List.mem_append_left _ (List.mem_of_getLast? hlast))
    have hd := hchars _ (List.mem_append_right _ (List.mem_of_head? hhead))
    exact Bool.false_ne_true ((hparted.not_isAtomChar hlast hhead hc).symm.trans hd)

/-- A lexeme stands for its tokens in front of any text that it is parted from. -/
theorem StandsFor.of_parted {after' : Text} (h : StandsFor inGroup lexeme tokens after)
    (hparted : Parted lexeme after') : StandsFor inGroup lexeme tokens after' := by
  cases h with
  | separator _ hgroup => exact .separator after' hgroup
  | arrow _ => exact .arrow after'
  | punctuation c _ hc hopener _ =>
    apply StandsFor.punctuation c after' hc hopener
    intro hdash hpoint
    exact (hparted c '>' rfl hpoint).2 hdash rfl
  | atom _ _ hrun hchars _ =>
    apply StandsFor.atom lexeme after' hrun hchars
    intro d hd
    have hlast := List.getLast?_eq_some_getLast hrun
    exact hparted.not_isAtomChar hlast hd (hchars _ (List.mem_of_getLast? hlast))

/-- A lexeme that starts in front of a place where the text is parted does not reach over it, and
stands for the same tokens whatever the first piece is parted from. -/
theorem StandsFor.exists_behind {rest left right : Text}
    (h : StandsFor inGroup lexeme tokens rest) (hleft : left ≠ []) (hparted : Parted left right)
    (htext : lexeme ++ rest = left ++ right) :
    ∃ behind, left = lexeme ++ behind ∧ rest = behind ++ right ∧
      ∀ right', Parted left right' → StandsFor inGroup lexeme tokens (behind ++ right') := by
  rcases List.append_eq_append_iff.mp htext with ⟨behind, rfl, rfl⟩ | ⟨inner, rfl, rfl⟩
  · refine ⟨behind, rfl, rfl, fun right' hright' => ?_⟩
    cases behind with
    | nil =>
      rw [List.append_nil] at hright'
      exact h.of_parted hright'
    | cons c behind => exact h.of_head? rfl
  · cases inner with
    | nil =>
      rw [List.append_nil] at h ⊢
      exact ⟨[], (List.append_nil left).symm, rfl, fun right' hright' => h.of_parted hright'⟩
    | cons c inner =>
      have hnear := hparted.mono List.suffix_rfl (List.prefix_append (c :: inner) rest)
      exact absurd hnear (h.not_parted hleft (List.cons_ne_nil c inner))

end

end Lexeme

/-! ### Other blanks at a place -/

/-- Two texts with other blanks behind a common first piece, by what the tokenizer takes from them.
No lexeme reaches over the place, but the interior of a group may. -/
inductive Respaced (blanks blanks' : Text) : Bool → Text → Text → Text → Prop where
  | here (inGroup : Bool) (right : Text) :
      Respaced blanks blanks' inGroup [] (blanks ++ right) (blanks' ++ right)
  | blank {inGroup : Bool} {c : Char} {front text text' : Text} (hblank : isBlank c = true)
      (hrest : Respaced blanks blanks' inGroup front text text') :
      Respaced blanks blanks' inGroup (c :: front) (c :: text) (c :: text')
  | lexeme {inGroup : Bool} {lexeme front text text' : Text} {here : List Token}
      (hlexeme : Lexeme.StandsFor inGroup lexeme here text)
      (hlexeme' : Lexeme.StandsFor inGroup lexeme here text')
      (hrest : Respaced blanks blanks' inGroup front text text') :
      Respaced blanks blanks' inGroup (lexeme ++ front) (lexeme ++ text) (lexeme ++ text')
  | behind {inGroup : Bool} {interior front text text' : Text} (kind : BracketKind)
      (hinterior : kind.Balanced interior)
      (hrest : Respaced blanks blanks' inGroup front text text') :
      Respaced blanks blanks' inGroup (kind.opener :: (interior ++ kind.closer :: front))
        (kind.opener :: (interior ++ kind.closer :: text))
        (kind.opener :: (interior ++ kind.closer :: text'))
  | inside {inGroup : Bool} {front interior interior' : Text} (kind : BracketKind) (rest : Text)
      (hinterior : kind.Balanced interior) (hinterior' : kind.Balanced interior')
      (hchildren : Respaced blanks blanks' true front interior interior') :
      Respaced blanks blanks' inGroup (kind.opener :: front)
        (kind.opener :: (interior ++ kind.closer :: rest))
        (kind.opener :: (interior' ++ kind.closer :: rest))
  | unclosed {inGroup : Bool} {front interior interior' : Text} (kind : BracketKind)
      (hinterior : kind.Unclosed interior) (hinterior' : kind.Unclosed interior')
      (hchildren : Respaced blanks blanks' true front interior interior') :
      Respaced blanks blanks' inGroup (kind.opener :: front) (kind.opener :: interior)
        (kind.opener :: interior')

section

variable {blanks blanks' : Text}

/-- Texts that differ in their blanks are squeezed to the same text. -/
theorem squeeze_respaced (hblanks : ∀ c ∈ blanks, isBlank c = true)
    (hblanks' : ∀ c ∈ blanks', isBlank c = true) (left right : Text) :
    Text.squeeze (left ++ (blanks ++ right)) = Text.squeeze (left ++ (blanks' ++ right)) := by
  have hnone (text : Text) (htext : ∀ c ∈ text, isBlank c = true) : text.squeeze = [] := by
    apply List.filter_eq_nil_iff.mpr
    intro c hc
    simp [htext c hc]
  simp only [Text.squeeze_append, hnone blanks hblanks, hnone blanks' hblanks']

/-- The closer of a group stands in front of blanks in its text or behind them. -/
theorem exists_closer_of_blanks (hblanks : ∀ c ∈ blanks, isBlank c = true) {kind : BracketKind}
    {left right interior after : Text}
    (htext : left ++ (blanks ++ right) = interior ++ kind.closer :: after) :
    (∃ inner, left = interior ++ kind.closer :: inner ∧ after = inner ++ (blanks ++ right)) ∨
      ∃ inner, right = inner ++ kind.closer :: after ∧ interior = left ++ (blanks ++ inner) := by
  rcases Token.exists_split_of_append_eq htext with hfront | ⟨inner, hbehind⟩
  · exact Or.inl hfront
  · rcases Token.exists_split_of_append_eq hbehind with ⟨more, rfl, -⟩ | ⟨inner, rfl⟩
    · have hcloser := hblanks kind.closer (by simp)
      rw [kind.isBlank_closer] at hcloser
      cases hcloser
    · rw [← List.append_assoc, ← List.append_assoc] at htext
      have hinterior := List.append_cancel_right htext
      exact Or.inr ⟨inner, rfl, by rw [← hinterior, List.append_assoc]⟩

/-- Blanks may be changed behind an opener if they may be in its interior and behind the groups that
are closed in front of them. -/
theorem respaced_group (hblanks : ∀ c ∈ blanks, isBlank c = true)
    (hblanks' : ∀ c ∈ blanks', isBlank c = true) {inGroup : Bool} (kind : BracketKind)
    {left right : Text}
    (hinside : ∀ inner, inner <+: right →
      Respaced blanks blanks' true left (left ++ (blanks ++ inner)) (left ++ (blanks' ++ inner)))
    (hbehind : ∀ behind, behind <:+ left →
      Respaced blanks blanks' inGroup behind (behind ++ (blanks ++ right))
        (behind ++ (blanks' ++ right))) :
    Respaced blanks blanks' inGroup (kind.opener :: left)
      (kind.opener :: (left ++ (blanks ++ right))) (kind.opener :: (left ++ (blanks' ++ right))) := by
  rcases kind.unclosed_or_balanced (left ++ (blanks ++ right)) with
    hopen | ⟨interior, after, htext, hbalanced⟩
  · apply Respaced.unclosed kind hopen
    · rw [← BracketKind.unclosed_squeeze_iff, ← squeeze_respaced hblanks hblanks']
      exact BracketKind.unclosed_squeeze_iff.mpr hopen
    · exact hinside right List.prefix_rfl
  · rcases exists_closer_of_blanks hblanks htext with ⟨inner, rfl, rfl⟩ | ⟨inner, rfl, rfl⟩
    · -- The group is closed in front of the blanks.
      have hsuffix : inner <:+ interior ++ kind.closer :: inner :=
        (List.suffix_cons kind.closer inner).trans (List.suffix_append interior _)
      simp only [List.append_assoc, List.cons_append]
      exact .behind kind hbalanced (hbehind inner hsuffix)
    · -- The blanks stand in the interior.
      have hbalanced' : kind.Balanced (left ++ (blanks' ++ inner)) := by
        rw [← BracketKind.balanced_squeeze_iff, ← squeeze_respaced hblanks hblanks']
        exact BracketKind.balanced_squeeze_iff.mpr hbalanced
      rw [htext, ← List.append_assoc blanks', ← List.append_assoc left (blanks' ++ inner)]
      exact .inside kind after hbalanced hbalanced' (hinside inner (List.prefix_append inner _))

/-- Blanks may be changed behind a lexeme if they may be in the text behind it. -/
theorem respaced_lexeme {inGroup : Bool} {c : Char} {left right : Text} (hblank : isBlank c = false)
    (hopener : BracketKind.ofOpener? c = none) (hparted : Lexeme.Parted (c :: left) (blanks ++ right))
    (hparted' : Lexeme.Parted (c :: left) (blanks' ++ right))
    (hbehind : ∀ behind, behind <:+ left →
      Respaced blanks blanks' inGroup behind (behind ++ (blanks ++ right))
        (behind ++ (blanks' ++ right))) :
    Respaced blanks blanks' inGroup (c :: left) (c :: left ++ (blanks ++ right))
      (c :: left ++ (blanks' ++ right)) := by
  obtain ⟨lexeme, here, after, htext, hlexeme⟩ :=
    Lexeme.exists_standsFor inGroup c (left ++ (blanks ++ right)) hblank hopener
  obtain ⟨behind, hleft, rfl, hlexeme'⟩ :=
    hlexeme.exists_behind (List.cons_ne_nil c left) hparted htext.symm
  have hlexeme' := hlexeme' (blanks' ++ right) hparted'
  obtain ⟨d, run, hhead, -, -⟩ := hlexeme.head
  have hsuffix : behind <:+ left := by
    rw [hhead, List.cons_append] at hleft
    exact ⟨run, (List.cons.inj hleft).2.symm⟩
  rw [hleft, List.append_assoc, List.append_assoc]
  exact .lexeme hlexeme hlexeme' (hbehind behind hsuffix)

/-- Blanks may be changed where the first piece is parted from what follows it in both texts. -/
theorem respaced_of_parted (hblanks : ∀ c ∈ blanks, isBlank c = true)
    (hblanks' : ∀ c ∈ blanks', isBlank c = true) (inGroup : Bool) (left right : Text)
    (hparted : Lexeme.Parted left (blanks ++ right))
    (hparted' : Lexeme.Parted left (blanks' ++ right)) :
    Respaced blanks blanks' inGroup left (left ++ (blanks ++ right))
      (left ++ (blanks' ++ right)) := by
  induction size : left.length using Nat.strongRecOn generalizing inGroup left right with
  | _ size shorter =>
    cases left with
    | nil => exact .here inGroup right
    | cons c left =>
      rw [List.length_cons] at size
      have hbehind (behind : Text) (hsuffix : behind <:+ left) :
          Respaced blanks blanks' inGroup behind (behind ++ (blanks ++ right))
            (behind ++ (blanks' ++ right)) := by
        have hlength := hsuffix.length_le
        have hwhole := hsuffix.trans (List.suffix_cons c left)
        exact shorter behind.length (by omega) inGroup behind right
          (hparted.mono hwhole List.prefix_rfl) (hparted'.mono hwhole List.prefix_rfl) rfl
      cases hblank : isBlank c with
      | true => exact .blank hblank (hbehind left List.suffix_rfl)
      | false =>
        cases hopener : BracketKind.ofOpener? c with
        | none => exact respaced_lexeme hblank hopener hparted hparted' hbehind
        | some kind =>
          obtain rfl := (BracketKind.ofOpener?_eq_some_iff c kind).mp hopener
          apply respaced_group hblanks hblanks' kind _ hbehind
          intro inner hinner
          have hsuffix := List.suffix_cons kind.opener left
          exact shorter left.length (by omega) true left inner
            (hparted.mono hsuffix ((List.prefix_append_right_inj blanks).mpr hinner))
            (hparted'.mono hsuffix ((List.prefix_append_right_inj blanks').mpr hinner)) rfl

/-- Both texts hold the first piece, their blanks and the same text behind these. -/
theorem Respaced.exists_bytes {inGroup : Bool} {front text text' : Text}
    (h : Respaced blanks blanks' inGroup front text text') :
    ∃ behind, Text.bytes text = Text.bytes front + Text.bytes blanks + behind ∧
      Text.bytes text' = Text.bytes front + Text.bytes blanks' + behind := by
  induction h with
  | here _ right => exact ⟨Text.bytes right, by simp, by simp⟩
  | blank _ _ ih =>
    obtain ⟨behind, htext, htext'⟩ := ih
    exact ⟨behind, by simp only [Text.bytes_cons]; omega, by simp only [Text.bytes_cons]; omega⟩
  | lexeme _ _ _ ih =>
    obtain ⟨behind, htext, htext'⟩ := ih
    refine ⟨behind, ?_, ?_⟩ <;> simp only [Text.bytes_append] <;> omega
  | behind kind _ _ ih =>
    obtain ⟨behind, htext, htext'⟩ := ih
    refine ⟨behind, ?_, ?_⟩ <;> simp only [Text.bytes_cons, Text.bytes_append] <;> omega
  | inside kind rest _ _ _ ih =>
    obtain ⟨behind, htext, htext'⟩ := ih
    refine ⟨behind + kind.closer.utf8Size + Text.bytes rest, ?_, ?_⟩ <;>
      simp only [Text.bytes_cons, Text.bytes_append] <;> omega
  | unclosed kind _ _ _ ih =>
    obtain ⟨behind, htext, htext'⟩ := ih
    refine ⟨behind, ?_, ?_⟩ <;> simp only [Text.bytes_cons] <;> omega

/-- How the place of a fault changes with the blanks at a place of a text: in front of them it stays,
and behind them it keeps its distance from them. -/
def Moved (place width width' offset offset' : Nat) : Prop :=
  offset < place ∧ offset' = offset ∨
    ∃ behind, offset = place + width + behind ∧ offset' = place + width' + behind

/-- A text with other blanks is read alike. -/
theorem Respaced.alike_scan {settings : Settings} (hblanks : ∀ c ∈ blanks, isBlank c = true)
    (hblanks' : ∀ c ∈ blanks', isBlank c = true) {inGroup : Bool} {front text text' : Text}
    (h : Respaced blanks blanks' inGroup front text text') (depth offset place : Nat)
    (hplace : place = offset + Text.bytes front) :
    Alike Eq (Moved place (Text.bytes blanks) (Text.bytes blanks'))
      (scan settings inGroup depth offset text) (scan settings inGroup depth offset text') := by
  induction h generalizing depth offset with
  | here _ right =>
    rw [scan_blanks hblanks, scan_blanks hblanks']
    apply alike_scan_moved
    intro behind _
    exact Or.inr ⟨behind, by rw [hplace]; rfl, by rw [hplace]; rfl⟩
  | blank hblank _ ih =>
    rw [scan_blank hblank, scan_blank hblank]
    apply ih
    rw [hplace, Text.bytes_cons, Nat.add_assoc]
  | lexeme hlexeme hlexeme' _ ih =>
    rw [scan_lexeme hlexeme, scan_lexeme hlexeme']
    apply Alike.map
    · apply ih
      rw [hplace, Text.bytes_append, Nat.add_assoc]
    · intro others others' hsame
      rw [hsame]
  | behind kind hinterior _ ih =>
    have hopener := kind.opener.utf8Size_pos
    rw [Text.bytes_cons, Text.bytes_append, Text.bytes_cons] at hplace
    apply alike_scan_closed hinterior hinterior
    · exact Or.inl ⟨by omega, rfl⟩
    · apply alike_scan_moved
      intro inner hinner
      exact Or.inl ⟨by omega, rfl⟩
    · apply ih
      rw [Text.bytes_append, Text.bytes_cons, Text.bytes_nil]
      omega
    · intro children children' others others' hchildren hothers
      rw [hchildren, hothers]
  | inside kind rest hinterior hinterior' hchildren ih =>
    have hopener := kind.opener.utf8Size_pos
    rw [Text.bytes_cons] at hplace
    obtain ⟨behind, htext, htext'⟩ := hchildren.exists_bytes
    apply alike_scan_closed hinterior hinterior'
    · exact Or.inl ⟨by omega, rfl⟩
    · apply ih
      omega
    · apply alike_scan_moved
      intro inner _
      simp only [Text.bytes_append, Text.bytes_cons, Text.bytes_nil]
      exact Or.inr ⟨behind + kind.closer.utf8Size + inner, by omega, by omega⟩
    · intro children children' others others' hchildren hothers
      rw [hchildren, hothers]
  | unclosed kind hinterior hinterior' _ ih =>
    have hopener := kind.opener.utf8Size_pos
    rw [Text.bytes_cons] at hplace
    apply alike_scan_unclosed hinterior hinterior'
    · exact Or.inl ⟨by omega, rfl⟩
    · apply ih
      omega
    · intro children children' hchildren
      rw [hchildren]

end

/-- Blanks in a text may be replaced by other blanks. They may be left out if the texts on both sides
may touch. The tokens stay the same, or the fault does, and its offset counts the blanks in front of
it. -/
theorem tokenize_respaced (settings : Settings) (inGroup : Bool) (left right blanks blanks' : Text)
    (hblanks : ∀ c ∈ blanks, isBlank c = true) (hblanks' : ∀ c ∈ blanks', isBlank c = true)
    (hsome : blanks ≠ []) (htouch : blanks' = [] → Lexeme.MayTouch left right) :
    Alike Eq (Moved (Text.bytes left) (Text.bytes blanks) (Text.bytes blanks'))
      (tokenize settings inGroup (left ++ blanks ++ right))
      (tokenize settings inGroup (left ++ blanks' ++ right)) := by
  have hparted := Lexeme.parted_of_blanks hblanks hsome left right
  have hparted' : Lexeme.Parted left (blanks' ++ right) := by
    by_cases hnone : blanks' = []
    · rw [hnone]
      exact (htouch hnone).parted
    · exact Lexeme.parted_of_blanks hblanks' hnone left right
  have hrespaced := respaced_of_parted hblanks hblanks' inGroup left right hparted hparted'
  rw [List.append_assoc, List.append_assoc]
  exact hrespaced.alike_scan hblanks hblanks' 0 0 (Text.bytes left) (Nat.zero_add _).symm

/-- A wide blank between a colon and an arrow may be left out inside two brackets, and the brace
behind it that is never closed is found three bytes earlier. -/
theorem tokenize_respaced_arrow :
    (∀ c ∈ ['\u3000'], isBlank c = true) ∧ ['\u3000'] ≠ [] ∧
      Lexeme.MayTouch ['(', 'é', '[', 'a', ':'] ['-', '>', 'b', ']', ',', '{', ')'] ∧
      Alike Eq (Moved 6 3 0)
        (tokenize ⟨3, true⟩ false
          (['(', 'é', '[', 'a', ':'] ++ ['\u3000'] ++ ['-', '>', 'b', ']', ',', '{', ')']))
        (tokenize ⟨3, true⟩ false
          (['(', 'é', '[', 'a', ':'] ++ [] ++ ['-', '>', 'b', ']', ',', '{', ')'])) ∧
      tokenize ⟨3, true⟩ false
          (['(', 'é', '[', 'a', ':'] ++ ['\u3000'] ++ ['-', '>', 'b', ']', ',', '{', ')']) =
        .error (.unterminated .table 14) := by
  have htouch : Lexeme.MayTouch ['(', 'é', '[', 'a', ':'] ['-', '>', 'b', ']', ',', '{', ')'] :=
    ⟨Or.inr ⟨'-', by decide, rfl⟩, by decide⟩
  have hblank : ∀ c ∈ ['\u3000'], isBlank c = true := List.forall_mem_singleton.mpr (by decide)
  exact ⟨hblank, by decide, htouch, tokenize_respaced ⟨3, true⟩ false _ _ ['\u3000'] [] hblank
    (List.forall_mem_nil _) (by decide) fun _ => htouch, by decide +kernel⟩

end LuauAnnotation
