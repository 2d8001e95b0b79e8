import LuauAnnotation.Proofs.Alike

/-!
# Squeezing a text

Without its blanks a text has other tokens: names grow together, and a hyphen and a point behind it
make an arrow. What stays is the skeleton of its tokens, which leaves out names and writes an arrow
as its two characters. The skeleton is given character by character outside groups, so squeezing
keeps it, and every group ends where it ended before. A fault stays the same fault, and its offset
counts the bytes that are left in front of it.
-/

namespace LuauAnnotation

namespace Token

mutual

/-- What a token shows without names. An arrow is its two characters. -/
def skeleton : Token → List Token
  | .identifier _ | .typeName _ => []
  | .arrow => [.punctuation '-', .punctuation '>']
  | .punctuation c => [.punctuation c]
  | .union => [.union]
  | .intersection => [.intersection]
  | .separator => [.separator]
  | .bracketed kind children => [.bracketed kind (skeletonAll children)]

/-- What a token sequence shows without names, at every level. -/
def skeletonAll : List Token → List Token
  | [] => []
  | token :: rest => skeleton token ++ skeletonAll rest

end

/-- The skeleton of a concatenation. -/
theorem skeletonAll_append (left right : List Token) :
    skeletonAll (left ++ right) = skeletonAll left ++ skeletonAll right := by
  induction left with
  | nil => rfl
  | cons token rest ih => rw [List.cons_append, skeletonAll, skeletonAll, ih, List.append_assoc]

/-- An atom stands for names only. -/
theorem skeletonAll_ofAtom (run : Text) : skeletonAll (ofAtom run) = [] := by
  obtain ⟨_, _, htokens⟩ | ⟨_, htokens⟩ | ⟨_, _, _, _, _, _, _, _, htokens⟩ := ofAtom_cases run <;>
    rw [htokens] <;> rfl

/-- A punctuation character is its own skeleton. -/
theorem skeletonAll_ofPunctuation (c : Char) :
    skeletonAll [ofPunctuation c] = [ofPunctuation c] := by
  unfold ofPunctuation
  split <;> rfl

end Token

/-! ### Character by character -/

/-- What a character that opens no group adds to the skeleton. -/
def Lexeme.mark (inGroup : Bool) (c : Char) : List Token :=
  if c ∈ punctuationChars then [Token.ofPunctuation c]
  else if inGroup = true ∧ c = ',' then [.separator]
  else []

section

variable {settings : Settings} {inGroup : Bool} {depth offset : Nat} {c : Char} {rest : Text}

/-- Where names do not count, the first character of an atom can be left out. -/
theorem scan_cons_atom {β : Type} {shown : List Token → β}
    (hshown : ∀ run others, shown (Token.ofAtom run ++ others) = shown others)
    (hc : Lexeme.isAtomChar inGroup c = true) :
    (scan settings inGroup depth offset (c :: rest)).map shown =
      (scan settings inGroup depth (offset + c.utf8Size) rest).map shown := by
  obtain ⟨hblank, hpunctuation, hcomma⟩ := (Lexeme.isAtomChar_iff inGroup c).mp hc
  obtain ⟨lexeme, here, after, htext, hlexeme⟩ :=
    Lexeme.exists_standsFor inGroup c rest hblank (Lexeme.ofOpener?_of_isAtomChar inGroup c hc)
  cases hlexeme with
  | separator _ hgroup => exact absurd (List.cons.inj htext).1 (hcomma hgroup)
  | arrow =>
    obtain ⟨rfl, -⟩ := List.cons.inj htext
    exact absurd (by decide) hpunctuation
  | punctuation d _ hd =>
    obtain ⟨rfl, -⟩ := List.cons.inj htext
    exact absurd hd hpunctuation
  | atom _ _ hrun hchars hends =>
    cases lexeme with
    | nil => exact absurd rfl hrun
    | cons d run =>
      rw [List.cons_append] at htext
      obtain ⟨rfl, rfl⟩ := List.cons.inj htext
      rw [List.forall_mem_cons] at hchars
      rw [← List.cons_append, scan_lexeme (.atom _ _ hrun (List.forall_mem_cons.mpr hchars) hends),
        map_map]
      simp only [hshown, Text.bytes_cons]
      -- The rest of the atom is an atom as well, unless it is empty.
      by_cases hempty : run = []
      · rw [hempty, Text.bytes_nil, Nat.add_zero]
        rfl
      · rw [scan_lexeme (.atom _ _ hempty hchars.2 hends), map_map, Nat.add_assoc]
        simp only [hshown]

/-- The skeleton of a text that starts with a character that opens no group. -/
theorem scan_cons_skeleton (hopener : BracketKind.ofOpener? c = none) :
    (scan settings inGroup depth offset (c :: rest)).map Token.skeletonAll =
      (scan settings inGroup depth (offset + c.utf8Size) rest).map fun others =>
        Lexeme.mark inGroup c ++ Token.skeletonAll others := by
  have hnames (run : Text) (others : List Token) :
      Token.skeletonAll (Token.ofAtom run ++ others) = Token.skeletonAll others := by
    rw [Token.skeletonAll_append, Token.skeletonAll_ofAtom, List.nil_append]
  by_cases hpunctuation : c ∈ Lexeme.punctuationChars
  · have hmark : Lexeme.mark inGroup c = [Token.ofPunctuation c] := if_pos hpunctuation
    by_cases harrow : c = '-' ∧ rest.head? = some '>'
    · -- The point behind the hyphen is a lexeme of its own if the hyphen is left out.
      obtain ⟨rfl, hhead⟩ := harrow
      obtain ⟨after, rfl⟩ := List.head?_eq_some_iff.mp hhead
      have hboth : scan settings inGroup depth offset ('-' :: '>' :: after) =
          (scan settings inGroup depth (offset + Text.bytes ['-', '>']) after).map
            ([.arrow] ++ ·) :=
        scan_lexeme (.arrow after)
      have hsecond : scan settings inGroup depth (offset + '-'.utf8Size) ('>' :: after) =
          (scan settings inGroup depth (offset + '-'.utf8Size + Text.bytes ['>']) after).map
            ([.punctuation '>'] ++ ·) :=
        scan_lexeme (.punctuation '>' after (by decide) rfl nofun)
      rw [hboth, hsecond, map_map, map_map, hmark, Text.bytes_cons, Nat.add_assoc]
      rfl
    · have hlexeme : Lexeme.StandsFor inGroup [c] [Token.ofPunctuation c] rest :=
        .punctuation c rest hpunctuation hopener fun hdash hhead => harrow ⟨hdash, hhead⟩
      rw [← List.singleton_append, scan_lexeme hlexeme, map_map, hmark]
      simp only [Token.skeletonAll_append, Token.skeletonAll_ofPunctuation, Text.bytes_cons,
        Text.bytes_nil, Nat.add_zero]
  · by_cases hcomma : inGroup = true ∧ c = ','
    · have hmark : Lexeme.mark inGroup c = [.separator] := by
        rw [Lexeme.mark, if_neg hpunctuation, if_pos hcomma]
      obtain ⟨hgroup, rfl⟩ := hcomma
      rw [← List.singleton_append, scan_lexeme (.separator rest hgroup), map_map, hmark]
      rfl
    · have hmark : Lexeme.mark inGroup c = [] := by
        rw [Lexeme.mark, if_neg hpunctuation, if_neg hcomma]
      rw [hmark]
      cases hblank : isBlank c with
      | true =>
        rw [scan_blank hblank]
        rfl
      | false =>
        have hatom : Lexeme.isAtomChar inGroup c = true :=
          (Lexeme.isAtomChar_iff inGroup c).mpr
            ⟨hblank, hpunctuation, fun hgroup hc => hcomma ⟨hgroup, hc⟩⟩
        exact scan_cons_atom hnames hatom

end

/-- A property of texts holds if it holds of the empty text and is kept by a character that opens no
group, by a closed group and by a group that is never closed. -/
theorem group_induction {motive : Text → Prop} (nil : motive [])
    (plain : ∀ c rest, BracketKind.ofOpener? c = none → motive rest → motive (c :: rest))
    (closed : ∀ (kind : BracketKind) (interior rest : Text), kind.Balanced interior →
      motive interior → motive rest →
        motive (kind.opener :: (interior ++ kind.closer :: rest)))
    (unclosed : ∀ (kind : BracketKind) (interior : Text), kind.Unclosed interior →
      motive interior → motive (kind.opener :: interior)) (text : Text) : motive text := by
  induction size : text.length using Nat.strongRecOn generalizing text with
  | _ size shorter =>
    cases text with
    | nil => exact nil
    | cons c rest =>
      rw [List.length_cons] at size
      cases hopener : BracketKind.ofOpener? c with
      | none => exact plain c rest hopener (shorter rest.length (by omega) rest rfl)
      | some kind =>
        obtain rfl := (BracketKind.ofOpener?_eq_some_iff c kind).mp hopener
        rcases kind.unclosed_or_balanced rest with hopen | ⟨interior, after, rfl, hbalanced⟩
        · exact unclosed kind rest hopen (shorter rest.length (by omega) rest rfl)
        · simp only [List.length_append, List.length_cons] at size
          exact closed kind interior after hbalanced
            (shorter interior.length (by omega) interior rfl)
            (shorter after.length (by omega) after rfl)

/-! ### Squeezed texts -/

namespace BracketKind

variable {kind : BracketKind} {text : Text}

/-- No opener is squeezed out. -/
theorem isBlank_opener (kind : BracketKind) : isBlank kind.opener = false :=
  Lexeme.not_isBlank_of_mem_punctuationChars _ (Lexeme.opener_mem_punctuationChars kind)

/-- No closer is squeezed out. -/
theorem isBlank_closer (kind : BracketKind) : isBlank kind.closer = false :=
  Lexeme.not_isBlank_of_mem_punctuationChars _ (Lexeme.closer_mem_punctuationChars kind)

/-- Squeezing a text leaves its balance as it is. -/
theorem balanced_squeeze_iff : kind.Balanced text.squeeze ↔ kind.Balanced text :=
  balanced_filter_iff (by rw [kind.isBlank_opener]; rfl) (by rw [kind.isBlank_closer]; rfl)

/-- Squeezing closes no group and opens none. -/
theorem unclosed_squeeze_iff : kind.Unclosed text.squeeze ↔ kind.Unclosed text :=
  covered_filter_iff (by rw [kind.isBlank_opener]; rfl) (by rw [kind.isBlank_closer]; rfl)

/-- A closed group is squeezed part by part. -/
theorem squeeze_group (kind : BracketKind) (interior rest : Text) :
    Text.squeeze (kind.opener :: (interior ++ kind.closer :: rest)) =
      kind.opener :: (interior.squeeze ++ kind.closer :: rest.squeeze) := by
  rw [Text.squeeze_cons kind.isBlank_opener, Text.squeeze_append,
    Text.squeeze_cons kind.isBlank_closer]

end BracketKind

/-- A squeezed text is read alike, up to names: a fault behind an initial piece of the text is found
behind this piece without its blanks. -/
theorem alike_scan_squeeze (settings : Settings) {moves : Nat → Nat → Prop} (text : Text)
    (inGroup : Bool) (depth offset offset' : Nat)
    (hmoves : ∀ front : Text, front <+: text →
      moves (offset + Text.bytes front) (offset' + Text.bytes front.squeeze)) :
    Alike (fun tokens squeezed => Token.skeletonAll tokens = Token.skeletonAll squeezed) moves
      (scan settings inGroup depth offset text)
      (scan settings inGroup depth offset' text.squeeze) := by
  induction text using group_induction generalizing inGroup depth offset offset' with
  | nil =>
    rw [Text.squeeze, List.filter_nil, scan_nil, scan_nil]
    exact .ok rfl
  | plain c rest hopener ih =>
    have hbehind (front : Text) (hfront : front <+: rest) :=
      hmoves (c :: front) (List.cons_prefix_cons.mpr ⟨rfl, hfront⟩)
    cases hblank : isBlank c with
    | true =>
      simp only [Text.squeeze_cons_blank hblank, Text.bytes_cons, ← Nat.add_assoc] at hbehind
      rw [scan_blank hblank, Text.squeeze_cons_blank hblank]
      exact ih inGroup depth _ _ hbehind
    | false =>
      simp only [Text.squeeze_cons hblank, Text.bytes_cons, ← Nat.add_assoc] at hbehind
      rw [Text.squeeze_cons hblank]
      apply Alike.of_map
      rw [scan_cons_skeleton hopener, scan_cons_skeleton hopener]
      apply (ih inGroup depth _ _ hbehind).map
      intro others others' hsame
      rw [hsame]
  | closed kind interior rest hinterior ihinterior ihrest =>
    rw [kind.squeeze_group]
    apply alike_scan_closed hinterior (BracketKind.balanced_squeeze_iff.mpr hinterior)
    · exact hmoves [] List.nil_prefix
    · apply ihinterior
      intro front hfront
      have hinside := hmoves (kind.opener :: front)
        (List.cons_prefix_cons.mpr ⟨rfl, hfront.trans (List.prefix_append _ _)⟩)
      simpa only [Text.squeeze_cons kind.isBlank_opener, Text.bytes_cons, ← Nat.add_assoc]
        using hinside
    · apply ihrest
      intro front hfront
      have hbehind := hmoves (kind.opener :: (interior ++ kind.closer :: front))
        (List.cons_prefix_cons.mpr ⟨rfl, (List.prefix_append_right_inj interior).mpr
          (List.cons_prefix_cons.mpr ⟨rfl, hfront⟩)⟩)
      simpa only [kind.squeeze_group, Text.bytes_cons, Text.bytes_append, Text.bytes_nil,
        Nat.add_zero, Nat.add_assoc] using hbehind
    · intro children children' others others' hchildren hothers
      simp only [Token.skeletonAll, Token.skeleton, hchildren, hothers]
  | unclosed kind interior hinterior ih =>
    rw [Text.squeeze_cons kind.isBlank_opener]
    apply alike_scan_unclosed hinterior (BracketKind.unclosed_squeeze_iff.mpr hinterior)
    · exact hmoves [] List.nil_prefix
    · apply ih
      intro front hfront
      have hinside := hmoves (kind.opener :: front) (List.cons_prefix_cons.mpr ⟨rfl, hfront⟩)
      simpa only [Text.squeeze_cons kind.isBlank_opener, Text.bytes_cons, ← Nat.add_assoc]
        using hinside
    · intro children children' hchildren
      simp only [Token.skeletonAll, Token.skeleton, hchildren]

/-- A text and the squeezed text are both accepted or both rejected. Accepted, they have the same
skeleton. Rejected, they have the same fault, and its offset in the squeezed text is the width of
what is left of the text in front of it. -/
theorem tokenize_squeeze (settings : Settings) (inGroup : Bool) (text : Text) :
    Alike (fun tokens squeezed => Token.skeletonAll tokens = Token.skeletonAll squeezed)
      (fun offset offset' => ∃ front : Text, front <+: text ∧ offset = Text.bytes front ∧
        offset' = Text.bytes front.squeeze)
      (tokenize settings inGroup text) (tokenize settings inGroup text.squeeze) := by
  apply alike_scan_squeeze
  intro front hfront
  exact ⟨front, hfront, Nat.zero_add _, Nat.zero_add _⟩

end LuauAnnotation
