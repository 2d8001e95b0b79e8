import LuauAnnotation.Lexeme
import Mathlib.Data.Bool.AllAny
import Mathlib.Data.List.Basic
import Mathlib.Data.List.TakeWhile

/-!
# Lexemes without matchers

The classes of lexemes are built from matchers and tried in order. Here each class is described
by its characters alone: which texts stand for which tokens, given the text behind them. The
description and the classes agree, and a text that starts with neither a blank nor an opener
always starts with a lexeme.
-/

namespace LuauAnnotation

namespace Token

/-! ### The tokens of an atom -/

/-- An atom that ends with a colon is a name. -/
theorem ofAtom_name (name : Text) : ofAtom (name ++ [':']) = [.identifier name] := by
  simp [ofAtom]

/-- An atom without a colon is a type. -/
theorem ofAtom_type (name : Text) (hname : ':' ∉ name) : ofAtom name = [.typeName name] := by
  have hlast : name.getLast? ≠ some ':' := fun h => hname (List.mem_of_getLast? h)
  have hdrop : name.dropWhile (· != ':') = [] := by
    rw [List.dropWhile_eq_nil_iff]
    intro c hc
    simp only [bne_iff_ne]
    intro hcolon
    exact hname (hcolon ▸ hc)
  rw [ofAtom, if_neg hlast, hdrop]

/-- An atom with a colon before its end is a name and a type, and the type ends at the next
colon. -/
theorem ofAtom_both (name type tail : Text) (hname : ':' ∉ name) (htype : ':' ∉ type)
    (htail : tail = [] ∨ tail.head? = some ':') (hlast : (':' :: (type ++ tail)).getLast? ≠ some ':') :
    ofAtom (name ++ ':' :: (type ++ tail)) = [.identifier name, .typeName type] := by
  have hcolon (text : Text) (h : ':' ∉ text) : ∀ c ∈ text, (c != ':') = true := by
    intro c hc
    simp only [bne_iff_ne]
    intro hcolon
    exact h (hcolon ▸ hc)
  have hend : (name ++ ':' :: (type ++ tail)).getLast? ≠ some ':' := by
    rwa [List.getLast?_append_cons]
  have hrest : tail.takeWhile (· != ':') = [] := by
    rcases htail with rfl | hhead
    · rfl
    · obtain ⟨more, rfl⟩ := List.head?_eq_some_iff.mp hhead
      simp
  rw [ofAtom, if_neg hend, List.dropWhile_append_of_pos (hcolon name hname),
    List.takeWhile_append_of_pos (hcolon name hname)]
  simp [List.takeWhile_append_of_pos (hcolon type htype), hrest]

/-- Every atom is a name, a type, or a name and a type with a tail that is dropped. -/
theorem ofAtom_cases (run : Text) :
    (∃ name, run = name ++ [':'] ∧ ofAtom run = [.identifier name]) ∨
      (':' ∉ run ∧ ofAtom run = [.typeName run]) ∨
      ∃ name type tail, run = name ++ ':' :: (type ++ tail) ∧ ':' ∉ name ∧ ':' ∉ type ∧
        (tail = [] ∨ tail.head? = some ':') ∧ (':' :: (type ++ tail)).getLast? ≠ some ':' ∧
        ofAtom run = [.identifier name, .typeName type] := by
  have hnot (text : Text) : ':' ∉ text.takeWhile (· != ':') := by
    intro hmem
    simpa using List.mem_takeWhile_imp hmem
  have hhead (text : Text) : text.dropWhile (· != ':') = [] ∨
      (text.dropWhile (· != ':')).head? = some ':' := by
    have hstop := List.head?_dropWhile_not (· != ':') text
    cases hdrop : text.dropWhile (· != ':') with
    | nil => exact Or.inl rfl
    | cons c more =>
      rw [hdrop] at hstop
      exact Or.inr (by simpa using hstop)
  by_cases hlast : run.getLast? = some ':'
  · obtain ⟨name, rfl⟩ := List.getLast?_eq_some_iff.mp hlast
    exact Or.inl ⟨name, rfl, ofAtom_name name⟩
  · by_cases hcolon : ':' ∈ run
    · refine Or.inr (Or.inr ?_)
      have hsplit := (List.takeWhile_append_dropWhile (p := (· != ':')) (l := run)).symm
      rcases hhead run with hdrop | hdrop
      · rw [hdrop, List.append_nil] at hsplit
        exact absurd (hsplit ▸ hcolon) (hnot run)
      · obtain ⟨rest, hrest⟩ := List.head?_eq_some_iff.mp hdrop
        have hparts := (List.takeWhile_append_dropWhile (p := (· != ':')) (l := rest)).symm
        rw [hrest] at hsplit
        have hend : (':' :: rest).getLast? ≠ some ':' := by
          rwa [hsplit, List.getLast?_append_cons] at hlast
        rw [hparts] at hsplit hend
        exact ⟨_, _, _, hsplit, hnot run, hnot rest, hhead rest, hend,
          (congrArg ofAtom hsplit).trans
            (ofAtom_both _ _ _ (hnot run) (hnot rest) (hhead rest) hend)⟩
    · exact Or.inr (Or.inl ⟨hcolon, ofAtom_type run hcolon⟩)

end Token

namespace Lexeme

/-- A character that may stand in an atom. A comma may do so outside groups only. -/
def isAtomChar (inGroup : Bool) (c : Char) : Bool :=
  !isBlank c && !punctuationChars.contains c && !(inGroup && c == ',')

/-- A text in front of which an atom ends. -/
def EndsAtom (inGroup : Bool) (after : Text) : Prop :=
  ∀ c, after.head? = some c → isAtomChar inGroup c = false

/-- The lexemes, each with the tokens it stands for in front of a given text. -/
inductive StandsFor (inGroup : Bool) : Text → List Token → Text → Prop where
  | separator (after : Text) (hgroup : inGroup = true) :
      StandsFor inGroup [','] [.separator] after
  | arrow (after : Text) : StandsFor inGroup ['-', '>'] [.arrow] after
  | punctuation (c : Char) (after : Text) (hc : c ∈ punctuationChars)
      (hopener : BracketKind.ofOpener? c = none) (harrow : c = '-' → after.head? ≠ some '>') :
      StandsFor inGroup [c] [Token.ofPunctuation c] after
  | atom (run after : Text) (hrun : run ≠ []) (hchars : ∀ c ∈ run, isAtomChar inGroup c = true)
      (hends : EndsAtom inGroup after) : StandsFor inGroup run (Token.ofAtom run) after

/-- An atom ends in front of a character that it cannot hold. -/
theorem endsAtom_cons (inGroup : Bool) (c : Char) (rest : Text) :
    EndsAtom inGroup (c :: rest) ↔ isAtomChar inGroup c = false := by
  constructor
  · intro h
    exact h c rfl
  · intro h d hd
    simp only [List.head?_cons, Option.some.injEq] at hd
    exact hd ▸ h

/-- No punctuation character is blank. -/
theorem not_isBlank_of_mem_punctuationChars (c : Char) (hc : c ∈ punctuationChars) :
    isBlank c = false := by
  have hall : ∀ d ∈ punctuationChars, isBlank d = false :=
    List.all_iff_forall_prop.mp (by decide)
  exact hall c hc

/-- A blank differs from every punctuation character. -/
theorem ne_of_isBlank {c d : Char} (hblank : isBlank c = true) (hd : d ∈ punctuationChars) :
    c ≠ d := by
  intro hsame
  rw [hsame, not_isBlank_of_mem_punctuationChars d hd] at hblank
  cases hblank

/-- Every opening bracket is a punctuation character. -/
theorem opener_mem_punctuationChars (kind : BracketKind) : kind.opener ∈ punctuationChars := by
  cases kind <;> decide

/-- Every closing bracket is a punctuation character. -/
theorem closer_mem_punctuationChars (kind : BracketKind) : kind.closer ∈ punctuationChars := by
  cases kind <;> decide

/-- A character of an atom is neither blank nor punctuation. -/
theorem isAtomChar_iff (inGroup : Bool) (c : Char) :
    isAtomChar inGroup c = true ↔
      isBlank c = false ∧ c ∉ punctuationChars ∧ (inGroup = true → c ≠ ',') := by
  cases inGroup <;> simp [isAtomChar, and_assoc]

/-- A character that cannot stand in an atom is blank or punctuation, or a comma in a group. -/
theorem isAtomChar_eq_false_iff (inGroup : Bool) (c : Char) :
    isAtomChar inGroup c = false ↔
      isBlank c = true ∨ c ∈ punctuationChars ∨ (inGroup = true ∧ c = ',') := by
  rw [← Bool.not_eq_true, isAtomChar_iff, ← Bool.not_eq_true]
  tauto

/-- Behind the longest run of its characters an atom ends. -/
theorem endsAtom_dropWhile (inGroup : Bool) (text : Text) :
    EndsAtom inGroup (text.dropWhile (isAtomChar inGroup)) := by
  intro c hc
  have hstop := List.head?_dropWhile_not (isAtomChar inGroup) text
  rwa [hc] at hstop

/-- A character that stands in an atom inside a group does so outside groups. -/
theorem isAtomChar_lenient {inGroup : Bool} {c : Char} (h : isAtomChar inGroup c = true) :
    isAtomChar false c = true := by
  obtain ⟨hblank, hpunctuation, -⟩ := (isAtomChar_iff inGroup c).mp h
  exact (isAtomChar_iff false c).mpr ⟨hblank, hpunctuation, nofun⟩

/-- No character of an atom is punctuation. -/
theorem not_isAtomChar_of_mem (inGroup : Bool) {c : Char} (hc : c ∈ punctuationChars) :
    isAtomChar inGroup c = false := by
  apply Bool.eq_false_iff.mpr
  intro hatom
  exact ((isAtomChar_iff inGroup c).mp hatom).2.1 hc

/-- No character of an atom is blank. -/
theorem not_isAtomChar_of_isBlank (inGroup : Bool) {c : Char} (hc : isBlank c = true) :
    isAtomChar inGroup c = false := by
  apply Bool.eq_false_iff.mpr
  intro hatom
  rw [((isAtomChar_iff inGroup c).mp hatom).1] at hc
  cases hc

/-- A character of an atom opens no group. -/
theorem ofOpener?_of_isAtomChar (inGroup : Bool) (c : Char) (hc : isAtomChar inGroup c = true) :
    BracketKind.ofOpener? c = none := by
  rw [isAtomChar_iff] at hc
  cases hkind : BracketKind.ofOpener? c with
  | none => rfl
  | some kind =>
    rw [BracketKind.ofOpener?_eq_some_iff] at hkind
    exact absurd (hkind ▸ opener_mem_punctuationChars kind) hc.2.1

/-- A lexeme starts with a character that is neither blank nor an opener. -/
theorem StandsFor.head {inGroup : Bool} {lexeme after : Text} {tokens : List Token}
    (h : StandsFor inGroup lexeme tokens after) :
    ∃ c rest, lexeme = c :: rest ∧ isBlank c = false ∧ BracketKind.ofOpener? c = none := by
  cases h with
  | separator _ hgroup => exact ⟨',', [], rfl, by decide, by decide⟩
  | arrow => exact ⟨'-', ['>'], rfl, by decide, by decide⟩
  | punctuation c _ hc hopener _ =>
    exact ⟨c, [], rfl, not_isBlank_of_mem_punctuationChars c hc, hopener⟩
  | atom _ _ hrun hchars _ =>
    cases lexeme with
    | nil => exact absurd rfl hrun
    | cons c rest =>
      have hc := hchars c List.mem_cons_self
      exact ⟨c, rest, rfl, ((isAtomChar_iff inGroup c).mp hc).1,
        ofOpener?_of_isAtomChar inGroup c hc⟩

/-- No character of a lexeme opens a group. -/
theorem StandsFor.ofOpener?_eq_none {inGroup : Bool} {lexeme after : Text}
    {tokens : List Token} (h : StandsFor inGroup lexeme tokens after) (c : Char)
    (hc : c ∈ lexeme) : BracketKind.ofOpener? c = none := by
  cases h with
  | separator _ _ =>
    rw [List.mem_singleton.mp hc]
    rfl
  | arrow =>
    rcases List.mem_pair.mp hc with rfl | rfl <;> rfl
  | punctuation d _ _ hopener _ =>
    rw [List.mem_singleton.mp hc]
    exact hopener
  | atom _ _ _ hchars _ =>
    exact ofOpener?_of_isAtomChar inGroup c (hchars c hc)

/-- Only the first character behind a lexeme matters. -/
theorem StandsFor.of_head? {inGroup : Bool} {lexeme after after' : Text} {tokens : List Token}
    (h : StandsFor inGroup lexeme tokens after) (hhead : after'.head? = after.head?) :
    StandsFor inGroup lexeme tokens after' := by
  cases h with
  | separator _ hgroup => exact .separator after' hgroup
  | arrow _ => exact .arrow after'
  | punctuation c _ hc hopener harrow =>
    exact .punctuation c after' hc hopener (hhead ▸ harrow)
  | atom _ _ hrun hchars hends =>
    apply StandsFor.atom lexeme after' hrun hchars
    intro c hc
    exact hends c (hhead ▸ hc)

/-! ### The atom matcher -/

/-- Outside the characters of atoms the end of an atom matches. -/
theorem span?_atomEnd_isNone (inGroup : Bool) (c : Char) (rest : Text) :
    ((atomEnd inGroup).span? (c :: rest)).isNone = isAtomChar inGroup c := by
  cases inGroup <;>
    by_cases hblank : isBlank c = true <;>
    by_cases hpunctuation : punctuationChars.contains c = true <;>
    by_cases hcomma : c = ',' <;>
    simp_all [atomEnd, blank, punctuation, comma, isAtomChar, Matcher.span?, Matcher.firstSpan?,
      Matcher.headSpan?]

/-- One character of an atom is any character where the atom does not end. -/
theorem totalSpan?_atomStep (inGroup : Bool) (text : Text) :
    Matcher.totalSpan? [.absence (atomEnd inGroup), anything] text =
      Matcher.headSpan? (isAtomChar inGroup) text := by
  cases text with
  | nil => cases inGroup <;> rfl
  | cons c rest =>
    simp only [Matcher.totalSpan?, Matcher.span?, span?_atomEnd_isNone, Matcher.headSpan?]
    by_cases hc : isAtomChar inGroup c = true <;> simp [hc, anything, Matcher.span?,
      Matcher.headSpan?]

end Lexeme

/-- Matching one character at a time matches the longest run of characters with the property. -/
theorem successive_headSpan? (property : Char → Bool) (text : Text) :
    successive (Matcher.headSpan? property) none text =
      List.replicate (text.takeWhile property).length 1 := by
  induction text with
  | nil => simp [successive]
  | cons c rest ih =>
    rw [successive]
    by_cases hc : property c = true
    · simp [Matcher.headSpan?, hc, ih, List.replicate_succ]
    · simp [Matcher.headSpan?, hc]

namespace Lexeme

/-- An atom is the longest run of atom characters, and there is none if that run is empty. -/
theorem span?_atom (inGroup : Bool) (text : Text) :
    (atom inGroup).span? text =
      if (text.takeWhile (isAtomChar inGroup)).isEmpty then none
      else some (text.takeWhile (isAtomChar inGroup)).length := by
  have hstep : Matcher.span? (.sequence [.absence (atomEnd inGroup), anything]) =
      Matcher.headSpan? (isAtomChar inGroup) := by
    funext text
    rw [Matcher.span?, totalSpan?_atomStep]
  have hminimum : (CountRange.atLeast 1).minimum = 1 := by decide
  have hmaximum : (CountRange.atLeast 1).maximum? = none := by decide
  have htotal (n : Nat) : (List.replicate n 1).foldr (· + ·) 0 = n := by
    induction n with
    | zero => rfl
    | succ n ih => rw [List.replicate_succ, List.foldr_cons, ih, Nat.add_comm]
  simp only [atom, Matcher.oneOrMoreUntil, Matcher.oneOrMore]
  rw [Matcher.span?, hstep, repeatedSpan?, hminimum, hmaximum, successive_headSpan?, htotal]
  cases text.takeWhile (isAtomChar inGroup) <;> simp

/-- The longest run of atom characters stops where an atom ends. -/
theorem takeWhile_isAtomChar (inGroup : Bool) (run after : Text)
    (hchars : ∀ c ∈ run, isAtomChar inGroup c = true) (hends : EndsAtom inGroup after) :
    (run ++ after).takeWhile (isAtomChar inGroup) = run := by
  rw [List.takeWhile_append_of_pos hchars]
  cases after with
  | nil => simp
  | cons c rest => simp [(endsAtom_cons inGroup c rest).mp hends]

/-! ### Reading one lexeme -/

/-- The classes of lexemes by the first characters of a text. -/
theorem read?_cons (inGroup : Bool) (c : Char) (rest : Text) :
    read? inGroup (c :: rest) =
      if inGroup = true ∧ c = ',' then some ([.separator], 1)
      else if c = '-' ∧ rest.head? = some '>' then some ([.arrow], 2)
      else if c ∈ punctuationChars then some ([Token.ofPunctuation c], 1)
      else ((atom inGroup).span? (c :: rest)).map fun n => (Token.ofAtom ((c :: rest).take n), n) := by
  have harrow : ['-', '>'].isPrefixOf (c :: rest) = decide (c = '-' ∧ rest.head? = some '>') := by
    rw [Bool.eq_iff_iff]
    cases rest <;> simp [List.isPrefixOf, @eq_comm _ '-', @eq_comm _ '>']
  unfold read? classes
  by_cases hseparator : inGroup = true ∧ c = ','
  · obtain ⟨rfl, rfl⟩ := hseparator
    simp [comma, Matcher.span?, Matcher.headSpan?]
  · have hskip : (if inGroup = true then [(comma, fun _ : Text => [Token.separator])] else []).findSome?
        (fun lexeme => (lexeme.1.span? (c :: rest)).map
          fun n => (lexeme.2 ((c :: rest).take n), n)) = none := by
      cases inGroup <;> simp_all [comma, Matcher.span?, Matcher.headSpan?]
    rw [List.findSome?_append, hskip, if_neg hseparator]
    by_cases ha : c = '-' ∧ rest.head? = some '>'
    · rw [decide_eq_true ha] at harrow
      simp only [arrow, List.findSome?_cons, Matcher.span?, harrow, if_true, if_pos ha]
      rfl
    · rw [decide_eq_false ha] at harrow
      rw [if_neg ha]
      by_cases hc : c ∈ punctuationChars
      · simp [arrow, punctuation, Matcher.span?, Matcher.headSpan?, harrow, hc]
      · simp [arrow, punctuation, Matcher.span?, Matcher.headSpan?, harrow, hc]

/-- The classes of lexemes read every lexeme as the tokens that it stands for. -/
theorem StandsFor.read? {inGroup : Bool} {lexeme after : Text} {tokens : List Token}
    (h : StandsFor inGroup lexeme tokens after) :
    Lexeme.read? inGroup (lexeme ++ after) = some (tokens, lexeme.length) := by
  cases h with
  | separator _ hgroup => simp [read?_cons, hgroup]
  | arrow => simp [read?_cons]
  | punctuation c _ hc hopener harrow =>
    have hcomma : c ≠ ',' := by
      intro hcomma
      rw [hcomma] at hc
      exact absurd hc (by decide)
    simp only [List.cons_append, List.nil_append, read?_cons, hcomma, and_false, if_false, hc,
      if_true, List.length_singleton]
    rw [if_neg fun h => harrow h.1 h.2]
  | atom _ _ hrun hchars hends =>
    have hspan := span?_atom inGroup (lexeme ++ after)
    rw [takeWhile_isAtomChar inGroup lexeme after hchars hends] at hspan
    cases lexeme with
    | nil => exact absurd rfl hrun
    | cons c rest =>
      obtain ⟨_, hpunctuation, hcomma⟩ := (isAtomChar_iff inGroup c).mp (hchars c List.mem_cons_self)
      have hdash : c ≠ '-' := by
        intro hdash
        rw [hdash] at hpunctuation
        exact hpunctuation (by decide)
      rw [List.cons_append] at hspan ⊢
      rw [read?_cons, if_neg fun h => hcomma h.1 h.2, if_neg fun h => hdash h.1,
        if_neg hpunctuation, hspan]
      simp

/-- Every text that starts with neither a blank nor an opener starts with a lexeme. -/
theorem exists_standsFor (inGroup : Bool) (c : Char) (rest : Text) (hblank : isBlank c = false)
    (hopener : BracketKind.ofOpener? c = none) :
    ∃ lexeme tokens after, c :: rest = lexeme ++ after ∧ StandsFor inGroup lexeme tokens after := by
  by_cases hpunctuation : c ∈ punctuationChars
  · by_cases harrow : c = '-' ∧ rest.head? = some '>'
    · obtain ⟨rfl, hhead⟩ := harrow
      obtain ⟨after, rfl⟩ := List.head?_eq_some_iff.mp hhead
      exact ⟨['-', '>'], [.arrow], after, rfl, .arrow after⟩
    · exact ⟨[c], _, rest, rfl,
        .punctuation c rest hpunctuation hopener fun hc hhead => harrow ⟨hc, hhead⟩⟩
  · by_cases hcomma : inGroup = true ∧ c = ','
    · obtain ⟨hgroup, rfl⟩ := hcomma
      exact ⟨[','], [.separator], rest, rfl, .separator rest hgroup⟩
    · have hc : isAtomChar inGroup c = true :=
        (isAtomChar_iff inGroup c).mpr ⟨hblank, hpunctuation, fun hgroup hc => hcomma ⟨hgroup, hc⟩⟩
      refine ⟨(c :: rest).takeWhile (isAtomChar inGroup), _,
        (c :: rest).dropWhile (isAtomChar inGroup), ?_, .atom _ _ ?_ ?_ ?_⟩
      · exact List.takeWhile_append_dropWhile.symm
      · simp [hc]
      · exact fun d hd => List.mem_takeWhile_imp hd
      · exact endsAtom_dropWhile inGroup (c :: rest)

end Lexeme

end LuauAnnotation
