import LuauAnnotation.Tokenizer
import Mathlib.Data.List.Infix

/-!
# Balanced texts

The interior of a group is found by counting openers and closers of one kind. Counting is
compared here with two properties of whole texts: a text is covered if every closer in it has an
opener before it, and balanced if moreover the two are equally many. The interior of a closed
group is balanced, and the text behind an opener that is never closed is covered.
-/

namespace LuauAnnotation

/-- No initial piece of the text holds more closers than openers, counting `depth` openers that
stand in front of the text. -/
def Covered (opener closer : Char) (depth : Nat) (text : Text) : Prop :=
  ∀ initial, initial <+: text → initial.count closer ≤ depth + initial.count opener

section

variable {opener closer : Char} {depth : Nat} {text rest : Text}

/-- The whole of a covered text holds no more closers than openers. -/
theorem Covered.count_le (h : Covered opener closer depth text) :
    text.count closer ≤ depth + text.count opener :=
  h text (List.prefix_refl text)

/-- The empty text is covered. -/
theorem covered_nil : Covered opener closer depth [] := by
  intro initial hinitial
  simp [List.prefix_nil.mp hinitial]

/-- A text is covered if all that starts with its first character is. -/
theorem covered_cons (c : Char) :
    Covered opener closer depth (c :: rest) ↔
      ∀ initial, initial <+: rest →
        (c :: initial).count closer ≤ depth + (c :: initial).count opener := by
  constructor
  · intro h initial hinitial
    exact h (c :: initial) (List.cons_prefix_cons.mpr ⟨rfl, hinitial⟩)
  · intro h initial hinitial
    rcases List.prefix_cons_iff.mp hinitial with rfl | ⟨inner, rfl, hinner⟩
    · simp
    · exact h inner hinner

/-- Behind an opener one more closer is covered. -/
theorem covered_cons_opener (hne : opener ≠ closer) :
    Covered opener closer depth (opener :: rest) ↔ Covered opener closer (depth + 1) rest := by
  rw [covered_cons]
  refine forall₂_congr fun initial _ => ?_
  rw [List.count_cons_self, List.count_cons_of_ne hne]
  omega

/-- A closer uses up one of the openers in front of it. -/
theorem covered_cons_closer (hne : opener ≠ closer) :
    Covered opener closer (depth + 1) (closer :: rest) ↔ Covered opener closer depth rest := by
  rw [covered_cons]
  refine forall₂_congr fun initial _ => ?_
  rw [List.count_cons_self, List.count_cons_of_ne hne.symm]
  omega

/-- A closer without an opener in front of it is not covered. -/
theorem not_covered_cons_closer (hne : opener ≠ closer) :
    ¬ Covered opener closer 0 (closer :: rest) := by
  intro h
  have hfirst := (covered_cons closer).mp h [] List.nil_prefix
  simp [hne.symm] at hfirst

/-- Other characters do not matter. -/
theorem covered_cons_other (c : Char) (hopener : c ≠ opener) (hcloser : c ≠ closer) :
    Covered opener closer depth (c :: rest) ↔ Covered opener closer depth rest := by
  rw [covered_cons]
  refine forall₂_congr fun initial _ => ?_
  rw [List.count_cons_of_ne hcloser, List.count_cons_of_ne hopener]

/-- Two covered texts form one, where the first hands on the openers that it leaves open. -/
theorem Covered.append (htext : Covered opener closer depth text)
    (hrest : Covered opener closer (depth + text.count opener - text.count closer) rest) :
    Covered opener closer depth (text ++ rest) := by
  intro initial hinitial
  rcases List.prefix_or_prefix_of_prefix hinitial (List.prefix_append text rest) with
    hfirst | ⟨inner, rfl⟩
  · exact htext initial hfirst
  · have hwhole := htext.count_le
    have hlast := hrest inner ((List.prefix_append_right_inj text).mp hinitial)
    simp only [List.count_append]
    omega

/-- The first part of a covered text is covered. -/
theorem Covered.left (h : Covered opener closer depth (text ++ rest)) :
    Covered opener closer depth text :=
  fun initial hinitial => h initial (hinitial.trans (List.prefix_append text rest))

/-- The second part of a covered text is covered by the openers that the first leaves open. -/
theorem Covered.right (h : Covered opener closer depth (text ++ rest)) :
    Covered opener closer (depth + text.count opener - text.count closer) rest := by
  intro initial hinitial
  have hwhole := h (text ++ initial) ((List.prefix_append_right_inj text).mpr hinitial)
  have hfirst := h.left.count_le
  rw [List.count_append, List.count_append] at hwhole
  omega

/-- An opener is counted. -/
theorem balancedSpan_opener :
    balancedSpan opener closer depth (opener :: rest) =
      balancedSpan opener closer (depth + 1) rest + 1 := by
  simp [balancedSpan]

/-- A closer of a counted opener is passed over. -/
theorem balancedSpan_closer_succ (hne : opener ≠ closer) :
    balancedSpan opener closer (depth + 1) (closer :: rest) =
      balancedSpan opener closer depth rest + 1 := by
  simp [balancedSpan, hne.symm]

/-- A closer too many is where counting ends. -/
theorem balancedSpan_closer_zero (hne : opener ≠ closer) :
    balancedSpan opener closer 0 (closer :: rest) = 0 := by
  simp [balancedSpan, hne.symm]

/-- Other characters are passed over. -/
theorem balancedSpan_other (c : Char) (hopener : c ≠ opener) (hcloser : c ≠ closer) :
    balancedSpan opener closer depth (c :: rest) = balancedSpan opener closer depth rest + 1 := by
  simp [balancedSpan, hopener, hcloser]

/-- More openers in front cover no less. -/
theorem Covered.mono {more : Nat} (h : Covered opener closer depth text) (hmore : depth ≤ more) :
    Covered opener closer more text := by
  intro initial hinitial
  have hcount := h initial hinitial
  omega

/-- Characters that are neither openers nor closers may be erased. -/
theorem covered_filter_iff {keeps : Char → Bool} (hopener : keeps opener = true)
    (hcloser : keeps closer = true) :
    Covered opener closer depth (text.filter keeps) ↔ Covered opener closer depth text := by
  constructor
  · intro h initial hinitial
    have hcount := h (initial.filter keeps) (hinitial.filter keeps)
    rwa [List.count_filter hopener, List.count_filter hcloser] at hcount
  · intro h initial hinitial
    obtain ⟨whole, hwhole, rfl⟩ := List.prefix_filter_iff.mp hinitial
    rw [List.count_filter hopener, List.count_filter hcloser]
    exact h whole hwhole

/-- Counting passes over a covered text and remembers the openers that it leaves open. -/
theorem balancedSpan_append (hne : opener ≠ closer) (h : Covered opener closer depth text) :
    balancedSpan opener closer depth (text ++ rest) =
      text.length +
        balancedSpan opener closer (depth + text.count opener - text.count closer) rest := by
  induction text generalizing depth with
  | nil => simp
  | cons c text ih =>
    rw [List.cons_append, List.length_cons]
    by_cases hopener : c = opener
    · subst hopener
      have hdepth : depth + 1 + text.count c - text.count closer =
          depth + (text.count c + 1) - text.count closer := by omega
      rw [balancedSpan_opener, ih ((covered_cons_opener hne).mp h), List.count_cons_self,
        List.count_cons_of_ne hne, hdepth]
      omega
    · by_cases hcloser : c = closer
      · subst hcloser
        cases depth with
        | zero => exact absurd h (not_covered_cons_closer hne)
        | succ depth =>
          have hdepth : depth + 1 + text.count opener - (text.count c + 1) =
              depth + text.count opener - text.count c := by omega
          rw [balancedSpan_closer_succ hne, ih ((covered_cons_closer hne).mp h),
            List.count_cons_self, List.count_cons_of_ne hopener, hdepth]
          omega
      · rw [balancedSpan_other c hopener hcloser,
          ih ((covered_cons_other c hopener hcloser).mp h), List.count_cons_of_ne hopener,
          List.count_cons_of_ne hcloser]
        omega

/-- A character that opens and closes never closes too much. -/
theorem covered_self (c : Char) (depth : Nat) (text : Text) : Covered c c depth text :=
  fun initial _ => Nat.le_add_left (initial.count c) depth

/-- A character that opens and closes is counted as an opener. -/
theorem balancedSpan_self (c : Char) (depth : Nat) (text : Text) :
    balancedSpan c c depth text = text.length := by
  induction text generalizing depth with
  | nil => rw [balancedSpan, List.length_nil]
  | cons d text ih =>
    rw [List.length_cons]
    by_cases hd : d = c
    · rw [hd, balancedSpan_opener, ih]
    · rw [balancedSpan_other d hd hd, ih]

/-- The whole of a covered text is counted. -/
theorem balancedSpan_of_covered (h : Covered opener closer depth text) :
    balancedSpan opener closer depth text = text.length := by
  by_cases hne : opener = closer
  · subst hne
    exact balancedSpan_self opener depth text
  · have hspan : balancedSpan opener closer depth (text ++ []) = _ := balancedSpan_append hne h
    rwa [List.append_nil, balancedSpan, Nat.add_zero] at hspan

/-- Counting ends in front of the closer that uses up one opener more than there are. -/
theorem balancedSpan_append_closer (hne : opener ≠ closer) (h : Covered opener closer depth text)
    (hcount : text.count closer = depth + text.count opener) :
    balancedSpan opener closer depth (text ++ closer :: rest) = text.length := by
  rw [balancedSpan_append hne h, hcount, Nat.sub_self, balancedSpan_closer_zero hne, Nat.add_zero]

/-- A text that is not covered has a first closer too many, and what stands before that closer
is covered and leaves nothing open. -/
theorem exists_closer_of_not_covered (hne : opener ≠ closer)
    (h : ¬ Covered opener closer depth text) :
    ∃ interior rest, text = interior ++ closer :: rest ∧ Covered opener closer depth interior ∧
      interior.count closer = depth + interior.count opener := by
  induction text generalizing depth with
  | nil => exact absurd covered_nil h
  | cons c text ih =>
    by_cases hopener : c = opener
    · subst hopener
      rw [covered_cons_opener hne] at h
      obtain ⟨interior, rest, rfl, hcovered, hcount⟩ := ih h
      refine ⟨c :: interior, rest, rfl, (covered_cons_opener hne).mpr hcovered, ?_⟩
      rw [List.count_cons_self, List.count_cons_of_ne hne]
      omega
    · by_cases hcloser : c = closer
      · subst hcloser
        cases depth with
        | zero => exact ⟨[], text, rfl, covered_nil, by simp⟩
        | succ depth =>
          rw [covered_cons_closer hne] at h
          obtain ⟨interior, rest, rfl, hcovered, hcount⟩ := ih h
          refine ⟨c :: interior, rest, rfl, (covered_cons_closer hne).mpr hcovered, ?_⟩
          rw [List.count_cons_self, List.count_cons_of_ne hopener]
          omega
      · rw [covered_cons_other c hopener hcloser] at h
        obtain ⟨interior, rest, rfl, hcovered, hcount⟩ := ih h
        refine ⟨c :: interior, rest, rfl, (covered_cons_other c hopener hcloser).mpr hcovered, ?_⟩
        rwa [List.count_cons_of_ne hopener, List.count_cons_of_ne hcloser]

end

namespace BracketKind

/-- No character opens and closes groups of one kind. -/
theorem opener_ne_closer (kind other : BracketKind) : kind.opener ≠ other.closer := by
  cases kind <;> cases other <;> decide

/-- An opener determines its kind. -/
theorem opener_inj (kind other : BracketKind) : kind.opener = other.opener ↔ kind = other := by
  cases kind <;> cases other <;> decide

/-- A closer determines its kind. -/
theorem closer_inj (kind other : BracketKind) : kind.closer = other.closer ↔ kind = other := by
  cases kind <;> cases other <;> decide

/-- A pair of brackets holds as many openers as closers of each kind. -/
theorem count_pair (kind other : BracketKind) :
    [kind.opener].count other.closer + [kind.closer].count other.closer =
      [kind.opener].count other.opener + [kind.closer].count other.opener := by
  cases kind <;> cases other <;> decide

/-- Behind an opener of this kind the text does not close the group. -/
def Unclosed (kind : BracketKind) (text : Text) : Prop :=
  Covered kind.opener kind.closer 0 text

/-- Openers and closers of this kind match each other in the text. -/
structure Balanced (kind : BracketKind) (text : Text) : Prop where
  covered : Covered kind.opener kind.closer 0 text
  count_eq : text.count kind.closer = text.count kind.opener

/-- A text without brackets of this kind is balanced. -/
theorem balanced_of_not_mem (kind : BracketKind) (text : Text) (hopener : kind.opener ∉ text)
    (hcloser : kind.closer ∉ text) : kind.Balanced text := by
  have hnone : text.count kind.closer = 0 := List.count_eq_zero.mpr hcloser
  refine ⟨fun initial hinitial => ?_, ?_⟩
  · have hinitially : initial.count kind.closer = 0 :=
      List.count_eq_zero.mpr fun hmem => hcloser (hinitial.subset hmem)
    omega
  · rw [hnone, List.count_eq_zero.mpr hopener]

/-- Characters other than the brackets of a kind do not matter for their balance. -/
theorem balanced_filter_iff {kind : BracketKind} {text : Text} {keeps : Char → Bool}
    (hopener : keeps kind.opener = true) (hcloser : keeps kind.closer = true) :
    kind.Balanced (text.filter keeps) ↔ kind.Balanced text := by
  have hcount : (text.filter keeps).count kind.closer = (text.filter keeps).count kind.opener ↔
      text.count kind.closer = text.count kind.opener := by
    rw [List.count_filter hopener, List.count_filter hcloser]
  constructor
  · intro h
    exact ⟨(covered_filter_iff hopener hcloser).mp h.covered, hcount.mp h.count_eq⟩
  · intro h
    exact ⟨(covered_filter_iff hopener hcloser).mpr h.covered, hcount.mpr h.count_eq⟩

/-- Balanced texts form a balanced text. -/
theorem Balanced.append {kind : BracketKind} {left right : Text} (hleft : kind.Balanced left)
    (hright : kind.Balanced right) : kind.Balanced (left ++ right) := by
  refine ⟨hleft.covered.append (hright.covered.mono (Nat.zero_le _)), ?_⟩
  rw [List.count_append, List.count_append, hleft.count_eq, hright.count_eq]

/-- A pair of brackets around a balanced text is balanced. -/
theorem Balanced.group {kind : BracketKind} {text : Text} (h : kind.Balanced text) :
    kind.Balanced (kind.opener :: (text ++ [kind.closer])) := by
  have hne := kind.opener_ne_closer kind
  refine ⟨(covered_cons_opener hne).mpr ?_, ?_⟩
  · have hopen : 0 + 1 + text.count kind.opener - text.count kind.closer = 0 + 1 := by
      rw [h.count_eq]
      omega
    refine (h.covered.mono (Nat.zero_le _)).append ?_
    rw [hopen]
    exact (covered_cons_closer hne).mpr covered_nil
  · simp [h.count_eq, hne, hne.symm]

/-- A pair of brackets of any kind around a balanced text is balanced. -/
theorem Balanced.pair {kind : BracketKind} {text : Text} (h : kind.Balanced text)
    (other : BracketKind) : kind.Balanced (other.opener :: (text ++ [other.closer])) := by
  by_cases hkind : kind = other
  · subst hkind
    exact h.group
  · have hopener : kind.Balanced [other.opener] := by
      apply kind.balanced_of_not_mem
      · simpa [kind.opener_inj other] using hkind
      · simpa using (other.opener_ne_closer kind).symm
    have hcloser : kind.Balanced [other.closer] := by
      apply kind.balanced_of_not_mem
      · simpa using kind.opener_ne_closer other
      · simpa [kind.closer_inj other] using hkind
    exact hopener.append (h.append hcloser)

/-- The interior of a closed group is the balanced text in front of its closer. -/
theorem interiorSpan_of_balanced (kind : BracketKind) (interior rest : Text)
    (h : kind.Balanced interior) :
    kind.interiorSpan (interior ++ kind.closer :: rest) = interior.length := by
  have hcount : interior.count kind.closer = 0 + interior.count kind.opener := by
    rw [Nat.zero_add, h.count_eq]
  exact balancedSpan_append_closer (kind.opener_ne_closer kind) h.covered hcount

/-- A group that is never closed reaches to the end of its text. -/
theorem interiorSpan_of_unclosed (kind : BracketKind) (text : Text) (h : kind.Unclosed text) :
    kind.interiorSpan text = text.length :=
  balancedSpan_of_covered h

/-- A closer ends at most one balanced text. -/
theorem balanced_split_unique {kind : BracketKind} {interior rest interior' rest' : Text}
    (h : kind.Balanced interior) (h' : kind.Balanced interior')
    (htext : interior ++ kind.closer :: rest = interior' ++ kind.closer :: rest') :
    interior = interior' ∧ rest = rest' := by
  have hspan := kind.interiorSpan_of_balanced interior rest h
  rw [htext, kind.interiorSpan_of_balanced interior' rest' h'] at hspan
  obtain ⟨hinterior, hclosing⟩ := List.append_inj htext hspan.symm
  exact ⟨hinterior, (List.cons.inj hclosing).2⟩

/-- A text in which the group is closed does not leave it open. -/
theorem not_unclosed_split {kind : BracketKind} {interior rest : Text} (h : kind.Balanced interior) :
    ¬ kind.Unclosed (interior ++ kind.closer :: rest) := by
  intro hopen
  have hspan := kind.interiorSpan_of_balanced interior rest h
  rw [kind.interiorSpan_of_unclosed _ hopen] at hspan
  simp at hspan

/-- Behind an opener the group is closed or reaches to the end of its text. -/
theorem unclosed_or_balanced (kind : BracketKind) (text : Text) :
    kind.Unclosed text ∨
      ∃ interior rest, text = interior ++ kind.closer :: rest ∧ kind.Balanced interior := by
  by_cases h : kind.Unclosed text
  · exact Or.inl h
  · obtain ⟨interior, rest, htext, hcovered, hcount⟩ :=
      exists_closer_of_not_covered (kind.opener_ne_closer kind) h
    exact Or.inr ⟨interior, rest, htext, hcovered, by omega⟩

end BracketKind

end LuauAnnotation
