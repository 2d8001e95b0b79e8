import LuauAnnotation.Proofs.Pieces
import Mathlib.Order.Bounds.Basic

/-!
# Repetitions and their ranges

A repetition takes the greatest number of pieces that its range accepts. A range accepts the counts
between its ends, with two exceptions: an end just behind the greatest word is taken for an end just
behind nothing, and the count zero is accepted even in front of the end zero.
-/

namespace LuauAnnotation

namespace CountBound

/-- The greatest word. -/
def greatest : UInt64 := 0xFFFFFFFFFFFFFFFF

/-- A count that the bound leaves in as a lower end. -/
def AdmitsAbove : CountBound → Nat → Prop
  | .included least, count => least.toNat ≤ count
  | .excluded below, count => below.toNat < count
  | .unbounded, _ => True

/-- A count that the bound leaves in as an upper end. -/
def AdmitsBelow : CountBound → Nat → Prop
  | .included most, count => count ≤ most.toNat
  | .excluded above, count => count < above.toNat
  | .unbounded, _ => True

end CountBound

namespace CountRange

open CountBound (greatest)

/-- A count between the ends of the range. -/
def Contains (range : CountRange) (count : Nat) : Prop :=
  range.lower.AdmitsAbove count ∧ range.upper.AdmitsBelow count

/-- A count that a repetition takes to be in the range. A lower end behind the greatest word and an
upper end at the greatest word are no ends, and the upper end in front of zero leaves zero in. -/
def Accepts (range : CountRange) (count : Nat) : Prop :=
  (range.lower.AdmitsAbove count ∨ range.lower = .excluded greatest) ∧
    (range.upper.AdmitsBelow count ∨ range.upper = .included greatest ∨
      (range.upper = .excluded 0 ∧ count = 0))

/-- Only the greatest word has no successor. -/
theorem toNat_add_one_lt_iff (n : UInt64) : n.toNat + 1 < UInt64.size ↔ n ≠ greatest := by
  have hlt := n.toNat_lt_size
  have hgreatest : greatest.toNat + 1 = UInt64.size := by decide
  rw [Ne, ← UInt64.toNat_inj]
  omega

/-- A count is above the smallest of the range if it passes the lower end, or if the lower end is
behind the greatest word. -/
theorem minimum_le_iff (range : CountRange) (count : Nat) :
    range.minimum ≤ count ↔
      range.lower.AdmitsAbove count ∨ range.lower = .excluded greatest := by
  rw [minimum]
  cases range.lower with
  | included least => simp [CountBound.AdmitsAbove]
  | unbounded => simp [CountBound.AdmitsAbove]
  | excluded below =>
    simp only [CountBound.AdmitsAbove, CountBound.excluded.injEq]
    by_cases hbelow : below = greatest
    · have hwrapped : (greatest + 1).toNat = 0 := by decide
      rw [hbelow, hwrapped]
      simp
    · have hlt := (toNat_add_one_lt_iff below).mpr hbelow
      have hsucc : (below + 1).toNat = below.toNat + 1 := by
        rw [UInt64.toNat_add]
        exact Nat.mod_eq_of_lt hlt
      rw [hsucc, or_iff_left hbelow, Nat.succ_le_iff]

/-- A count is below the largest of the range if it passes the upper end, if the upper end is at the
greatest word, or if both are zero. -/
theorem le_maximum_iff (range : CountRange) (count : Nat) :
    (∀ most, range.maximum? = some most → count ≤ most) ↔
      range.upper.AdmitsBelow count ∨ range.upper = .included greatest ∨
        (range.upper = .excluded 0 ∧ count = 0) := by
  rw [maximum?, ceiling?]
  cases range.upper with
  | unbounded => simp [CountBound.AdmitsBelow]
  | included most =>
    simp only [CountBound.AdmitsBelow, CountBound.included.injEq, reduceCtorEq, false_and, or_false]
    by_cases hmost : most = greatest
    · have hfull := mt (toNat_add_one_lt_iff most).mp (not_not_intro hmost)
      rw [if_neg hfull]
      simp [hmost]
    · rw [if_pos ((toNat_add_one_lt_iff most).mpr hmost)]
      simp [hmost]
  | excluded above =>
    simp only [Option.map_some, Option.some.injEq, forall_eq', CountBound.AdmitsBelow,
      CountBound.excluded.injEq, reduceCtorEq, false_or]
    have hzero : above = 0 ↔ above.toNat = 0 := by
      rw [← UInt64.toNat_inj]
      rfl
    rw [hzero]
    omega

/-- Up to the greatest word a repetition accepts what its range contains, unless the lower end is
behind the greatest word or the upper end in front of zero. -/
theorem accepts_iff_contains {range : CountRange} (hlower : range.lower ≠ .excluded greatest)
    (hupper : range.upper ≠ .excluded 0) {count : Nat} (hcount : count < UInt64.size) :
    range.Accepts count ↔ range.Contains count := by
  have hgreatest : range.upper = .included greatest → range.upper.AdmitsBelow count := by
    intro h
    rw [h, CountBound.AdmitsBelow]
    exact Nat.le_of_lt_succ hcount
  rw [Accepts, Contains]
  tauto

end CountRange

/-! ### The greatest number of pieces -/

/-- The pieces up to a limit are as many as there are, but no more than the limit allows. -/
theorem isGreatest_takeUpTo (limit : Option Nat) (pieces : List Text) :
    IsGreatest {k | k ≤ pieces.length ∧ ∀ most, limit = some most → k ≤ most}
      (takeUpTo limit pieces).length := by
  cases limit with
  | none => exact ⟨⟨Nat.le_refl _, nofun⟩, fun k hk => hk.1⟩
  | some most =>
    rw [takeUpTo, List.length_take]
    refine ⟨⟨Nat.min_le_right _ _, ?_⟩, fun k hk => ?_⟩
    · rintro _ ⟨⟩
      exact Nat.min_le_left _ _
    · exact Nat.le_min.mpr ⟨hk.2 most rfl, hk.1⟩

/-- The pieces up to a limit are the first of all pieces. -/
theorem take_length_takeUpTo (limit : Option Nat) (pieces : List Text) :
    pieces.take (takeUpTo limit pieces).length = takeUpTo limit pieces := by
  cases limit with
  | none => exact List.take_length
  | some most => rw [takeUpTo, List.length_take, ← List.take_eq_take_min]

namespace CountRange

/-- The greatest accepted number of pieces is the number of pieces up to the largest count, if that
is not below the smallest. -/
theorem isGreatest_accepts_iff (range : CountRange) (pieces : List Text) (k : Nat) :
    IsGreatest {k | k ≤ pieces.length ∧ range.Accepts k} k ↔
      range.minimum ≤ (takeUpTo range.maximum? pieces).length ∧
        k = (takeUpTo range.maximum? pieces).length := by
  obtain ⟨⟨hle, hmost⟩, hgreatest⟩ := isGreatest_takeUpTo range.maximum? pieces
  have haccepts (count : Nat) : range.Accepts count ↔
      range.minimum ≤ count ∧ ∀ most, range.maximum? = some most → count ≤ most := by
    rw [Accepts, minimum_le_iff, le_maximum_iff]
  simp only [haccepts]
  constructor
  · rintro ⟨⟨hk, hminimum, hmaximum⟩, hbound⟩
    have hbelow := hgreatest ⟨hk, hmaximum⟩
    have henough := Nat.le_trans hminimum hbelow
    exact ⟨henough, Nat.le_antisymm hbelow (hbound ⟨hle, henough, hmost⟩)⟩
  · rintro ⟨henough, rfl⟩
    exact ⟨⟨hle, henough, hmost⟩, fun count hcount => hgreatest ⟨hcount.1, hcount.2.2⟩⟩

end CountRange

/-- A match is repeated over the greatest number of pieces that the range accepts, and over none if
there is no such number. -/
theorem repeatedSpan?_isGreatest {step : Text → Option Nat} (hwithin : StaysWithin step)
    (range : CountRange) (text : Text) :
    ∃ pieces, (∀ others, Pieces step text others ↔ others = pieces) ∧
      ∀ n, repeatedSpan? step range text = some n ↔
        ∃ k, IsGreatest {k | k ≤ pieces.length ∧ range.Accepts k} k ∧
          n = (pieces.take k).flatten.length := by
  obtain ⟨pieces, hpieces⟩ := exists_pieces hwithin text
  refine ⟨pieces, fun others => ?_, fun n => ?_⟩
  · exact ⟨fun hothers => hothers.unique hpieces, fun h => h ▸ hpieces⟩
  · simp only [range.isGreatest_accepts_iff pieces]
    rw [hpieces.repeatedSpan?_eq range]
    split
    · next henough =>
      rw [Option.some.injEq]
      constructor
      · rintro rfl
        exact ⟨_, ⟨henough, rfl⟩, by rw [take_length_takeUpTo]⟩
      · rintro ⟨_, ⟨-, rfl⟩, rfl⟩
        rw [take_length_takeUpTo]
    · next hfew =>
      constructor
      · exact nofun
      · rintro ⟨_, ⟨henough, -⟩, -⟩
        exact absurd henough hfew

namespace Matcher

open CountBound (greatest)

/-- A repetition takes the greatest number of pieces that its range accepts, and does not match if
there is none. It accepts the counts that the range contains, unless the lower end is behind the
greatest word or the upper end in front of zero. -/
theorem repetition_isGreatest (matcher : Matcher) (range : CountRange) (text : Text) :
    ∃ pieces, (∀ others, Pieces matcher.span? text others ↔ others = pieces) ∧
      (∀ n, (Matcher.repetition matcher range).length? text = some n ↔
        ∃ k, IsGreatest {k | k ≤ pieces.length ∧ range.Accepts k} k ∧
          n = Text.bytes (pieces.take k).flatten) ∧
      (range.lower ≠ .excluded greatest → range.upper ≠ .excluded 0 →
        ∀ k < UInt64.size, (range.Accepts k ↔ range.Contains k)) := by
  obtain ⟨pieces, hpieces, hspan⟩ :=
    repeatedSpan?_isGreatest (span?_staysWithin matcher) range text
  refine ⟨pieces, hpieces, fun n => ?_, fun hlower hupper k hk => ?_⟩
  · have htake (k : Nat) : text.take (pieces.take k).flatten.length = (pieces.take k).flatten :=
      ((hpieces pieces).mpr rfl).take_flatten_take k
    rw [length?, span?, Option.map_eq_some_iff]
    simp only [hspan]
    constructor
    · rintro ⟨_, ⟨k, hk, rfl⟩, rfl⟩
      exact ⟨k, hk, by rw [htake]⟩
    · rintro ⟨k, hk, rfl⟩
      exact ⟨_, ⟨k, hk, rfl⟩, by rw [htake]⟩
  · exact CountRange.accepts_iff_contains hlower hupper hk

/-- Of four pairs a repetition takes three, the greatest number that its range contains. -/
theorem repetition_isGreatest_pairs :
    let range : CountRange := ⟨.included 2, .included 3⟩
    let pairs := ['a', 'b', 'a', 'b', 'a', 'b', 'a', 'b']
    (Matcher.repetition (.literal ['a', 'b']) range).length? pairs = some 6 ∧
      ∃ pieces k, Pieces (Matcher.literal ['a', 'b']).span? pairs pieces ∧
        IsGreatest {k | k ≤ pieces.length ∧ range.Accepts k} k ∧ range.Contains k ∧
        6 = Text.bytes (pieces.take k).flatten := by
  intro range pairs
  have hlength : (Matcher.repetition (.literal ['a', 'b']) range).length? pairs = some 6 := by
    decide +kernel
  obtain ⟨pieces, hpieces, hmatch, hcontains⟩ :=
    repetition_isGreatest (.literal ['a', 'b']) range pairs
  obtain ⟨k, hgreatest, hbytes⟩ := (hmatch 6).mp hlength
  have hle : k ≤ 3 := (range.le_maximum_iff k).mpr hgreatest.1.2.2 3 rfl
  have hk : range.Contains k :=
    (hcontains (by decide) (by decide) k (Nat.lt_of_le_of_lt hle (by decide))).mp hgreatest.1.2
  exact ⟨hlength, pieces, k, (hpieces pieces).mpr rfl, hgreatest, hk, hbytes⟩

/-- No count is in front of zero, but a repetition with such a range matches nothing at all and does
not fail. -/
theorem repetition_before_zero :
    (∀ k, ¬ CountRange.Contains ⟨.unbounded, .excluded 0⟩ k) ∧
      (Matcher.repetition (.char 'x') ⟨.unbounded, .excluded 0⟩).length? ['x'] = some 0 := by
  refine ⟨?_, by decide +kernel⟩
  rintro k ⟨-, hbelow⟩
  exact Nat.not_lt_zero k hbelow

end Matcher

end LuauAnnotation
