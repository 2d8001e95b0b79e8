import LuauAnnotation.Matcher.Basic
import Mathlib.Data.List.Basic

/-!
# Successive matches

A matcher never matches more than there is. So its successive matches cut pieces from the start of
a text, one behind the other, up to the first place where it matches nothing or only the empty text.
These pieces are determined by the text, and a repetition takes the first of them, as many as its
range of counts admits.
-/

namespace LuauAnnotation

/-- A way to match that takes no more characters than there are. -/
def StaysWithin (step : Text → Option Nat) : Prop :=
  ∀ text n, step text = some n → n ≤ text.length

/-- The pieces of a text that successive non-empty matches take from its start. -/
inductive Pieces (step : Text → Option Nat) : Text → List Text → Prop where
  | done {text : Text} (hnone : step text = none ∨ step text = some 0) : Pieces step text []
  | more {piece rest : Text} {pieces : List Text} (hne : piece ≠ [])
      (hstep : step (piece ++ rest) = some piece.length) (hrest : Pieces step rest pieces) :
      Pieces step (piece ++ rest) (piece :: pieces)

variable {step : Text → Option Nat} {text : Text} {pieces : List Text}

/-- The pieces stand at the start of the text. -/
theorem Pieces.exists_eq_append (h : Pieces step text pieces) :
    ∃ rest, text = pieces.flatten ++ rest := by
  induction h with
  | @done text _ => exact ⟨text, rfl⟩
  | @more piece _ pieces _ _ _ ih =>
    obtain ⟨rest, rfl⟩ := ih
    exact ⟨rest, by rw [List.flatten_cons, List.append_assoc]⟩

/-- The widths of the pieces are the lengths of the successive matches. -/
theorem Pieces.successive_eq (h : Pieces step text pieces) :
    successive step none text = pieces.map List.length := by
  induction h with
  | @done text hnone =>
    cases text with
    | nil => simp [successive]
    | cons c rest =>
      rw [successive]
      rcases hnone with hnone | hnone <;> simp [hnone]
  | @more piece rest pieces hne hstep _ ih =>
    obtain ⟨c, piece, rfl⟩ := List.exists_cons_of_ne_nil hne
    rw [List.cons_append] at hstep ⊢
    rw [successive, hstep]
    simp [ih]

/-- Matches that stay within their texts cut every text into pieces. -/
theorem exists_pieces (hwithin : StaysWithin step) (text : Text) :
    ∃ pieces, Pieces step text pieces := by
  induction size : text.length using Nat.strongRecOn generalizing text with
  | _ size shorter =>
    match hstep : step text with
    | none => exact ⟨[], .done (.inl hstep)⟩
    | some 0 => exact ⟨[], .done (.inr hstep)⟩
    | some (n + 1) =>
      obtain ⟨piece, rest, rfl, hlength⟩ :
          ∃ piece rest, text = piece ++ rest ∧ piece.length = n + 1 :=
        ⟨text.take (n + 1), text.drop (n + 1), (List.take_append_drop _ _).symm,
          List.length_take_of_le (hwithin text (n + 1) hstep)⟩
      rw [List.length_append, hlength] at size
      obtain ⟨pieces, hrest⟩ := shorter rest.length (by omega) rest rfl
      have hne : piece ≠ [] := List.ne_nil_of_length_eq_add_one hlength
      exact ⟨piece :: pieces, .more hne (by rw [hstep, hlength]) hrest⟩

/-- A text has its pieces and no others. -/
theorem Pieces.unique {others : List Text} (h : Pieces step text pieces)
    (h' : Pieces step text others) : pieces = others := by
  induction h generalizing others with
  | done hnone =>
    cases h' with
    | done _ => rfl
    | more hne hstep _ =>
      rw [hstep] at hnone
      simp [hne] at hnone
  | @more piece rest pieces hne hstep _ ih =>
    generalize htext : piece ++ rest = text at h'
    cases h' with
    | done hnone =>
      rw [← htext, hstep] at hnone
      simp [hne] at hnone
    | @more piece' rest' _ _ hstep' hrest' =>
      rw [← htext, hstep, Option.some.injEq] at hstep'
      obtain ⟨rfl, rfl⟩ := List.append_inj htext hstep'
      rw [ih hrest']

/-- No piece is empty. -/
theorem Pieces.ne_nil (h : Pieces step text pieces) : ∀ piece ∈ pieces, piece ≠ [] := by
  induction h with
  | done _ => exact nofun
  | more hne _ _ ih => exact List.forall_mem_cons.mpr ⟨hne, ih⟩

/-- Some of the pieces are as long as their lengths together. -/
theorem foldr_map_length (pieces : List Text) :
    (pieces.map List.length).foldr (· + ·) 0 = pieces.flatten.length := by
  induction pieces with
  | nil => rfl
  | cons piece pieces ih => simp [ih]

/-- No more pieces are taken than a limit allows. -/
def takeUpTo (limit : Option Nat) (pieces : List Text) : List Text :=
  match limit with
  | some most => pieces.take most
  | none => pieces

/-- Pieces up to a limit are pieces. -/
theorem mem_of_mem_takeUpTo {limit : Option Nat} {piece : Text}
    (h : piece ∈ takeUpTo limit pieces) : piece ∈ pieces := by
  cases limit with
  | none => exact h
  | some most => exact List.mem_of_mem_take h

/-- The pieces up to a limit stand at the start of the text. -/
theorem Pieces.exists_eq_takeUpTo_append (h : Pieces step text pieces) (limit : Option Nat) :
    ∃ rest, text = (takeUpTo limit pieces).flatten ++ rest := by
  obtain ⟨rest, rfl⟩ := h.exists_eq_append
  cases limit with
  | none => exact ⟨rest, rfl⟩
  | some most =>
    refine ⟨(pieces.drop most).flatten ++ rest, ?_⟩
    rw [takeUpTo, ← List.append_assoc, ← List.flatten_append, List.take_append_drop]

/-- The first pieces stand at the start of the text. -/
theorem Pieces.take_flatten_take (h : Pieces step text pieces) (count : Nat) :
    text.take (pieces.take count).flatten.length = (pieces.take count).flatten := by
  obtain ⟨rest, htext⟩ := h.exists_eq_takeUpTo_append (some count)
  rw [htext, takeUpTo, List.take_left]

/-- With a limit the successive matches are those of the pieces up to the limit. -/
theorem Pieces.successive_takeUpTo (h : Pieces step text pieces) (limit : Option Nat) :
    successive step limit text = (takeUpTo limit pieces).map List.length := by
  cases limit with
  | none => exact h.successive_eq
  | some most => rw [successive_some, h.successive_eq, takeUpTo, List.map_take]

/-- A match is repeated over the pieces up to the limit of the range, if these are enough. -/
theorem Pieces.repeatedSpan?_eq (range : CountRange) (h : Pieces step text pieces) :
    repeatedSpan? step range text =
      if range.minimum ≤ (takeUpTo range.maximum? pieces).length then
        some (takeUpTo range.maximum? pieces).flatten.length
      else none := by
  rw [repeatedSpan?]
  simp only [h.successive_takeUpTo, foldr_map_length, List.length_map]

namespace Matcher

/-- A repetition matches the pieces up to its limit, if these are enough. -/
theorem span?_repetition {matcher : Matcher} (range : CountRange)
    (h : Pieces matcher.span? text pieces) :
    (Matcher.repetition matcher range).span? text =
      if range.minimum ≤ (takeUpTo range.maximum? pieces).length then
        some (takeUpTo range.maximum? pieces).flatten.length
      else none := by
  rw [span?, h.repeatedSpan?_eq]

/-! ### What a match is made of -/

/-- A property matches the first character of a text. -/
theorem exists_of_headSpan? {property : Char → Bool} {n : Nat}
    (h : headSpan? property text = some n) : ∃ c rest, text = c :: rest ∧ n = 1 := by
  cases text with
  | nil => cases h
  | cons c rest =>
    rw [headSpan?] at h
    split at h
    · cases h
      exact ⟨c, rest, rfl, rfl⟩
    · cases h

/-- A given text matches where it stands. -/
theorem span?_literal_eq_some {wanted : Text} {n : Nat}
    (h : (Matcher.literal wanted).span? text = some n) : wanted <+: text ∧ n = wanted.length := by
  rw [span?] at h
  split at h
  · next hstart =>
    cases h
    exact ⟨List.isPrefixOf_iff_prefix.mp hstart, rfl⟩
  · cases h

/-- The match of the first of several matchers to match is a match of one of them. -/
theorem firstSpan?_cons_eq_some {matcher : Matcher} {others : List Matcher} {n : Nat}
    (h : firstSpan? (matcher :: others) text = some n) :
    matcher.span? text = some n ∨ firstSpan? others text = some n := by
  rw [firstSpan?] at h
  split at h
  · next hmatch => exact .inl (hmatch.trans h)
  · exact .inr h

/-- A match of several matchers is a match of the first, and one of the others behind it. -/
theorem totalSpan?_cons_eq_some {matcher : Matcher} {others : List Matcher} {n : Nat}
    (h : totalSpan? (matcher :: others) text = some n) :
    ∃ here behind, matcher.span? text = some here ∧
      totalSpan? others (text.drop here) = some behind ∧ n = here + behind := by
  rw [totalSpan?] at h
  split at h
  · next here hmatch =>
    obtain ⟨behind, hbehind, rfl⟩ := Option.map_eq_some_iff.mp h
    exact ⟨here, behind, hmatch, hbehind, rfl⟩
  · cases h

/-! ### Matches stay within the text -/

/-- One character is taken where there is one. -/
theorem headSpan?_staysWithin (property : Char → Bool) : StaysWithin (headSpan? property) := by
  intro text n h
  obtain ⟨c, rest, rfl, rfl⟩ := exists_of_headSpan? h
  exact Nat.succ_pos _

/-- The interior of a bracket lies within the text. -/
theorem balancedSpan_le (opener closer : Char) (depth : Nat) (text : Text) :
    balancedSpan opener closer depth text ≤ text.length := by
  fun_induction balancedSpan opener closer depth text with
  | case1 => exact Nat.zero_le _
  | case3 => exact Nat.zero_le _
  | _ => simpa using ‹_›

mutual

/-- A matcher takes no more characters than there are. -/
theorem span?_staysWithin : ∀ matcher : Matcher, StaysWithin matcher.span?
  | .satisfying property => headSpan?_staysWithin property
  | .char c => headSpan?_staysWithin (· == c)
  | .oneOf chars => headSpan?_staysWithin chars.contains
  | .literal wanted => by
    intro text n h
    obtain ⟨hstart, rfl⟩ := span?_literal_eq_some h
    exact hstart.length_le
  | .repetition matcher range => by
    intro text n h
    obtain ⟨pieces, hpieces⟩ := exists_pieces (span?_staysWithin matcher) text
    rw [span?_repetition range hpieces] at h
    split at h
    · cases h
      obtain ⟨rest, htext⟩ := hpieces.exists_eq_takeUpTo_append range.maximum?
      rw [htext, List.length_append]
      exact Nat.le_add_right _ _
    · cases h
  | .firstOf matchers => firstSpan?_staysWithin matchers
  | .sequence matchers => totalSpan?_staysWithin matchers
  | .absence matcher => by
    intro text n h
    rw [span?] at h
    split at h
    · cases h
      exact Nat.zero_le _
    · cases h
  | .balanced opener closer => by
    intro text n h
    cases h
    exact balancedSpan_le opener closer 0 text

/-- The first of several matchers to match takes no more characters than there are. -/
theorem firstSpan?_staysWithin : ∀ matchers : List Matcher, StaysWithin (firstSpan? matchers)
  | [] => nofun
  | matcher :: rest => by
    intro text n h
    rcases firstSpan?_cons_eq_some h with hmatch | hothers
    · exact span?_staysWithin matcher text n hmatch
    · exact firstSpan?_staysWithin rest text n hothers

/-- Matchers one after the other take no more characters than there are. -/
theorem totalSpan?_staysWithin : ∀ matchers : List Matcher, StaysWithin (totalSpan? matchers)
  | [] => by
    intro text n h
    cases h
    exact Nat.zero_le _
  | matcher :: rest => by
    intro text n h
    obtain ⟨here, behind, hmatch, hothers, rfl⟩ := totalSpan?_cons_eq_some h
    have hhere := span?_staysWithin matcher text here hmatch
    have hbehind := totalSpan?_staysWithin rest (text.drop here) behind hothers
    rw [List.length_drop] at hbehind
    omega

end

end Matcher

end LuauAnnotation
