import LuauAnnotation.Proofs.Lexeme
import LuauAnnotation.Proofs.Pieces

/-!
# Matches up to a stop

Matching up to a stop is put together from a repetition, a sequence and an absence. What it takes
can be said without these: the longest chain of consecutive non-empty matches, none of which starts
where the stop matches. The pieces of the sequence form such a chain, and every other chain is an
initial part of them, because a match determines where the next one starts. For atoms the chain
consists of single characters, and the match is the longest run of them.
-/

namespace LuauAnnotation

/-- Consecutive non-empty matches from the start of a text, none of which starts where `stop`
matches. -/
inductive Chain (step stop : Text → Option Nat) : Text → List Text → Prop where
  | nil (text : Text) : Chain step stop text []
  | cons {piece rest : Text} {pieces : List Text} (hne : piece ≠ [])
      (hmatch : step (piece ++ rest) = some piece.length) (hstop : stop (piece ++ rest) = none)
      (hrest : Chain step stop rest pieces) :
      Chain step stop (piece ++ rest) (piece :: pieces)

/-- One match up to a stop: no match where `stop` matches. -/
def beforeStop (step stop : Text → Option Nat) (text : Text) : Option Nat :=
  if (stop text).isNone then step text else none

variable {step stop : Text → Option Nat} {text : Text} {pieces : List Text}

/-- A match up to a stop is a match where the stop does not match. -/
theorem beforeStop_eq_some_iff (n : Nat) :
    beforeStop step stop text = some n ↔ stop text = none ∧ step text = some n := by
  rw [beforeStop]
  cases stop text with
  | some m => simp
  | none => simp

/-- A match up to a stop takes no more characters than there are. -/
theorem StaysWithin.beforeStop (hwithin : StaysWithin step) (stop : Text → Option Nat) :
    StaysWithin (beforeStop step stop) := fun text n h =>
  hwithin text n ((beforeStop_eq_some_iff n).mp h).2

/-- The pieces that are matched up to a stop form a chain. -/
theorem Chain.of_pieces (h : Pieces (beforeStop step stop) text pieces) :
    Chain step stop text pieces := by
  induction h with
  | done _ => exact .nil _
  | more hne hstep _ ih =>
    obtain ⟨hstop, hmatch⟩ := (beforeStop_eq_some_iff _).mp hstep
    exact .cons hne hmatch hstop ih

/-- No chain goes on where the pieces end, and none takes other pieces. -/
theorem Chain.prefix_of_pieces {others : List Text} (h : Chain step stop text others)
    (hpieces : Pieces (beforeStop step stop) text pieces) : others <+: pieces := by
  induction h generalizing pieces with
  | nil _ => exact List.nil_prefix
  | @cons piece rest others hne hmatch hstop _ ih =>
    have hstep := (beforeStop_eq_some_iff _).mpr ⟨hstop, hmatch⟩
    generalize htext : piece ++ rest = text at hpieces
    rw [htext] at hstep
    cases hpieces with
    | done hnone =>
      rw [hstep] at hnone
      simp [hne] at hnone
    | more _ hstep' hrest =>
      rw [hstep, Option.some.injEq] at hstep'
      obtain ⟨rfl, rfl⟩ := List.append_inj htext hstep'
      exact List.cons_prefix_cons.mpr ⟨rfl, ih hrest⟩

/-- A chain that is not empty takes a byte at least. -/
theorem Chain.bytes_pos (h : Chain step stop text pieces) (hsome : pieces ≠ []) :
    0 < Text.bytes pieces.flatten := by
  cases h with
  | nil _ => exact absurd rfl hsome
  | @cons piece _ others hne _ _ _ =>
    rw [List.flatten_cons, Text.bytes_append]
    have hpiece : Text.bytes piece ≠ 0 := mt (Text.bytes_eq_zero_iff piece).mp hne
    exact Nat.add_pos_left (Nat.pos_of_ne_zero hpiece) _

/-- A chain stands at the start of the text. -/
theorem Chain.take_flatten (h : Chain step stop text pieces) :
    text.take pieces.flatten.length = pieces.flatten := by
  induction h with
  | nil _ => rfl
  | @cons piece rest pieces _ _ _ _ ih =>
    rw [List.flatten_cons, List.length_append, List.take_length_add_append, ih]

/-- One or more matches up to a stop take the longest chain, and there is no match if that chain is
empty. -/
theorem exists_longest_chain (hwithin : StaysWithin step) (stop : Text → Option Nat)
    (text : Text) :
    ∃ pieces, Chain step stop text pieces ∧
      (∀ others, Chain step stop text others → others <+: pieces) ∧
      repeatedSpan? (beforeStop step stop) (.atLeast 1) text =
        if pieces = [] then none else some pieces.flatten.length := by
  obtain ⟨pieces, hpieces⟩ := exists_pieces (hwithin.beforeStop stop) text
  refine ⟨pieces, .of_pieces hpieces, fun others hothers => hothers.prefix_of_pieces hpieces, ?_⟩
  have hminimum : (CountRange.atLeast 1).minimum = 1 := by decide
  have hmaximum : (CountRange.atLeast 1).maximum? = none := by decide
  rw [hpieces.repeatedSpan?_eq, hminimum, hmaximum, takeUpTo]
  cases pieces with
  | nil => rfl
  | cons piece pieces =>
    have hsome : 1 ≤ (piece :: pieces).length := Nat.le_add_left 1 _
    rw [if_pos hsome, if_neg (List.cons_ne_nil _ _)]

/-- A repetition up to a stop repeats what is matched up to the stop. -/
theorem Matcher.span?_oneOrMoreUntil (matcher stop : Matcher) :
    (matcher.oneOrMoreUntil stop).span? =
      repeatedSpan? (beforeStop matcher.span? stop.span?) (.atLeast 1) := by
  have hstep : (Matcher.sequence [.absence stop, matcher]).span? =
      beforeStop matcher.span? stop.span? := by
    funext text
    rw [span?, totalSpan?, span?, beforeStop]
    cases stop.span? text with
    | some m => rfl
    | none =>
      simp only [Option.isNone_none, if_true, List.drop_zero, totalSpan?]
      cases matcher.span? text <;> simp
  funext text
  rw [oneOrMoreUntil, oneOrMore, span?, hstep]

/-- An atom is as wide as the longest run of its characters, and there is none without any. -/
theorem Lexeme.length?_atom (inGroup : Bool) {run rest : Text}
    (hrun : ∀ c ∈ run, isAtomChar inGroup c = true) (hrest : EndsAtom inGroup rest) :
    (atom inGroup).length? (run ++ rest) = if run = [] then none else some (Text.bytes run) := by
  rw [Matcher.length?, span?_atom, takeWhile_isAtomChar inGroup run rest hrun hrest]
  cases run with
  | nil => rfl
  | cons c run => simp

namespace Matcher

/-- One or more matches up to a stop are the longest chain of consecutive non-empty matches none of
which starts where the stop matches, and there is no match if that chain is empty. The atoms of the
tokenizer are the longest runs of characters that are neither blank nor punctuation, nor a comma in
a group. -/
theorem oneOrMoreUntil_isLongest (matcher stop : Matcher) (inGroup : Bool) (text : Text) :
    (∃ pieces, Chain matcher.span? stop.span? text pieces ∧
      (∀ others, Chain matcher.span? stop.span? text others → others <+: pieces) ∧
      (∀ n, (matcher.oneOrMoreUntil stop).length? text = some n ↔
        0 < n ∧ n = Text.bytes pieces.flatten) ∧
      ((matcher.oneOrMoreUntil stop).length? text = none ↔ pieces = [])) ∧
    ∃ run rest, text = run ++ rest ∧
      (∀ c ∈ run, isBlank c = false ∧ c ∉ Lexeme.punctuationChars ∧ (inGroup = true → c ≠ ',')) ∧
      (∀ c, rest.head? = some c →
        isBlank c = true ∨ c ∈ Lexeme.punctuationChars ∨ (inGroup = true ∧ c = ',')) ∧
      (Lexeme.atom inGroup).length? text = if run = [] then none else some (Text.bytes run) := by
  constructor
  · obtain ⟨pieces, hchain, hlongest, hspan⟩ :=
      exists_longest_chain (span?_staysWithin matcher) stop.span? text
    refine ⟨pieces, hchain, hlongest, ?_⟩
    rw [length?, span?_oneOrMoreUntil, hspan]
    by_cases hnone : pieces = []
    · rw [if_pos hnone, hnone]
      refine ⟨fun n => ⟨nofun, ?_⟩, iff_of_true rfl rfl⟩
      rintro ⟨hpos, rfl⟩
      exact absurd hpos (Nat.lt_irrefl 0)
    · rw [if_neg hnone, Option.map_some, hchain.take_flatten]
      refine ⟨fun n => ⟨?_, ?_⟩, iff_of_false nofun hnone⟩
      · rintro ⟨⟩
        exact ⟨hchain.bytes_pos hnone, rfl⟩
      · rintro ⟨-, rfl⟩
        rfl
  · have hrun : ∀ c ∈ text.takeWhile (Lexeme.isAtomChar inGroup),
        Lexeme.isAtomChar inGroup c = true := fun c hc => List.mem_takeWhile_imp hc
    have hrest := Lexeme.endsAtom_dropWhile inGroup text
    have hlength := Lexeme.length?_atom inGroup hrun hrest
    rw [List.takeWhile_append_dropWhile] at hlength
    refine ⟨_, _, List.takeWhile_append_dropWhile.symm, fun c hc => ?_, fun c hc => ?_, hlength⟩
    · exact (Lexeme.isAtomChar_iff inGroup c).mp (hrun c hc)
    · exact (Lexeme.isAtomChar_eq_false_iff inGroup c).mp (hrest c hc)

/-- Pairs of letters up to one with an accent behind it are a chain of two pairs, although a third
one follows. -/
theorem oneOrMoreUntil_isLongest_pairs :
    let pair := Matcher.literal ['a', 'b']
    let accented := Matcher.literal ['a', 'b', 'é']
    let text := ['a', 'b', 'a', 'b', 'a', 'b', 'é']
    (pair.oneOrMoreUntil accented).length? text = some 4 ∧
      ∃ pieces, Chain pair.span? accented.span? text pieces ∧ Text.bytes pieces.flatten = 4 ∧
        ∀ others, Chain pair.span? accented.span? text others → others <+: pieces := by
  intro pair accented text
  have hlength : (pair.oneOrMoreUntil accented).length? text = some 4 := by decide +kernel
  obtain ⟨⟨pieces, hchain, hlongest, hmatch, -⟩, -⟩ :=
    oneOrMoreUntil_isLongest pair accented false text
  exact ⟨hlength, pieces, hchain, ((hmatch 4).mp hlength).2.symm, hlongest⟩

end Matcher

end LuauAnnotation
