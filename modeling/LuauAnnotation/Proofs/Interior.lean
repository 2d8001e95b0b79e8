import LuauAnnotation.Proofs.Reading
import Mathlib.Data.List.Range

/-!
# Openers of a text and their interiors

The interiors of all openers are described on the whole text, by positions and counts, without
reading it: each opener has an enclosing interior, in which the first closer that leaves openers
and closers of its kind equally many ends its own. The depth of an opener is the number of
interiors around it. The pieces that the tokenizer cuts out of the text are the interiors so
described, which is followed here from one piece to the pieces inside it and behind it.
-/

namespace LuauAnnotation

namespace Text

/-- The kind of group that the character at a position opens. -/
def openerAt? (text : Text) (i : Nat) : Option BracketKind :=
  text[i]?.bind BracketKind.ofOpener?

/-- The characters from one position up to another. -/
def between (text : Text) (start stop : Nat) : Text := (text.take stop).drop start

/-- A closer of a kind that leaves openers and closers of the kind equally many between it and
the opener at another position. -/
def ClosesAt (text : Text) (kind : BracketKind) (start stop : Nat) : Prop :=
  text[stop]? = some kind.closer ∧
    (text.between (start + 1) stop).count kind.opener =
      (text.between (start + 1) stop).count kind.closer

instance (text : Text) (kind : BracketKind) (start stop : Nat) :
    Decidable (ClosesAt text kind start stop) := by
  unfold ClosesAt
  infer_instance

/-- The first closer of the opener at a position, in an enclosing interior that ends at
`outer`. -/
def closerOf? (text : Text) (kind : BracketKind) (start outer : Nat) : Option Nat :=
  (List.range' (start + 1) (outer - (start + 1))).find? fun stop =>
    decide (ClosesAt text kind start stop)

/-- Where the interior of the opener at a position ends, in an enclosing interior that ends at
`outer`. Where no opener stands there is no interior. -/
def stopWithin (text : Text) (i outer : Nat) : Nat :=
  match text.openerAt? i with
  | some kind => (closerOf? text kind i outer).getD outer
  | none => i

/-- Where the innermost interior around a position ends, if only the openers before position `j`
count. Innermost is the interior of the last opener. -/
def enclosingStop (text : Text) : (j i : Nat) → Nat
  | 0, _ => text.length
  | j + 1, i =>
    if i < text.stopWithin j (enclosingStop text j j) then
      text.stopWithin j (enclosingStop text j j)
    else enclosingStop text j i

/-- Where the interior of the opener at a position ends. It starts just behind the opener. -/
def interiorStop (text : Text) (i : Nat) : Nat := text.stopWithin i (enclosingStop text i i)

/-- The number of openers before position `j` whose interior contains position `i`. -/
def depthBelow (text : Text) (j i : Nat) : Nat :=
  (List.range j).countP fun k => decide (i < text.interiorStop k)

/-- The number of openers whose interior contains a position. -/
def depthAt (text : Text) (i : Nat) : Nat := text.depthBelow i i

/-- The opener of a kind at a position has no closer in its enclosing interior. -/
def Unterminated (text : Text) (i : Nat) (kind : BracketKind) : Prop :=
  closerOf? text kind i (enclosingStop text i i) = none

instance (text : Text) (i : Nat) (kind : BracketKind) : Decidable (Unterminated text i kind) := by
  unfold Unterminated
  infer_instance

/-! ### Interiors by position -/

/-- One more opener may be the innermost. -/
theorem enclosingStop_succ (text : Text) (j i : Nat) :
    text.enclosingStop (j + 1) i =
      if i < text.interiorStop j then text.interiorStop j else text.enclosingStop j i := rfl

/-- One more opener counts if its interior contains the position. -/
theorem depthBelow_succ (text : Text) (j i : Nat) :
    text.depthBelow (j + 1) i =
      text.depthBelow j i + if i < text.interiorStop j then 1 else 0 := by
  simp [depthBelow, List.range_succ, List.countP_append, List.countP_cons]

/-- Where no opener stands there is no interior. -/
theorem interiorStop_of_none (text : Text) (i : Nat) (h : text.openerAt? i = none) :
    text.interiorStop i = i := by
  simp [interiorStop, stopWithin, h]

/-- An interior ends in its enclosing interior. -/
theorem interiorStop_le (text : Text) (i bound : Nat) (hi : i ≤ bound)
    (henclosing : text.enclosingStop i i ≤ bound) : text.interiorStop i ≤ bound := by
  unfold interiorStop stopWithin
  split
  · cases hcloser : closerOf? text _ i (text.enclosingStop i i) with
    | none => exact henclosing
    | some stop =>
      have hmem := List.mem_of_find?_eq_some hcloser
      rw [List.mem_range'_1] at hmem
      rw [Option.getD_some]
      omega
  · exact hi

/-- Where the interior around the positions from `start` up to `bound` ends by `bound`, openers
from `start` on do not change that. -/
theorem enclosingStop_le (text : Text) (start bound : Nat)
    (hbase : ∀ i, start ≤ i → i < bound → text.enclosingStop start i ≤ bound) (j i : Nat)
    (hj : start ≤ j) (hji : j ≤ i) (hi : i < bound) : text.enclosingStop j i ≤ bound := by
  induction j, hj using Nat.le_induction generalizing i with
  | base => exact hbase i hji hi
  | succ j hj ih =>
    have hstop : text.interiorStop j ≤ bound :=
      text.interiorStop_le j bound (by omega) (ih j (Nat.le_refl j) (by omega))
    rw [enclosingStop_succ]
    split
    · exact hstop
    · exact ih i (by omega) hi

/-- Interiors that end before a position do not matter for it. -/
theorem enclosing_of_passed (text : Text) (i start stop : Nat) (hle : start ≤ stop)
    (hpassed : ∀ j, start ≤ j → j < stop → text.interiorStop j ≤ i) :
    text.enclosingStop stop i = text.enclosingStop start i ∧
      text.depthBelow stop i = text.depthBelow start i := by
  induction stop, hle using Nat.le_induction with
  | base => exact ⟨rfl, rfl⟩
  | succ stop hstop ih =>
    have hnot : ¬ i < text.interiorStop stop := by
      have hlast := hpassed stop hstop (Nat.lt_succ_self stop)
      omega
    obtain ⟨henclosing, hdepth⟩ := ih fun j hj hlt => hpassed j hj (Nat.lt_succ_of_lt hlt)
    rw [enclosingStop_succ, depthBelow_succ, if_neg hnot, if_neg hnot]
    exact ⟨henclosing, hdepth⟩

/-- What stands behind a piece of the text of known length. -/
theorem between_append (front text : Text) (n : Nat) :
    (front ++ text).between front.length (front.length + n) = text.take n := by
  rw [between, List.take_length_add_append, List.drop_left]

/-- A closer of an opener is seen in the text behind the opener. -/
theorem closesAt_iff (kind : BracketKind) (front rest : Text) (n : Nat) :
    ClosesAt (front ++ kind.opener :: rest) kind front.length (front.length + 1 + n) ↔
      rest[n]? = some kind.closer ∧
        (rest.take n).count kind.opener = (rest.take n).count kind.closer := by
  have hsplit : front ++ kind.opener :: rest = (front ++ [kind.opener]) ++ rest := by simp
  have hlength : front.length + 1 = (front ++ [kind.opener]).length := by simp
  rw [ClosesAt, hsplit, hlength, between_append,
    List.getElem?_append_right (Nat.le_add_right _ _), Nat.add_sub_cancel_left]

/-- Inside a covered text no closer of the opener in front of it is found. -/
theorem not_closesAt_of_covered (kind : BracketKind) (front interior back : Text) (n : Nat)
    (hinterior : kind.Unclosed interior) (hn : n < interior.length) :
    ¬ ClosesAt (front ++ kind.opener :: (interior ++ back)) kind front.length
      (front.length + 1 + n) := by
  intro h
  obtain ⟨hcloser, hcount⟩ := (closesAt_iff kind front (interior ++ back) n).mp h
  rw [List.getElem?_append_left hn] at hcloser
  rw [List.take_append_of_le_length hn.le] at hcount
  -- Up to this closer the text would hold one closer more than openers.
  have hcovered := hinterior (interior.take (n + 1)) (List.take_prefix _ _)
  rw [List.take_add_one, hcloser, Option.toList_some, List.count_append, List.count_append,
    List.count_singleton_self, List.count_singleton] at hcovered
  have hopener : (kind.closer == kind.opener) = false := by
    simpa using (kind.opener_ne_closer kind).symm
  rw [hopener] at hcovered
  simp only [Bool.false_eq_true, if_false] at hcovered
  omega

/-- The closer behind a balanced text is the first closer of the opener in front of it. -/
theorem closerOf?_of_balanced (kind : BracketKind) (front interior back : Text) (outer : Nat)
    (hinterior : kind.Balanced interior) (houter : front.length + 1 + interior.length < outer) :
    closerOf? (front ++ kind.opener :: (interior ++ kind.closer :: back)) kind front.length outer =
      some (front.length + 1 + interior.length) := by
  have hcloses : ClosesAt (front ++ kind.opener :: (interior ++ kind.closer :: back)) kind
      front.length (front.length + 1 + interior.length) := by
    rw [closesAt_iff, List.getElem?_append_right (Nat.le_refl _), Nat.sub_self,
      List.getElem?_cons_zero, List.take_left]
    exact ⟨rfl, hinterior.count_eq.symm⟩
  rw [closerOf?, List.find?_range'_eq_some]
  refine ⟨decide_eq_true hcloses, ?_, fun j hj hlt => ?_⟩
  · rw [List.mem_range'_1]
    omega
  · obtain ⟨n, rfl⟩ := Nat.exists_eq_add_of_le hj
    have hnot := not_closesAt_of_covered kind front interior (kind.closer :: back) n
      hinterior.covered (by omega)
    simpa using hnot

/-- A covered text to the end of the enclosing interior holds no closer of the opener in front of
it. -/
theorem closerOf?_of_unclosed (kind : BracketKind) (front interior back : Text)
    (hinterior : kind.Unclosed interior) :
    closerOf? (front ++ kind.opener :: (interior ++ back)) kind front.length
      (front.length + 1 + interior.length) = none := by
  rw [closerOf?, List.find?_range'_eq_none]
  intro j hj hlt
  obtain ⟨n, rfl⟩ := Nat.exists_eq_add_of_le hj
  have hnot := not_closesAt_of_covered kind front interior back n hinterior (by omega)
  simpa using hnot

/-! ### Pieces of the text -/

/-- A piece of the text that reaches to the end of the interior around it, where `depth` interiors
of openers in front of the piece contain the piece. -/
structure Level (whole front piece : Text) (depth : Nat) : Prop where
  isPrefix : front ++ piece <+: whole
  enclosing_eq : ∀ i, front.length ≤ i → i < front.length + piece.length →
    whole.enclosingStop front.length i = front.length + piece.length
  depth_eq : ∀ i, front.length ≤ i → i < front.length + piece.length →
    whole.depthBelow front.length i = depth

variable {whole front piece here rest : Text} {depth : Nat}

/-- The whole text is a piece of itself, in no interior. -/
theorem level_whole (whole : Text) : Level whole [] whole 0 := by
  refine ⟨List.prefix_refl whole, fun i _ _ => ?_, fun i _ _ => rfl⟩
  simp [enclosingStop]

/-- The character at the start of a piece. -/
theorem Level.openerAt? {c : Char} (h : Level whole front (c :: rest) depth) :
    whole.openerAt? front.length = BracketKind.ofOpener? c := by
  obtain ⟨back, hback⟩ := h.isPrefix
  simp [Text.openerAt?, ← hback]

/-- An opener at the start of a piece has the depth of the piece. -/
theorem Level.depthAt_eq {c : Char} (h : Level whole front (c :: rest) depth) :
    whole.depthAt front.length = depth :=
  h.depth_eq front.length (Nat.le_refl _) (by simp)

/-- Around an opener at the start of a piece the interior ends with the piece. -/
theorem Level.enclosingStop_eq {c : Char} (h : Level whole front (c :: rest) depth) :
    whole.enclosingStop front.length front.length = front.length + (rest.length + 1) :=
  h.enclosing_eq front.length (Nat.le_refl _) (by simp)

/-- No interior that starts in a piece reaches behind the piece. -/
theorem Level.interiorStop_le (h : Level whole front piece depth) (j : Nat)
    (hj : front.length ≤ j) (hlt : j < front.length + piece.length) :
    whole.interiorStop j ≤ front.length + piece.length :=
  whole.interiorStop_le j _ hlt.le <|
    whole.enclosingStop_le front.length _ (fun i hi hin => (h.enclosing_eq i hi hin).le) j j hj
      (Nat.le_refl j) hlt

/-- Behind interiors that have ended the piece goes on as before. -/
theorem Level.behind (h : Level whole front (here ++ rest) depth)
    (hended : ∀ j, front.length ≤ j → j < front.length + here.length →
      whole.interiorStop j ≤ front.length + here.length) :
    Level whole (front ++ here) rest depth := by
  have hpassed (i : Nat) (hi : front.length + here.length ≤ i) :=
    enclosing_of_passed whole i front.length (front.length + here.length) (Nat.le_add_right _ _)
      fun j hj hlt => (hended j hj hlt).trans hi
  refine ⟨?_, ?_, ?_⟩
  · rw [List.append_assoc]
    exact h.isPrefix
  · intro i hi hlt
    rw [List.length_append] at hi hlt ⊢
    rw [(hpassed i hi).1, h.enclosing_eq i (by omega) (by rw [List.length_append]; omega),
      List.length_append, Nat.add_assoc]
  · intro i hi hlt
    rw [List.length_append] at hi hlt ⊢
    rw [(hpassed i hi).2, h.depth_eq i (by omega) (by rw [List.length_append]; omega)]

/-- Behind characters that open nothing the piece goes on as before. -/
theorem Level.behind_plain (h : Level whole front (here ++ rest) depth)
    (hplain : ∀ c ∈ here, BracketKind.ofOpener? c = none) :
    (∀ j, front.length ≤ j → j < front.length + here.length → whole.openerAt? j = none) ∧
      Level whole (front ++ here) rest depth := by
  have hnone (j : Nat) (hj : front.length ≤ j) (hlt : j < front.length + here.length) :
      whole.openerAt? j = none := by
    obtain ⟨back, hback⟩ := h.isPrefix
    obtain ⟨n, rfl⟩ := Nat.exists_eq_add_of_le hj
    have hn : n < here.length := by omega
    rw [Text.openerAt?, ← hback, List.append_assoc, List.getElem?_append_right hj,
      Nat.add_sub_cancel_left, List.append_assoc, List.getElem?_append_left hn,
      List.getElem?_eq_getElem hn]
    exact hplain _ (List.getElem_mem hn)
  refine ⟨hnone, h.behind fun j hj hlt => ?_⟩
  rw [interiorStop_of_none whole j (hnone j hj hlt)]
  exact hlt.le

/-- The interior of an opener at the start of a piece is a piece one level deeper. -/
theorem Level.inside {c : Char} (h : Level whole front (c :: (here ++ rest)) depth)
    (hstop : whole.interiorStop front.length = front.length + 1 + here.length) :
    Level whole (front ++ [c]) here (depth + 1) := by
  have hlength : (front ++ [c]).length = front.length + 1 := by simp
  refine ⟨?_, ?_, ?_⟩
  · refine List.IsPrefix.trans ?_ h.isPrefix
    exact ⟨rest, by simp⟩
  · intro i hi hlt
    rw [hlength] at hi hlt ⊢
    rw [enclosingStop_succ, hstop, if_pos hlt]
  · intro i hi hlt
    rw [hlength] at hi hlt ⊢
    have hpiece : i < front.length + (c :: (here ++ rest)).length := by
      rw [List.length_cons, List.length_append]
      omega
    rw [depthBelow_succ, hstop, if_pos hlt, h.depth_eq i (by omega) hpiece]

/-- The closer of an opener at the start of a piece, where the group is closed. -/
theorem Level.closerOf?_closed {kind : BracketKind} {interior : Text}
    (h : Level whole front (kind.opener :: (interior ++ kind.closer :: rest)) depth)
    (hinterior : kind.Balanced interior) :
    closerOf? whole kind front.length (whole.enclosingStop front.length front.length) =
      some (front.length + 1 + interior.length) := by
  obtain ⟨back, hback⟩ := h.isPrefix
  have hwhole : whole =
      front ++ kind.opener :: (interior ++ kind.closer :: (rest ++ back)) := by
    rw [← hback]
    simp
  rw [h.enclosingStop_eq, hwhole]
  apply closerOf?_of_balanced kind front interior (rest ++ back) _ hinterior
  simp only [List.length_append, List.length_cons]
  omega

/-- An opener at the start of a piece has no closer where the group is not closed. -/
theorem Level.closerOf?_unclosed {kind : BracketKind} {interior : Text}
    (h : Level whole front (kind.opener :: interior) depth) (hinterior : kind.Unclosed interior) :
    closerOf? whole kind front.length (whole.enclosingStop front.length front.length) = none := by
  obtain ⟨back, hback⟩ := h.isPrefix
  have hwhole : whole = front ++ kind.opener :: (interior ++ back) := by
    rw [← hback]
    simp
  have houter : front.length + (interior.length + 1) = front.length + 1 + interior.length := by
    omega
  rw [h.enclosingStop_eq, houter, hwhole]
  exact closerOf?_of_unclosed kind front interior back hinterior

/-- The closer of a group opens nothing. -/
theorem Level.openerAt?_closer {kind : BracketKind} {interior : Text}
    (h : Level whole front (kind.opener :: (interior ++ kind.closer :: rest)) depth) :
    whole.openerAt? (front.length + 1 + interior.length) = none := by
  obtain ⟨back, hback⟩ := h.isPrefix
  have hwhole : whole = (front ++ kind.opener :: interior) ++ (kind.closer :: (rest ++ back)) := by
    rw [← hback]
    simp
  have hlength : front.length + 1 + interior.length =
      (front ++ kind.opener :: interior).length := by
    rw [List.length_append, List.length_cons]
    omega
  rw [Text.openerAt?, hwhole, hlength, List.getElem?_append_right (Nat.le_refl _), Nat.sub_self,
    List.getElem?_cons_zero, Option.bind_some, Option.eq_none_iff_forall_ne_some]
  exact fun other => kind.ofOpener?_closer other

/-- The interior of an opener is a piece, and so is the text behind its closer. -/
theorem Level.closed {kind : BracketKind} {interior : Text}
    (h : Level whole front (kind.opener :: (interior ++ kind.closer :: rest)) depth)
    (hinterior : kind.Balanced interior) :
    Level whole (front ++ [kind.opener]) interior (depth + 1) ∧
      Level whole (front ++ kind.opener :: (interior ++ [kind.closer])) rest depth := by
  have hopener : whole.openerAt? front.length = some kind := by
    rw [h.openerAt?, kind.ofOpener?_opener]
  have hstop : whole.interiorStop front.length = front.length + 1 + interior.length := by
    rw [interiorStop, stopWithin, hopener]
    simp only [h.closerOf?_closed hinterior, Option.getD_some]
  have hinside := h.inside hstop
  have hcloser := h.openerAt?_closer
  have hgroup : Level whole front ((kind.opener :: (interior ++ [kind.closer])) ++ rest) depth := by
    rwa [List.cons_append, List.append_assoc, List.singleton_append]
  have hsize : (kind.opener :: (interior ++ [kind.closer])).length = interior.length + 2 := by
    simp
  refine ⟨hinside, hgroup.behind fun j hj hlt => ?_⟩
  rw [hsize] at hlt ⊢
  rcases Nat.eq_or_lt_of_le hj with rfl | hbehind
  · omega
  · rcases Nat.lt_or_ge j (front.length + 1 + interior.length) with hin | hout
    · have hle := hinside.interiorStop_le j
      rw [List.length_append, List.length_singleton] at hle
      have hinner := hle hbehind hin
      omega
    · obtain rfl : j = front.length + 1 + interior.length := by omega
      rw [interiorStop_of_none whole _ hcloser]
      omega

/-- Behind a closed group stand the characters in front of it, its brackets and its interior. -/
theorem length_append_group (kind : BracketKind) (front interior : Text) :
    (front ++ kind.opener :: (interior ++ [kind.closer])).length =
      front.length + 1 + interior.length + 1 := by
  simp only [List.length_append, List.length_cons, List.length_nil]
  omega

/-- The text behind an opener that is not closed is a piece. -/
theorem Level.unclosed {kind : BracketKind} {interior : Text}
    (h : Level whole front (kind.opener :: interior) depth) (hinterior : kind.Unclosed interior) :
    Level whole (front ++ [kind.opener]) interior (depth + 1) := by
  have hopener : whole.openerAt? front.length = some kind := by
    rw [h.openerAt?, kind.ofOpener?_opener]
  have hpiece : Level whole front (kind.opener :: (interior ++ [])) depth := by
    rwa [List.append_nil]
  apply hpiece.inside
  rw [interiorStop, stopWithin, hopener]
  simp only [h.closerOf?_unclosed hinterior, Option.getD_none]
  rw [h.enclosingStop_eq]
  omega

end Text

end LuauAnnotation
