import LuauAnnotation.Proofs.Tokenizing

/-!
# Results that are alike

Runs of the tokenizer over two texts, or inside and outside a group, are compared by their results.
Two results are alike if both are given and related, or if both runs fail for the same cause at
related offsets. Texts with the same groups are compared group by group: the interiors, and the
texts behind the closers. A text that stands at two places is the first case.
-/

namespace LuauAnnotation

/-- Two results that are given and related, or that are missing for the same cause at related
offsets. -/
inductive Alike {α β : Type} (same : α → β → Prop) (moves : Nat → Nat → Prop) :
    Except Fault α → Except Fault β → Prop where
  | ok {a : α} {b : β} (h : same a b) : Alike same moves (.ok a) (.ok b)
  | nestingTooDeep (limit : Nat) {offset offset' : Nat} (h : moves offset offset') :
      Alike same moves (.error (.nestingTooDeep limit offset))
        (.error (.nestingTooDeep limit offset'))
  | unterminated (kind : BracketKind) {offset offset' : Nat} (h : moves offset offset') :
      Alike same moves (.error (.unterminated kind offset)) (.error (.unterminated kind offset'))

namespace Alike

variable {α β γ δ : Type} {same : α → β → Prop} {after : γ → δ → Prop} {moves : Nat → Nat → Prop}
  {left : Except Fault α} {right : Except Fault β}

/-- A further step on both sides keeps results alike if it does so for related values. -/
theorem bind {next : α → Except Fault γ} {next' : β → Except Fault δ}
    (h : Alike same moves left right)
    (hnext : ∀ a b, same a b → Alike after moves (next a) (next' b)) :
    Alike after moves (left >>= next) (right >>= next') := by
  cases h with
  | ok hsame => exact hnext _ _ hsame
  | nestingTooDeep limit hmoves => exact .nestingTooDeep limit hmoves
  | unterminated kind hmoves => exact .unterminated kind hmoves

/-- Functions that take related values to related ones keep results alike. -/
theorem map {f : α → γ} {g : β → δ} (h : Alike same moves left right)
    (hmap : ∀ a b, same a b → after (f a) (g b)) :
    Alike after moves (left.map f) (right.map g) := by
  cases h with
  | ok hsame => exact .ok (hmap _ _ hsame)
  | nestingTooDeep limit hmoves => exact .nestingTooDeep limit hmoves
  | unterminated kind hmoves => exact .unterminated kind hmoves

/-- Results are alike up to what a function shows of them if what it shows is alike. -/
theorem of_map {f : α → γ} {g : β → γ} (h : Alike Eq moves (left.map f) (right.map g)) :
    Alike (fun a b => f a = g b) moves left right := by
  cases left with
  | error fault =>
    cases right with
    | error fault' =>
      cases h with
      | nestingTooDeep limit hmoves => exact .nestingTooDeep limit hmoves
      | unterminated kind hmoves => exact .unterminated kind hmoves
    | ok b => cases h
  | ok a =>
    cases right with
    | error fault' => cases h
    | ok b =>
      cases h with
      | ok hsame => exact .ok hsame

end Alike

/-! ### Groups -/

section

variable {settings : Settings} {inGroup inGroup' : Bool} {depth offset offset' : Nat}
  {kind : BracketKind} {interior rest interior' rest' : Text}
  {within same : List Token → List Token → Prop} {moves : Nat → Nat → Prop}

/-- Closed groups of one kind are read alike if their interiors are, and the texts behind them. -/
theorem alike_scan_closed (hinterior : kind.Balanced interior) (hinterior' : kind.Balanced interior')
    (hopener : moves offset offset')
    (hchildren : Alike within moves
      (scan settings true (depth + 1) (offset + kind.opener.utf8Size) interior)
      (scan settings true (depth + 1) (offset' + kind.opener.utf8Size) interior'))
    (hrest : Alike same moves
      (scan settings inGroup depth
        (offset + kind.opener.utf8Size + Text.bytes (interior ++ [kind.closer])) rest)
      (scan settings inGroup' depth
        (offset' + kind.opener.utf8Size + Text.bytes (interior' ++ [kind.closer])) rest'))
    (hgroup : ∀ children children' others others', within children children' →
      same others others' →
        same (.bracketed kind children :: others) (.bracketed kind children' :: others')) :
    Alike same moves
      (scan settings inGroup depth offset (kind.opener :: (interior ++ kind.closer :: rest)))
      (scan settings inGroup' depth offset'
        (kind.opener :: (interior' ++ kind.closer :: rest'))) := by
  rw [scan_closed kind hinterior, scan_closed kind hinterior']
  split
  · exact .nestingTooDeep _ hopener
  · apply hchildren.bind
    intro children children' hwithin
    apply hrest.bind
    intro others others' hsame
    exact .ok (hgroup children children' others others' hwithin hsame)

/-- Groups of one kind that are never closed are read alike if their interiors are. -/
theorem alike_scan_unclosed (hinterior : kind.Unclosed interior)
    (hinterior' : kind.Unclosed interior') (hopener : moves offset offset')
    (hchildren : Alike within moves
      (scan settings true (depth + 1) (offset + kind.opener.utf8Size) interior)
      (scan settings true (depth + 1) (offset' + kind.opener.utf8Size) interior'))
    (hgroup : ∀ children children', within children children' →
      same [.bracketed kind children] [.bracketed kind children']) :
    Alike same moves (scan settings inGroup depth offset (kind.opener :: interior))
      (scan settings inGroup' depth offset' (kind.opener :: interior')) := by
  rw [scan_unclosed kind hinterior, scan_unclosed kind hinterior']
  split
  · exact .nestingTooDeep _ hopener
  · split
    · exact .unterminated kind hopener
    · exact hchildren.map hgroup

/-! ### Moved texts -/

/-- A text that is moved is read alike: a fault moves with its text. -/
theorem alike_scan_moved (text : Text)
    (hmoves : ∀ inner, inner < Text.bytes text → moves (offset + inner) (offset' + inner)) :
    Alike Eq moves (scan settings inGroup depth offset text)
      (scan settings inGroup depth offset' text) := by
  obtain ⟨reading, hreading⟩ := exists_reads inGroup text
  induction hreading generalizing depth offset offset' with
  | nil inGroup =>
    rw [scan_nil, scan_nil]
    exact .ok rfl
  | blank hblank _ ih =>
    rw [scan_blank hblank, scan_blank hblank]
    apply ih
    intro inner hinner
    rw [Nat.add_assoc, Nat.add_assoc]
    exact hmoves _ (Nat.add_lt_add_left hinner _)
  | lexeme hlexeme _ ih =>
    rw [scan_lexeme hlexeme, scan_lexeme hlexeme]
    apply Alike.map
    · apply ih
      intro inner hinner
      rw [Nat.add_assoc, Nat.add_assoc]
      apply hmoves
      rw [Text.bytes_append]
      exact Nat.add_lt_add_left hinner _
    · intro others others' hsame
      rw [hsame]
  | @closed inGroup interior rest _ _ kind hinterior _ _ ihchildren ihrest =>
    rw [Text.bytes_cons, Text.bytes_append, Text.bytes_cons] at hmoves
    have hopener := kind.opener.utf8Size_pos
    apply alike_scan_closed hinterior hinterior
    · exact hmoves 0 (by omega)
    · apply ihchildren
      intro inner hinner
      rw [Nat.add_assoc, Nat.add_assoc]
      exact hmoves _ (by omega)
    · apply ihrest
      intro inner hinner
      rw [Text.bytes_append, Text.bytes_cons, Text.bytes_nil]
      simp only [Nat.add_assoc]
      exact hmoves _ (by omega)
    · intro children children' others others' hchildren hothers
      rw [hchildren, hothers]
  | @unclosed inGroup interior _ kind _ hinterior _ ih =>
    rw [Text.bytes_cons] at hmoves
    have hopener := kind.opener.utf8Size_pos
    apply alike_scan_unclosed hinterior hinterior
    · exact hmoves 0 (by omega)
    · apply ih
      intro inner hinner
      rw [Nat.add_assoc, Nat.add_assoc]
      exact hmoves _ (by omega)
    · intro children children' hchildren
      rw [hchildren]

end

end LuauAnnotation
