import LuauAnnotation.Proofs.Reading

/-!
# Tokenizing is reading

The tokenizer is followed rule by rule: one equation says what it does with a blank, a lexeme, a
closed group and a group that is never closed. It gives the tokens of a text exactly when the
reading of the text keeps to the settings.
-/

namespace LuauAnnotation

variable {settings : Settings} {inGroup : Bool} {depth offset : Nat}

/-! ### The tokenizer by rules -/

/-- There is nothing to read in the empty text. -/
theorem scan_nil : scan settings inGroup depth offset [] = .ok [] := by
  rw [scan]

/-- A blank is passed over. -/
theorem scan_blank {c : Char} {rest : Text} (hblank : isBlank c = true) :
    scan settings inGroup depth offset (c :: rest) =
      scan settings inGroup depth (offset + c.utf8Size) rest := by
  rw [scan, if_pos hblank]

/-- A lexeme gives its tokens, in front of those of the text behind it. -/
theorem scan_lexeme {lexeme rest : Text} {here : List Token}
    (hlexeme : Lexeme.StandsFor inGroup lexeme here rest) :
    scan settings inGroup depth offset (lexeme ++ rest) =
      (scan settings inGroup depth (offset + Text.bytes lexeme) rest).map (here ++ ·) := by
  obtain ⟨c, inner, hhead, hblank, hopener⟩ := hlexeme.head
  have hread := hlexeme.read?
  subst hhead
  rw [List.cons_append] at hread ⊢
  rw [scan, if_neg (by simp [hblank])]
  simp only [hopener, hread, List.length_cons, List.take_left', List.drop_left', Text.bytes_cons,
    Nat.add_assoc]
  rfl

/-- A closed group is read on its own, after its depth is checked and before the text behind it. -/
theorem scan_closed {interior rest : Text} (kind : BracketKind) (hinterior : kind.Balanced interior) :
    scan settings inGroup depth offset (kind.opener :: (interior ++ kind.closer :: rest)) =
      if settings.maxDepth.toNat ≤ depth then
        .error (.nestingTooDeep settings.maxDepth.toNat offset)
      else do
        let children ← scan settings true (depth + 1) (offset + kind.opener.utf8Size) interior
        let others ← scan settings inGroup depth
          (offset + kind.opener.utf8Size + Text.bytes (interior ++ [kind.closer])) rest
        return .bracketed kind children :: others := by
  have hspan := kind.interiorSpan_of_balanced interior rest hinterior
  have htake : (interior ++ kind.closer :: rest).take (interior.length + 1) =
      interior ++ [kind.closer] := by
    rw [List.append_cons, List.take_left' (by simp)]
  have hdrop : (interior ++ kind.closer :: rest).drop (interior.length + 1) = rest := by
    rw [List.append_cons, List.drop_left' (by simp)]
  rw [scan, if_neg kind.not_isBlank_opener]
  simp [kind.ofOpener?_opener, hspan, htake, hdrop]

/-- A group that is never closed is a fault if the settings are strict, and otherwise reaches to
the end of the text. -/
theorem scan_unclosed {interior : Text} (kind : BracketKind) (hinterior : kind.Unclosed interior) :
    scan settings inGroup depth offset (kind.opener :: interior) =
      if settings.maxDepth.toNat ≤ depth then
        .error (.nestingTooDeep settings.maxDepth.toNat offset)
      else if settings.strict = true then .error (.unterminated kind offset)
      else (scan settings true (depth + 1) (offset + kind.opener.utf8Size) interior).map
        fun children => [.bracketed kind children] := by
  have hspan := kind.interiorSpan_of_unclosed interior hinterior
  rw [scan, if_neg kind.not_isBlank_opener]
  simp only [kind.ofOpener?_opener, hspan, List.drop_length, List.isEmpty_nil, Bool.and_true,
    List.take_length, List.drop_of_length_le (Nat.le_succ _), scan_nil]
  rfl

/-! ### Acceptance -/

/-- One function after another on a result. -/
theorem map_map {ε α β γ : Type} (result : Except ε α) (f : α → β) (g : β → γ) :
    (result.map f).map g = result.map fun a => g (f a) := by
  cases result <;> rfl

/-- A mapped result is given only if the result is. -/
theorem map_eq_ok_iff {ε α β : Type} (result : Except ε α) (f : α → β) (value : β) :
    result.map f = .ok value ↔ ∃ a, result = .ok a ∧ f a = value := by
  cases result <;> simp [Except.map]

/-- A chain of steps gives a result only if each step does. -/
theorem bind_eq_ok_iff {ε α β : Type} (result : Except ε α) (next : α → Except ε β) (value : β) :
    (result >>= next) = .ok value ↔ ∃ a, result = .ok a ∧ next a = .ok value := by
  cases result <;> simp [bind, Except.bind]

/-- Below some depth the tokenizer accepts a text exactly when its reading fits into the levels
that are left, and is strict if the settings are. -/
theorem scan_eq_ok_iff {text : Text} {reading : List Token} (h : Reads false inGroup text reading)
    (tokens : List Token) :
    scan settings inGroup depth offset text = .ok tokens ↔
      tokens = reading ∧ Token.depthAll reading ≤ settings.maxDepth.toNat - depth ∧
        Reads settings.strict inGroup text reading := by
  induction h generalizing depth offset tokens with
  | nil inGroup =>
    simp [scan_nil, Token.depthAll, Reads.nil, eq_comm]
  | blank hblank _ ih => rw [scan_blank hblank, ih, reads_blank_iff hblank]
  | @lexeme inGroup lexeme rest here others hlexeme _ ih =>
    rw [scan_lexeme hlexeme, map_eq_ok_iff, Token.depthAll_append, hlexeme.depthAll_eq_zero,
      Nat.zero_max, reads_lexeme_iff hlexeme]
    constructor
    · intro h
      obtain ⟨rest', hscan, rfl⟩ := h
      obtain ⟨rfl, hdepth, hreads⟩ := (ih _).mp hscan
      exact ⟨rfl, hdepth, _, hreads, rfl⟩
    · intro h
      obtain ⟨rfl, hdepth, others', hreads, hsame⟩ := h
      obtain rfl := List.append_cancel_left hsame
      exact ⟨_, (ih _).mpr ⟨rfl, hdepth, hreads⟩, rfl⟩
  | closed kind hinterior _ _ ihchildren ihrest =>
    rw [scan_closed kind hinterior, reads_closed_iff kind hinterior, Token.depthAll, Token.depth]
    by_cases hdeep : settings.maxDepth.toNat ≤ depth
    · rw [if_pos hdeep]
      constructor
      · intro h
        cases h
      · intro h
        obtain ⟨_, hdepth, _⟩ := h
        omega
    · rw [if_neg hdeep]
      simp only [bind_eq_ok_iff, pure, Except.pure, Except.ok.injEq]
      constructor
      · intro h
        obtain ⟨children', hscan, others', hscan', rfl⟩ := h
        obtain ⟨rfl, hdepth, hreads⟩ := (ihchildren _).mp hscan
        obtain ⟨rfl, hdepth', hreads'⟩ := (ihrest _).mp hscan'
        exact ⟨rfl, by omega, _, _, hreads, hreads', rfl⟩
      · intro h
        obtain ⟨rfl, hdepth, children', others', hreads, hreads', hsame⟩ := h
        cases hsame
        exact ⟨_, (ihchildren _).mpr ⟨rfl, by omega, hreads⟩, _,
          (ihrest _).mpr ⟨rfl, by omega, hreads'⟩, rfl⟩
  | unclosed kind _ hinterior _ ih =>
    rw [scan_unclosed kind hinterior, reads_unclosed_iff kind hinterior, Token.depthAll,
      Token.depth]
    by_cases hdeep : settings.maxDepth.toNat ≤ depth
    · rw [if_pos hdeep]
      constructor
      · intro h
        cases h
      · intro h
        obtain ⟨_, hdepth, _⟩ := h
        omega
    · rw [if_neg hdeep]
      cases hstrict : settings.strict with
      | true => simp
      | false =>
        rw [if_neg (by decide), map_eq_ok_iff]
        rw [hstrict] at ih
        simp only [Token.depthAll, Nat.max_zero, true_and]
        constructor
        · intro h
          obtain ⟨children', hscan, rfl⟩ := h
          obtain ⟨rfl, hdepth, hreads⟩ := (ih _).mp hscan
          exact ⟨rfl, by omega, _, hreads, rfl⟩
        · intro h
          obtain ⟨rfl, hdepth, children', hreads, hsame⟩ := h
          cases hsame
          exact ⟨_, (ih _).mpr ⟨rfl, by omega, hreads⟩, rfl⟩

/-- The tokenizer gives the tokens of a text exactly when these are its reading, which must be
strict if the settings are, and nested no deeper than they allow. -/
theorem tokenize_eq_ok_iff (settings : Settings) (inGroup : Bool) (text : Text)
    (tokens : List Token) :
    tokenize settings inGroup text = .ok tokens ↔
      Reads settings.strict inGroup text tokens ∧
        Token.depthAll tokens ≤ settings.maxDepth.toNat := by
  obtain ⟨reading, hreading⟩ := exists_reads inGroup text
  rw [tokenize, scan_eq_ok_iff hreading, Nat.sub_zero]
  constructor
  · intro h
    obtain ⟨rfl, hdepth, hreads⟩ := h
    exact ⟨hreads, hdepth⟩
  · intro h
    obtain ⟨hreads, hdepth⟩ := h
    obtain rfl := hreads.unique hreading
    exact ⟨rfl, hdepth, hreads⟩

end LuauAnnotation
