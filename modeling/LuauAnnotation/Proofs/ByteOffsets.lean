import LuauAnnotation.Proofs.Pieces

/-!
# Matching by byte offsets

A text can be cut at a byte offset only where a character starts or the text ends. A matcher that
counts bytes cuts its text wherever a part of it has matched, and the cursor does so behind every
match. None of these cuts fails: a match is always as wide as the characters that it takes, so that
matching by bytes and matching by characters agree.
-/

namespace LuauAnnotation

/-! ### Cutting a text -/

namespace Text

/-- An offset at which a character of the text starts, or at which the text ends. -/
def IsBoundary (text : Text) (offset : Nat) : Prop :=
  ∃ before behind, text = before ++ behind ∧ bytes before = offset

/-- Why a text cannot be cut at an offset. -/
inductive Miscut where
  /-- The offset is inside the bytes of one character. -/
  | insideCharacter
  /-- The text has fewer bytes. -/
  | behindEnd
deriving DecidableEq

/-- The parts of a text before and behind a byte offset. -/
def cut : Text → Nat → Except Miscut (Text × Text)
  | text, 0 => .ok ([], text)
  | [], _ + 1 => .error .behindEnd
  | c :: rest, offset + 1 =>
    if c.utf8Size ≤ offset + 1 then
      (cut rest (offset + 1 - c.utf8Size)).map fun parts => (c :: parts.1, parts.2)
    else .error .insideCharacter

/-- A text can be cut between any two parts of it. -/
theorem cut_append (before behind : Text) :
    cut (before ++ behind) (bytes before) = .ok (before, behind) := by
  induction before with
  | nil => rw [List.nil_append, bytes_nil, cut]
  | cons c before ih =>
    have hpositive := c.utf8Size_pos
    obtain ⟨offset, hoffset⟩ : ∃ offset, bytes (c :: before) = offset + 1 :=
      Nat.exists_eq_add_one.mpr (Nat.lt_of_lt_of_le hpositive (Nat.le_add_right _ _))
    have hbefore : offset + 1 - c.utf8Size = bytes before := by
      rw [← hoffset, bytes_cons, Nat.add_sub_cancel_left]
    rw [hoffset, List.cons_append, cut, hbefore, ih, if_pos]
    · rfl
    · rw [← hoffset]
      exact Nat.le_add_right _ _

/-- Whatever is cut at an offset comes apart there. -/
theorem eq_append_of_cut {text : Text} {offset : Nat} {parts : Text × Text}
    (h : cut text offset = .ok parts) : text = parts.1 ++ parts.2 ∧ bytes parts.1 = offset := by
  fun_induction cut text offset generalizing parts with
  | case1 text =>
    cases h
    exact ⟨rfl, rfl⟩
  | case2 offset => cases h
  | case3 c rest offset hfits ih =>
    cases hcut : cut rest (offset + 1 - c.utf8Size) with
    | error fault =>
      rw [hcut] at h
      cases h
    | ok inner =>
      rw [hcut] at h
      cases h
      obtain ⟨rfl, hwidth⟩ := ih hcut
      exact ⟨rfl, by rw [bytes_cons, hwidth]; omega⟩
  | case4 c rest offset hinside => cases h

/-- There is nothing to cut behind the end of a text. -/
theorem le_bytes_of_cut {text : Text} {parts : Text × Text} {offset : Nat}
    (h : cut text offset = .ok parts) : offset ≤ bytes text := by
  obtain ⟨htext, hwidth⟩ := eq_append_of_cut h
  rw [htext, bytes_append, hwidth]
  exact Nat.le_add_right _ _

/-- The boundaries of a text are the offsets at which it can be cut. -/
theorem isBoundary_iff {text : Text} {offset : Nat} :
    text.IsBoundary offset ↔ ∃ parts, cut text offset = .ok parts := by
  constructor
  · rintro ⟨before, behind, rfl, rfl⟩
    exact ⟨_, cut_append before behind⟩
  · rintro ⟨parts, h⟩
    exact ⟨parts.1, parts.2, eq_append_of_cut h⟩

end Text

/-! ### Matching with cuts -/

open Text (Miscut)

/-- The number of successive non-empty matches and the offset behind them, when `count` matches
stand in front of the given offset. No match is added that would reach the ceiling. -/
def repeatFrom (width : Text → Except Miscut (Option Nat)) (ceiling? : Option Nat) (text : Text)
    (count offset : Nat) : Except Miscut (Nat × Nat) :=
  if ceiling?.all (count + 1 < ·) then
    match _h : text.cut offset with
    | .error fault => .error fault
    | .ok (_, rest) =>
      match width rest with
      | .error fault => .error fault
      | .ok (some (n + 1)) => repeatFrom width ceiling? text (count + 1) (offset + (n + 1))
      | .ok _ => .ok (count, offset)
  else .ok (count, offset)
termination_by Text.bytes text + 1 - offset
decreasing_by
  have hle := Text.le_bytes_of_cut ‹_›
  omega

/-- The offset of the closer that balances `depth + 1` openers in front of the text, or of the end
of the text, when the text starts at an offset. -/
def balancedFrom (opener closer : Char) : Nat → Nat → Text → Nat
  | _, offset, [] => offset
  | depth, offset, c :: rest =>
    if c = opener then balancedFrom opener closer (depth + 1) (offset + c.utf8Size) rest
    else if c = closer then
      match depth with
      | 0 => offset
      | outer + 1 => balancedFrom opener closer outer (offset + c.utf8Size) rest
    else balancedFrom opener closer depth (offset + c.utf8Size) rest

namespace Matcher

/-- The width of one character with a property, at the start of a text. -/
def headWidth? (property : Char → Bool) : Text → Option Nat
  | [] => none
  | c :: _ => if property c then some c.utf8Size else none

mutual

/-- The number of bytes matched at the start of a text, if any match. The text is cut at the
offsets that the matches before have reached. -/
def width : Matcher → Text → Except Miscut (Option Nat)
  | .satisfying property, text => .ok (headWidth? property text)
  | .char c, text => .ok (headWidth? (· == c) text)
  | .literal wanted, text =>
    .ok (if wanted.isPrefixOf text then some (Text.bytes wanted) else none)
  | .oneOf chars, text => .ok (headWidth? chars.contains text)
  | .repetition matcher range, text => do
    let (count, offset) ← repeatFrom (width matcher) range.ceiling? text 0 0
    return if range.minimum ≤ count then some offset else none
  | .firstOf matchers, text => firstWidth matchers text
  | .sequence matchers, text => totalWidth matchers text 0
  | .absence matcher, text => do
    return if (← width matcher text).isNone then some 0 else none
  | .balanced opener closer, text => .ok (some (balancedFrom opener closer 0 0 text))

/-- The width of the match of the first matcher that matches. -/
def firstWidth : List Matcher → Text → Except Miscut (Option Nat)
  | [], _ => .ok none
  | matcher :: rest, text => do
    match ← width matcher text with
    | some n => return some n
    | none => firstWidth rest text

/-- The offset behind the matches of all the matchers, the first of which starts at an offset. -/
def totalWidth : List Matcher → Text → Nat → Except Miscut (Option Nat)
  | [], _, offset => .ok (some offset)
  | matcher :: rest, text, offset => do
    let (_, behind) ← text.cut offset
    match ← width matcher behind with
    | some n => totalWidth rest text (offset + n)
    | none => return none

end

/-- What a matcher takes at a position of a text, with the position behind it. -/
def eat (matcher : Matcher) (text : Text) (position : Nat) :
    Except Miscut (Option (Text × Nat)) := do
  let (_, rest) ← text.cut position
  match ← width matcher rest with
  | some n => do
    let (matched, _) ← rest.cut n
    return some (matched, position + n)
  | none => return none

end Matcher

/-! ### Bytes against characters -/

/-- The width of a match, given the number of its characters. -/
def widthOf (text : Text) (span? : Option Nat) : Option Nat :=
  span?.map fun n => Text.bytes (text.take n)

/-- A way to match by bytes takes what a way to match by characters takes. -/
def Agrees (width : Text → Except Miscut (Option Nat)) (step : Text → Option Nat) : Prop :=
  ∀ text, width text = .ok (widthOf text (step text))

/-- At an offset between two parts of a text the second part is matched. -/
theorem repeatFrom_append (width : Text → Except Miscut (Option Nat)) (ceiling? : Option Nat)
    (before text : Text) (count : Nat) :
    repeatFrom width ceiling? (before ++ text) count (Text.bytes before) =
      if ceiling?.all (count + 1 < ·) then
        match width text with
        | .error fault => .error fault
        | .ok (some (n + 1)) =>
          repeatFrom width ceiling? (before ++ text) (count + 1) (Text.bytes before + (n + 1))
        | .ok _ => .ok (count, Text.bytes before)
      else .ok (count, Text.bytes before) := by
  rw [repeatFrom]
  split
  · split
    · next fault hcut =>
      rw [Text.cut_append] at hcut
      cases hcut
    · next rest hcut =>
      rw [Text.cut_append] at hcut
      cases hcut
      rfl
  · rfl

/-- Below its ceiling a count leaves room for one more piece, and none at its ceiling. -/
theorem takeUpTo_cons (ceiling? : Option Nat) (count : Nat) (piece : Text) (pieces : List Text) :
    takeUpTo (ceiling?.map (· - 1 - count)) (piece :: pieces) =
      if ceiling?.all (count + 1 < ·) then
        piece :: takeUpTo (ceiling?.map (· - 1 - (count + 1))) pieces
      else [] := by
  cases ceiling? with
  | none => rfl
  | some ceiling =>
    simp only [Option.map_some, takeUpTo, Option.all_some, decide_eq_true_eq]
    split
    · next hroom =>
      rw [show ceiling - 1 - count = ceiling - 1 - (count + 1) + 1 by omega, List.take_succ_cons]
    · next hfull =>
      rw [show ceiling - 1 - count = 0 by omega, List.take_zero]

/-- A repetition takes the pieces of the text behind its offset, as many as its ceiling allows. -/
theorem repeatFrom_pieces {width : Text → Except Miscut (Option Nat)} {step : Text → Option Nat}
    (hwidth : Agrees width step) (ceiling? : Option Nat) (before : Text) (count : Nat)
    {text : Text} {pieces : List Text} (h : Pieces step text pieces) :
    repeatFrom width ceiling? (before ++ text) count (Text.bytes before) =
      .ok (count + (takeUpTo (ceiling?.map (· - 1 - count)) pieces).length,
        Text.bytes (before ++ (takeUpTo (ceiling?.map (· - 1 - count)) pieces).flatten)) := by
  induction h generalizing before count with
  | @done text hnone =>
    have htaken : takeUpTo (ceiling?.map (· - 1 - count)) [] = [] := by
      cases ceiling? with
      | none => rfl
      | some ceiling => exact List.take_nil
    rw [repeatFrom_append, hwidth text, htaken]
    rcases hnone with hnone | hnone <;> simp [hnone, widthOf]
  | @more piece rest pieces hne hstep hrest ih =>
    obtain ⟨n, hn⟩ : ∃ n, Text.bytes piece = n + 1 :=
      Nat.exists_eq_succ_of_ne_zero fun hzero => hne ((Text.bytes_eq_zero_iff piece).mp hzero)
    have hpiece : width (piece ++ rest) = .ok (some (n + 1)) := by
      rw [hwidth, hstep, widthOf, Option.map_some, List.take_left', hn]
      rfl
    have hbehind : Text.bytes before + (n + 1) = Text.bytes (before ++ piece) := by
      rw [Text.bytes_append, hn]
    -- Behind the piece the text is cut at the next offset, with one more match in front.
    have hahead := ih (before ++ piece) (count + 1)
    rw [List.append_assoc] at hahead
    rw [repeatFrom_append, takeUpTo_cons]
    simp only [hpiece, hbehind, hahead]
    split
    · rw [List.length_cons, List.flatten_cons, List.append_assoc, Nat.add_assoc, Nat.add_comm 1]
    · simp

/-- The closer that balances an opener stands behind the characters in front of it. -/
theorem balancedFrom_eq (opener closer : Char) (depth offset : Nat) (text : Text) :
    balancedFrom opener closer depth offset text =
      offset + Text.bytes (text.take (balancedSpan opener closer depth text)) := by
  induction text generalizing depth offset with
  | nil => rfl
  | cons c rest ih =>
    simp only [balancedFrom, balancedSpan]
    split
    · rw [ih, List.take_succ_cons, Text.bytes_cons, Nat.add_assoc]
    · split
      · cases depth with
        | zero => rfl
        | succ outer => simp only [ih, List.take_succ_cons, Text.bytes_cons, Nat.add_assoc]
      · rw [ih, List.take_succ_cons, Text.bytes_cons, Nat.add_assoc]

namespace Matcher

/-- One character is matched with its own width. -/
theorem agrees_head (property : Char → Bool) :
    Agrees (fun text => .ok (headWidth? property text)) (headSpan? property) := by
  intro text
  cases text with
  | nil => rfl
  | cons c rest =>
    simp only [headWidth?, headSpan?]
    split <;> simp [widthOf]

mutual

/-- Matching by bytes and matching by characters agree. -/
theorem agrees_width : ∀ matcher : Matcher, Agrees matcher.width matcher.span?
  | .satisfying property => agrees_head property
  | .char c => agrees_head (· == c)
  | .oneOf chars => agrees_head chars.contains
  | .literal wanted => by
    intro text
    rw [width, span?]
    split
    · next hstart =>
      obtain ⟨rest, rfl⟩ := List.isPrefixOf_iff_prefix.mp hstart
      rw [widthOf, Option.map_some, List.take_left']
      rfl
    · rfl
  | .repetition matcher range => by
    intro text
    obtain ⟨pieces, hpieces⟩ := exists_pieces (span?_staysWithin matcher) text
    obtain ⟨rest, htext⟩ := hpieces.exists_eq_takeUpTo_append range.maximum?
    have hrepeat : repeatFrom matcher.width range.ceiling? text 0 0 =
        .ok ((takeUpTo range.maximum? pieces).length,
          Text.bytes (takeUpTo range.maximum? pieces).flatten) := by
      simpa [CountRange.maximum?] using
        repeatFrom_pieces (agrees_width matcher) range.ceiling? [] 0 hpieces
    rw [width, hrepeat, span?_repetition range hpieces]
    simp only [bind, Except.bind]
    split
    · rw [widthOf, Option.map_some, htext, List.take_left]
      rfl
    · rfl
  | .firstOf matchers => agrees_firstWidth matchers
  | .sequence matchers => by
    intro text
    rw [width, span?]
    exact totalWidth_append matchers [] text
  | .absence matcher => by
    intro text
    rw [width, span?, agrees_width matcher text]
    cases matcher.span? text <;> rfl
  | .balanced opener closer => by
    intro text
    rw [width, span?, balancedFrom_eq, Nat.zero_add]
    rfl

/-- The first matcher to match is the same by bytes and by characters. -/
theorem agrees_firstWidth : ∀ matchers : List Matcher,
    Agrees (firstWidth matchers) (firstSpan? matchers)
  | [] => fun _ => rfl
  | matcher :: rest => by
    intro text
    rw [firstWidth, firstSpan?, agrees_width matcher text]
    cases matcher.span? text with
    | none => exact agrees_firstWidth rest text
    | some n => rfl

/-- The widths of matches one after the other add up as their spans do. -/
theorem totalWidth_append : ∀ (matchers : List Matcher) (before text : Text),
    totalWidth matchers (before ++ text) (Text.bytes before) =
      .ok ((totalSpan? matchers text).map fun n => Text.bytes (before ++ text.take n))
  | [], before, text => by simp [totalWidth, totalSpan?]
  | matcher :: rest, before, text => by
    rw [totalWidth, Text.cut_append, totalSpan?]
    simp only [bind, Except.bind, agrees_width matcher text]
    cases matcher.span? text with
    | none => rfl
    | some n =>
      -- The remaining matchers start where the first match ends, which is a boundary again.
      have hbehind := totalWidth_append rest (before ++ text.take n) (text.drop n)
      rw [List.append_assoc, List.take_append_drop, Text.bytes_append] at hbehind
      simp only [widthOf, Option.map_some, hbehind, Option.map_map, Function.comp_def,
        List.take_add, List.append_assoc]

end

/-- The cursor takes the characters of the match and moves behind them. -/
theorem eat_append (matcher : Matcher) (before text : Text) :
    matcher.eat (before ++ text) (Text.bytes before) =
      .ok ((matcher.span? text).map fun n =>
        (text.take n, Text.bytes (before ++ text.take n))) := by
  rw [eat, Text.cut_append]
  simp only [bind, Except.bind, agrees_width matcher text]
  cases matcher.span? text with
  | none => rfl
  | some n =>
    have hcut := Text.cut_append (text.take n) (text.drop n)
    rw [List.take_append_drop] at hcut
    simp only [widthOf, Option.map_some, hcut, Text.bytes_append]
    rfl

/-! ### Consuming matchers -/

/-- A way to match that takes a character at least whenever it matches. -/
def AlwaysTakes (step : Text → Option Nat) : Prop :=
  ∀ text n, step text = some n → 0 < n

/-- A match of one character takes one. -/
theorem alwaysTakes_head (property : Char → Bool) : AlwaysTakes (headSpan? property) := by
  intro text n h
  obtain ⟨c, rest, -, rfl⟩ := exists_of_headSpan? h
  exact Nat.one_pos

mutual

/-- A consuming matcher takes a character whenever it matches. -/
theorem alwaysTakes_span? : ∀ matcher : Matcher, matcher.consumes = true →
    AlwaysTakes matcher.span?
  | .satisfying property, _ => alwaysTakes_head property
  | .char c, _ => alwaysTakes_head (· == c)
  | .oneOf chars, _ => alwaysTakes_head chars.contains
  | .literal wanted, hconsumes => by
    intro text n h
    obtain ⟨-, rfl⟩ := span?_literal_eq_some h
    cases wanted with
    | nil => cases hconsumes
    | cons c rest => exact Nat.succ_pos _
  | .repetition matcher range, hconsumes => by
    intro text n h
    rw [consumes, Bool.and_eq_true, decide_eq_true_eq] at hconsumes
    obtain ⟨pieces, hpieces⟩ := exists_pieces (span?_staysWithin matcher) text
    rw [span?_repetition range hpieces] at h
    split at h
    · next henough =>
      cases h
      -- At least one piece is taken, and no piece is empty.
      obtain ⟨piece, others, htaken⟩ :=
        List.exists_cons_of_length_pos (Nat.le_trans hconsumes.1 henough)
      have hmem : piece ∈ takeUpTo range.maximum? pieces := htaken ▸ List.mem_cons_self
      have hne := hpieces.ne_nil piece (mem_of_mem_takeUpTo hmem)
      rw [htaken, List.flatten_cons, List.length_append]
      exact Nat.add_pos_left (List.length_pos_iff.mpr hne) _
    · cases h
  | .firstOf matchers, hconsumes => alwaysTakes_firstSpan? matchers hconsumes
  | .sequence matchers, hconsumes => alwaysTakes_totalSpan? matchers hconsumes
  | .absence matcher, hconsumes => by
    rw [consumes] at hconsumes
    cases hconsumes
  | .balanced opener closer, hconsumes => by
    rw [consumes] at hconsumes
    cases hconsumes

/-- If all of several matchers are consuming, the first to match takes a character. -/
theorem alwaysTakes_firstSpan? : ∀ matchers : List Matcher, everyConsumes matchers = true →
    AlwaysTakes (firstSpan? matchers)
  | [], _ => nofun
  | matcher :: rest, hconsumes => by
    intro text n h
    rw [everyConsumes, Bool.and_eq_true] at hconsumes
    rcases firstSpan?_cons_eq_some h with hmatch | hothers
    · exact alwaysTakes_span? matcher hconsumes.1 text n hmatch
    · exact alwaysTakes_firstSpan? rest hconsumes.2 text n hothers

/-- One consuming matcher suffices for a sequence to take a character. -/
theorem alwaysTakes_totalSpan? : ∀ matchers : List Matcher, someConsumes matchers = true →
    AlwaysTakes (totalSpan? matchers)
  | [], hconsumes => by
    rw [someConsumes] at hconsumes
    cases hconsumes
  | matcher :: rest, hconsumes => by
    intro text n h
    rw [someConsumes, Bool.or_eq_true] at hconsumes
    obtain ⟨here, behind, hmatch, hothers, rfl⟩ := totalSpan?_cons_eq_some h
    rcases hconsumes with hfirst | hrest
    · exact Nat.add_pos_left (alwaysTakes_span? matcher hfirst text here hmatch) _
    · exact Nat.add_pos_right _ (alwaysTakes_totalSpan? rest hrest _ behind hothers)

end

/-- No matcher cuts its text outside the boundaries, however it is put together. It matches as many
bytes as the characters that it takes have, which lie within the text and end at a boundary, the
cursor moves behind them, and a consuming matcher matches a byte at least. -/
theorem width_isBoundary (matcher : Matcher) (before text : Text) :
    matcher.width text = .ok (matcher.length? text) ∧
      (matcher.eat (before ++ text) (Text.bytes before) =
        .ok ((matcher.span? text).map fun n =>
          (text.take n, Text.bytes (before ++ text.take n)))) ∧
      ∀ n, matcher.length? text = some n →
        n ≤ Text.bytes text ∧ text.IsBoundary n ∧ (matcher.consumes = true → 0 < n) := by
  refine ⟨agrees_width matcher text, eat_append matcher before text, fun n h => ?_⟩
  obtain ⟨taken, hspan, rfl⟩ := Option.map_eq_some_iff.mp h
  have hboundary : text.IsBoundary (Text.bytes (text.take taken)) :=
    ⟨text.take taken, text.drop taken, (List.take_append_drop _ _).symm, rfl⟩
  obtain ⟨parts, hcut⟩ := Text.isBoundary_iff.mp hboundary
  refine ⟨Text.le_bytes_of_cut hcut, hboundary, fun hconsumes => ?_⟩
  have hpositive := alwaysTakes_span? matcher hconsumes text taken hspan
  have hwidth := Text.length_le_bytes (text.take taken)
  rw [List.length_take_of_le (span?_staysWithin matcher text taken hspan)] at hwidth
  exact Nat.lt_of_lt_of_le hpositive hwidth

/-- Behind an accent of two bytes, a repetition takes two dashes of three bytes each in front of a
letter, and the matched bytes are those of the three characters. -/
theorem width_isBoundary_dashes :
    let dashes := Matcher.sequence
      [.char 'é', .repetition (.oneOf ['-', '–']) ⟨.included 1, .unbounded⟩]
    dashes.consumes = true ∧ dashes.length? ['é', '–', '–', 'x'] = some 8 ∧
      8 ≤ Text.bytes ['é', '–', '–', 'x'] ∧ Text.IsBoundary ['é', '–', '–', 'x'] 8 ∧ 0 < 8 := by
  intro dashes
  have hconsumes : dashes.consumes = true := by decide
  have hlength : dashes.length? ['é', '–', '–', 'x'] = some 8 := by decide +kernel
  obtain ⟨-, -, hmatch⟩ := width_isBoundary dashes [] ['é', '–', '–', 'x']
  obtain ⟨hle, hboundary, hpositive⟩ := hmatch 8 hlength
  exact ⟨hconsumes, hlength, hle, hboundary, hpositive hconsumes⟩

end Matcher

end LuauAnnotation
