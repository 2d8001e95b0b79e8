import LuauAnnotation.Proofs.Interior
import LuauAnnotation.Proofs.Tokenizing

/-!
# The first fault of a text

An opener offends against settings if it stands too deep, or if it is unterminated and the
settings are strict. The tokenizer checks openers while it cuts the text into pieces, reads each
piece on its own and counts depths and offsets anew in each. What it reports is nevertheless a
property of the whole text: the fault of the first opener that offends, with the offset of this
opener in the text.
-/

namespace LuauAnnotation

/-- The number of bytes in front of a position. -/
def Text.offsetAt (text : Text) (i : Nat) : Nat := Text.bytes (text.take i)

/-- An opener of a kind at a position for which the settings reject the text. -/
def Offends (settings : Settings) (text : Text) (i : Nat) (kind : BracketKind) : Prop :=
  text.openerAt? i = some kind ∧
    (settings.maxDepth.toNat ≤ text.depthAt i ∨ settings.strict = true ∧ text.Unterminated i kind)

instance (settings : Settings) (text : Text) (i : Nat) (kind : BracketKind) :
    Decidable (Offends settings text i kind) := by
  unfold Offends
  infer_instance

/-- The fault of an opener that offends. Too great a depth comes before a missing closer. -/
def faultAt (settings : Settings) (text : Text) (i : Nat) (kind : BracketKind) : Fault :=
  if settings.maxDepth.toNat ≤ text.depthAt i then
    .nestingTooDeep settings.maxDepth.toNat (text.offsetAt i)
  else .unterminated kind (text.offsetAt i)

/-- The fault at a position, if an opener stands there and offends. -/
def faultAt? (settings : Settings) (text : Text) (i : Nat) : Option Fault :=
  (text.openerAt? i).bind fun kind =>
    if Offends settings text i kind then some (faultAt settings text i kind) else none

/-- The first fault at one of `n` positions. -/
def firstFault? (settings : Settings) (text : Text) (start n : Nat) : Option Fault :=
  (List.range' start n).findSome? (faultAt? settings text)

/-- The result for a text with the given first fault and reading. -/
def outcome (fault? : Option Fault) (tokens : List Token) : Except Fault (List Token) :=
  match fault? with
  | some fault => .error fault
  | none => .ok tokens

/-! ### Offsets -/

/-- Positions further on have no smaller offset. -/
theorem Text.offsetAt_mono (text : Text) {i j : Nat} (h : i ≤ j) :
    text.offsetAt i ≤ text.offsetAt j := by
  obtain ⟨n, rfl⟩ := Nat.exists_eq_add_of_le h
  rw [offsetAt, offsetAt, List.take_add, Text.bytes_append]
  exact Nat.le_add_right _ _

/-- Behind a character the offset is greater. -/
theorem Text.offsetAt_lt (text : Text) {i j : Nat} (h : i < j) (hi : i < text.length) :
    text.offsetAt i < text.offsetAt j := by
  have hnext : text.offsetAt i < text.offsetAt (i + 1) := by
    rw [offsetAt, offsetAt, List.take_add_one, List.getElem?_eq_getElem hi, Text.bytes_append]
    have hsize := text[i].utf8Size_pos
    simp only [Option.toList_some, Text.bytes_cons, Text.bytes_nil]
    omega
  exact hnext.trans_le (text.offsetAt_mono h)

/-- The offset at the end of an initial piece is the width of the piece. -/
theorem Text.offsetAt_length (front rest : Text) :
    Text.offsetAt (front ++ rest) front.length = Text.bytes front := by
  rw [offsetAt, List.take_left]

/-- Openers stand in the text. -/
theorem Offends.lt_length {settings : Settings} {text : Text} {i : Nat} {kind : BracketKind}
    (h : Offends settings text i kind) : i < text.length := by
  obtain ⟨c, hc, _⟩ := Option.bind_eq_some_iff.mp h.1
  exact (List.getElem?_eq_some_iff.mp hc).1

/-! ### Faults by position -/

variable {settings : Settings} {whole front rest : Text} {depth : Nat}

/-- The fault at a position is that of the opener there. -/
theorem faultAt?_eq_some_iff (text : Text) (i : Nat) (fault : Fault) :
    faultAt? settings text i = some fault ↔
      ∃ kind, Offends settings text i kind ∧ fault = faultAt settings text i kind := by
  rw [faultAt?, Option.bind_eq_some_iff]
  refine exists_congr fun kind => ?_
  constructor
  · intro h
    obtain ⟨_, hfault⟩ := h
    split at hfault
    · exact ⟨‹_›, (Option.some.inj hfault).symm⟩
    · cases hfault
  · intro h
    obtain ⟨hoffends, rfl⟩ := h
    exact ⟨hoffends.1, if_pos hoffends⟩

/-- There is no fault at a position where no opener offends. -/
theorem faultAt?_eq_none_iff (text : Text) (i : Nat) :
    faultAt? settings text i = none ↔ ∀ kind, ¬ Offends settings text i kind := by
  rw [Option.eq_none_iff_forall_ne_some]
  constructor
  · intro h kind hoffends
    exact h _ ((faultAt?_eq_some_iff text i _).mpr ⟨kind, hoffends, rfl⟩)
  · intro h fault hfault
    obtain ⟨kind, hoffends, _⟩ := (faultAt?_eq_some_iff text i fault).mp hfault
    exact h kind hoffends

/-- Where no openers stand there is no fault. -/
theorem firstFault?_of_plain (text : Text) (start n : Nat)
    (h : ∀ i, start ≤ i → i < start + n → text.openerAt? i = none) :
    firstFault? settings text start n = none := by
  rw [firstFault?, List.findSome?_eq_none_iff]
  intro i hi
  rw [List.mem_range'_1] at hi
  rw [faultAt?, h i hi.1 hi.2, Option.bind_none]

/-- The first fault is looked for in front first. -/
theorem firstFault?_add (text : Text) (start m n : Nat) :
    firstFault? settings text start (m + n) =
      (firstFault? settings text start m).or (firstFault? settings text (start + m) n) := by
  rw [firstFault?, ← List.range'_append_1, List.findSome?_append, firstFault?, firstFault?]

/-- The first fault is looked for at the first position first. -/
theorem firstFault?_succ (text : Text) (start n : Nat) :
    firstFault? settings text start (n + 1) =
      (faultAt? settings text start).or (firstFault? settings text (start + 1) n) := by
  rw [Nat.add_comm, firstFault?_add, firstFault?, List.range'_one, List.findSome?_singleton]

/-- The first fault of the empty piece. -/
theorem firstFault?_zero (text : Text) (start : Nat) : firstFault? settings text start 0 = none := by
  rw [firstFault?, List.range'_zero, List.findSome?_nil]

/-- The fault of an opener at the start of a piece. -/
theorem Text.Level.faultAt?_eq {kind : BracketKind}
    (h : Text.Level whole front (kind.opener :: rest) depth) :
    faultAt? settings whole front.length =
      if settings.maxDepth.toNat ≤ depth then
        some (.nestingTooDeep settings.maxDepth.toNat (Text.bytes front))
      else if settings.strict = true ∧ whole.Unterminated front.length kind then
        some (.unterminated kind (Text.bytes front))
      else none := by
  have hopener : whole.openerAt? front.length = some kind := by
    rw [h.openerAt?, kind.ofOpener?_opener]
  have hoffset : whole.offsetAt front.length = Text.bytes front := by
    obtain ⟨back, hback⟩ := h.isPrefix
    rw [← hback, List.append_assoc, Text.offsetAt_length]
  rw [faultAt?, hopener, Option.bind_some]
  simp only [Offends, faultAt, hopener, h.depthAt_eq, hoffset, true_and]
  by_cases hdepth : settings.maxDepth.toNat ≤ depth
  · simp only [hdepth, true_or, if_true]
  · simp only [hdepth, false_or, if_false]

/-- An opener at the start of a piece that is closed there offends only if it is too deep. -/
theorem Text.Level.faultAt?_closed {kind : BracketKind} {interior : Text}
    (h : Text.Level whole front (kind.opener :: (interior ++ kind.closer :: rest)) depth)
    (hinterior : kind.Balanced interior) :
    faultAt? settings whole front.length =
      if settings.maxDepth.toNat ≤ depth then
        some (.nestingTooDeep settings.maxDepth.toNat (Text.bytes front))
      else none := by
  have hclosed : ¬ whole.Unterminated front.length kind := by
    rw [Text.Unterminated, h.closerOf?_closed hinterior]
    exact Option.some_ne_none _
  rw [h.faultAt?_eq]
  simp only [hclosed, and_false, if_false]

/-- An opener at the start of a piece that is not closed there offends against strict settings. -/
theorem Text.Level.faultAt?_unclosed {kind : BracketKind}
    (h : Text.Level whole front (kind.opener :: rest) depth) (hrest : kind.Unclosed rest) :
    faultAt? settings whole front.length =
      if settings.maxDepth.toNat ≤ depth then
        some (.nestingTooDeep settings.maxDepth.toNat (Text.bytes front))
      else if settings.strict = true then some (.unterminated kind (Text.bytes front))
      else none := by
  have hopen : whole.Unterminated front.length kind := h.closerOf?_unclosed hrest
  rw [h.faultAt?_eq]
  simp only [hopen, and_true]

/-- Characters that open nothing are passed over. -/
theorem Text.Level.firstFault?_plain (settings : Settings) {here : Text}
    (h : Text.Level whole front (here ++ rest) depth)
    (hplain : ∀ c ∈ here, BracketKind.ofOpener? c = none) :
    Text.Level whole (front ++ here) rest depth ∧
      firstFault? settings whole front.length (here ++ rest).length =
        firstFault? settings whole (front ++ here).length rest.length := by
  obtain ⟨hnone, hbehind⟩ := h.behind_plain hplain
  refine ⟨hbehind, ?_⟩
  rw [List.length_append, firstFault?_add, firstFault?_of_plain whole _ _ hnone, Option.none_or,
    List.length_append]

/-- In a closed group the opener comes first, then the interior, then the text behind. -/
theorem Text.Level.firstFault?_closed {kind : BracketKind} {interior : Text}
    (h : Text.Level whole front (kind.opener :: (interior ++ kind.closer :: rest)) depth) :
    firstFault? settings whole front.length
        (kind.opener :: (interior ++ kind.closer :: rest)).length =
      (faultAt? settings whole front.length).or
        ((firstFault? settings whole (front ++ [kind.opener]).length interior.length).or
          (firstFault? settings whole (front ++ kind.opener :: (interior ++ [kind.closer])).length
            rest.length)) := by
  have hcloser : faultAt? settings whole (front.length + 1 + interior.length) = none := by
    rw [faultAt?, h.openerAt?_closer, Option.bind_none]
  rw [List.length_cons, List.length_append, List.length_cons, firstFault?_succ, firstFault?_add,
    firstFault?_succ, hcloser, Option.none_or, Text.length_append_group, List.length_append,
    List.length_singleton]

/-! ### The tokenizer and the first fault -/

/-- Mapping the tokens of a result does not change its fault. -/
theorem outcome_map (fault? : Option Fault) (tokens : List Token) (f : List Token → List Token) :
    (outcome fault? tokens).map f = outcome fault? (f tokens) := by
  cases fault? <;> rfl

/-- Tokens are given if there is no fault. -/
theorem outcome_eq_ok_iff (fault? : Option Fault) (reading tokens : List Token) :
    outcome fault? reading = .ok tokens ↔ tokens = reading ∧ fault? = none := by
  cases fault? <;> simp [outcome, eq_comm]

/-- A fault is given if there is one. -/
theorem outcome_eq_error_iff (fault? : Option Fault) (reading : List Token) (fault : Fault) :
    outcome fault? reading = .error fault ↔ fault? = some fault := by
  cases fault? <;> simp [outcome]

/-- A piece of a text is read without a fault if no opener in it offends, and otherwise fails with
the fault of the first opener in it that does. -/
theorem scan_eq_outcome {inGroup : Bool} {text : Text} {reading : List Token}
    (hreading : Reads false inGroup text reading) (hlevel : Text.Level whole front text depth) :
    scan settings inGroup depth (Text.bytes front) text =
      outcome (firstFault? settings whole front.length text.length) reading := by
  -- By induction on the reading, where each piece that is read on its own is a level again.
  induction hreading generalizing front depth with
  | nil inGroup =>
    rw [scan_nil, List.length_nil, firstFault?_zero]
    rfl
  | @blank inGroup c rest tokens hblank _ ih =>
    have hplain : ∀ d ∈ [c], BracketKind.ofOpener? d = none := by
      simpa using BracketKind.ofOpener?_of_isBlank hblank
    have hpiece : Text.Level whole front ([c] ++ rest) depth := hlevel
    obtain ⟨hbehind, hfirst⟩ := hpiece.firstFault?_plain settings hplain
    have hoffset : Text.bytes front + c.utf8Size = Text.bytes (front ++ [c]) := by simp
    rw [scan_blank hblank, hoffset, ih hbehind, ← hfirst, List.singleton_append]
  | @lexeme inGroup lexeme rest here others hlexeme _ ih =>
    obtain ⟨hbehind, hfirst⟩ := hlevel.firstFault?_plain settings hlexeme.ofOpener?_eq_none
    rw [scan_lexeme hlexeme, ← Text.bytes_append, ih hbehind, outcome_map, hfirst]
  | @closed inGroup interior rest children others kind hinterior _ _ ihchildren ihrest =>
    obtain ⟨hinside, hbehind⟩ := hlevel.closed hinterior
    have hstart : Text.bytes front + kind.opener.utf8Size = Text.bytes (front ++ [kind.opener]) := by
      simp
    have hend : Text.bytes (front ++ [kind.opener]) + Text.bytes (interior ++ [kind.closer]) =
        Text.bytes (front ++ kind.opener :: (interior ++ [kind.closer])) := by
      simp [Nat.add_assoc]
    rw [scan_closed kind hinterior, hstart, hend, ihchildren hinside, ihrest hbehind,
      hlevel.firstFault?_closed, hlevel.faultAt?_closed hinterior]
    -- The first fault is that of the opener, or one in the interior, or one behind the closer.
    split
    · rfl
    · rw [Option.none_or]
      cases firstFault? settings whole (front ++ [kind.opener]).length interior.length with
      | some fault => rfl
      | none =>
        rw [Option.none_or]
        exact outcome_map _ _ _
  | @unclosed inGroup interior children kind _ hinterior _ ih =>
    have hstart : Text.bytes front + kind.opener.utf8Size = Text.bytes (front ++ [kind.opener]) := by
      simp
    have hlength : (front ++ [kind.opener]).length = front.length + 1 := by simp
    rw [scan_unclosed kind hinterior, hstart, ih (hlevel.unclosed hinterior), outcome_map,
      List.length_cons, firstFault?_succ, hlevel.faultAt?_unclosed hinterior, hlength]
    split
    · rfl
    · split
      · rfl
      · rw [Option.none_or]

/-- A text has no first fault if no opener offends. -/
theorem firstFault?_eq_none_iff (text : Text) :
    firstFault? settings text 0 text.length = none ↔ ∀ i kind, ¬ Offends settings text i kind := by
  rw [firstFault?, List.findSome?_eq_none_iff]
  constructor
  · intro h i kind hoffends
    have hmem : i ∈ List.range' 0 text.length := by
      rw [List.mem_range'_1]
      exact ⟨Nat.zero_le i, by simpa using hoffends.lt_length⟩
    exact (faultAt?_eq_none_iff text i).mp (h i hmem) kind hoffends
  · intro h i _
    exact (faultAt?_eq_none_iff text i).mpr (h i)

/-- The first fault of a text is that of an offending opener with no offending opener in front of
it. -/
theorem exists_offends_of_firstFault? (text : Text) (fault : Fault)
    (h : firstFault? settings text 0 text.length = some fault) :
    ∃ i kind, Offends settings text i kind ∧
      (∀ j other, Offends settings text j other → i ≤ j) ∧ fault = faultAt settings text i kind := by
  obtain ⟨passed, i, others, hrange, hfault, hpassed⟩ := List.findSome?_eq_some_iff.mp h
  obtain ⟨n, _, rfl, hothers⟩ := List.range'_eq_append_iff.mp hrange
  obtain ⟨hi, _⟩ := List.range'_eq_cons_iff.mp hothers.symm
  obtain ⟨kind, hoffends, rfl⟩ := (faultAt?_eq_some_iff text i fault).mp hfault
  refine ⟨i, kind, hoffends, fun j other hother => ?_, rfl⟩
  by_contra hj
  have hmem : j ∈ List.range' 0 n := by
    rw [List.mem_range'_1]
    omega
  exact (faultAt?_eq_none_iff text j).mp (hpassed j hmem) other hother

/-- The first fault of a text is that of the offending opener with the smallest offset. -/
theorem firstFault?_eq_some_iff (text : Text) (fault : Fault) :
    firstFault? settings text 0 text.length = some fault ↔
      ∃ i kind, Offends settings text i kind ∧
        (∀ j other, Offends settings text j other → text.offsetAt i ≤ text.offsetAt j) ∧
        fault = faultAt settings text i kind := by
  constructor
  · intro h
    obtain ⟨i, kind, hoffends, hfirst, hfault⟩ := exists_offends_of_firstFault? text fault h
    exact ⟨i, kind, hoffends, fun j other hother => text.offsetAt_mono (hfirst j other hother),
      hfault⟩
  · intro h
    obtain ⟨i, kind, hoffends, hleast, rfl⟩ := h
    cases hfound : firstFault? settings text 0 text.length with
    | none => exact absurd hoffends ((firstFault?_eq_none_iff text).mp hfound i kind)
    | some fault =>
      obtain ⟨j, other, hother, hfirst, rfl⟩ := exists_offends_of_firstFault? text fault hfound
      -- Offsets grow with positions, so both openers are the same.
      have hij : i = j := by
        rcases Nat.eq_or_lt_of_le (hfirst i kind hoffends) with hsame | hlt
        · exact hsame.symm
        · exact absurd (hleast j other hother) (text.offsetAt_lt hlt hother.lt_length).not_ge
      subst hij
      rw [Option.some.inj (hother.1.symm.trans hoffends.1)]

/-- Whatever the settings, a text without offending openers has the same tokens, and any other
text has the fault of the offending opener with the smallest offset. -/
theorem tokenize_outcome (inGroup : Bool) (text : Text) :
    ∃ reading, ∀ settings,
      (∀ tokens, tokenize settings inGroup text = .ok tokens ↔
        tokens = reading ∧ ∀ i kind, ¬ Offends settings text i kind) ∧
      ∀ fault, tokenize settings inGroup text = .error fault ↔
        ∃ i kind, Offends settings text i kind ∧
          (∀ j other, Offends settings text j other → text.offsetAt i ≤ text.offsetAt j) ∧
          fault = faultAt settings text i kind := by
  obtain ⟨reading, hreading⟩ := exists_reads inGroup text
  refine ⟨reading, fun settings => ?_⟩
  have houtcome : tokenize settings inGroup text =
      outcome (firstFault? settings text 0 text.length) reading :=
    scan_eq_outcome hreading (Text.level_whole text)
  refine ⟨fun tokens => ?_, fun fault => ?_⟩
  · rw [houtcome, ← firstFault?_eq_none_iff, outcome_eq_ok_iff]
  · rw [houtcome, ← firstFault?_eq_some_iff, outcome_eq_error_iff]

/-- The brace is not closed in the parentheses around it, and stands behind three bytes. -/
example : firstFault? ⟨128, true⟩ ['é', '(', '{', ')', '}'] 0 5 = some (.unterminated .table 3) := by
  decide

end LuauAnnotation
