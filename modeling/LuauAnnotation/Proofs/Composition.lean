import LuauAnnotation.Proofs.Tokenizing

/-!
# Texts made of texts

The tokenizer reads a text as it reads its parts, where the parts do not touch. A text whose
brackets are all closed ends at a delimiter as it would end on its own, and the text behind the
delimiter is read as if it stood alone. A text between two brackets is read as a text in a group
that has one level less. Only the places of faults differ, and the limits that they name: faults
move with the text in which they are found.
-/

namespace LuauAnnotation

variable {settings : Settings} {inGroup : Bool} {depth offset : Nat}

/-! ### Moving a text -/

/-- A fault of a text that was moved into further brackets and further on, with the settings
admitting as many more levels. -/
def Fault.relocate (levels before : Nat) : Fault → Fault
  | .nestingTooDeep limit offset => .nestingTooDeep (levels + limit) (before + offset)
  | .unterminated kind offset => .unterminated kind (before + offset)
  | fault => fault

/-- Without further brackets only the offset of a fault grows. -/
theorem Fault.relocate_zero (before : Nat) (fault : Fault) :
    fault.relocate 0 before = fault.shift before := by
  cases fault <;> simp [relocate, shift]

/-- A text that is moved is read as before, up to the place of its fault. -/
theorem scan_relocate (settings wider : Settings) (levels before : Nat)
    (hlimit : wider.maxDepth.toNat = levels + settings.maxDepth.toNat)
    (hstrict : wider.strict = settings.strict) (inGroup : Bool) (depth offset : Nat) (text : Text) :
    scan wider inGroup (levels + depth) (before + offset) text =
      (scan settings inGroup depth offset text).mapError (Fault.relocate levels before) := by
  obtain ⟨reading, hreading⟩ := exists_reads inGroup text
  have hdeep (depth : Nat) :
      wider.maxDepth.toNat ≤ levels + depth ↔ settings.maxDepth.toNat ≤ depth := by
    omega
  induction hreading generalizing depth offset with
  | nil inGroup => simp [scan_nil, Except.mapError]
  | blank hblank _ ih => rw [scan_blank hblank, scan_blank hblank, Nat.add_assoc, ih]
  | @lexeme inGroup lexeme rest here others hlexeme _ ih =>
    rw [scan_lexeme hlexeme, scan_lexeme hlexeme, Nat.add_assoc, ih]
    cases scan settings inGroup depth (offset + Text.bytes lexeme) rest <;> rfl
  | @closed inGroup interior rest _ _ kind hinterior _ _ ihchildren ihrest =>
    rw [scan_closed kind hinterior, scan_closed kind hinterior]
    simp only [hdeep]
    split
    · simp [Except.mapError, Fault.relocate, hlimit]
    · -- The interior is moved with the text around it, and so is the text behind the closer.
      rw [Nat.add_assoc levels, Nat.add_assoc before, ihchildren, Nat.add_assoc before, ihrest]
      cases scan settings true (depth + 1) (offset + kind.opener.utf8Size) interior with
      | error fault => rfl
      | ok children =>
        cases scan settings inGroup depth
          (offset + kind.opener.utf8Size + Text.bytes (interior ++ [kind.closer])) rest <;> rfl
  | @unclosed inGroup interior _ kind _ hinterior _ ih =>
    rw [scan_unclosed kind hinterior, scan_unclosed kind hinterior, hstrict]
    simp only [hdeep]
    split
    · simp [Except.mapError, Fault.relocate, hlimit]
    · split
      · rfl
      · rw [Nat.add_assoc levels, Nat.add_assoc before, ih]
        cases scan settings true (depth + 1) (offset + kind.opener.utf8Size) interior <;> rfl

/-! ### One text behind another -/

namespace Lexeme

/-- A text that no lexeme in front of it reaches into: an atom ends there, and a hyphen makes no
arrow with it. -/
structure StartsAfresh (inGroup : Bool) (after : Text) : Prop where
  endsAtom : EndsAtom inGroup after
  no_arrow : after.head? ≠ some '>'

/-- The first character decides whether lexemes reach into a text. -/
theorem startsAfresh_cons {c : Char} (rest : Text) (hatom : isAtomChar inGroup c = false)
    (harrow : c ≠ '>') : StartsAfresh inGroup (c :: rest) :=
  ⟨(endsAtom_cons inGroup c rest).mpr hatom, by simpa using harrow⟩

/-- A lexeme stands for the same tokens if its text is continued behind the text after it. -/
theorem StandsFor.append {lexeme after more : Text} {tokens : List Token}
    (h : StandsFor inGroup lexeme tokens after) (hmore : StartsAfresh inGroup more) :
    StandsFor inGroup lexeme tokens (after ++ more) := by
  cases after with
  | cons c rest => exact h.of_head? rfl
  | nil =>
    cases h with
    | separator _ hgroup => exact .separator _ hgroup
    | arrow => exact .arrow _
    | punctuation c _ hc hopener _ =>
      exact .punctuation c _ hc hopener fun _ => hmore.no_arrow
    | atom _ _ hrun hchars _ => exact .atom _ _ hrun hchars hmore.endsAtom

end Lexeme

/-- A text with a strict reading is read as on its own, and then the text behind it. -/
theorem scan_append {left right : Text} {closed : List Token} (hleft : Reads true inGroup left closed)
    (hright : Lexeme.StartsAfresh inGroup right) (depth offset : Nat) :
    scan settings inGroup depth offset (left ++ right) = do
      let before ← scan settings inGroup depth offset left
      let after ← scan settings inGroup depth (offset + Text.bytes left) right
      return before ++ after := by
  induction hleft generalizing offset with
  | nil inGroup =>
    rw [List.nil_append, scan_nil, Text.bytes_nil, Nat.add_zero]
    cases scan settings inGroup depth offset right <;> rfl
  | @blank _ c rest _ hblank _ ih =>
    rw [List.cons_append, scan_blank hblank, scan_blank hblank, ih hright, Text.bytes_cons,
      Nat.add_assoc]
  | @lexeme inGroup lexeme rest here others hlexeme _ ih =>
    rw [List.append_assoc, scan_lexeme (hlexeme.append hright), scan_lexeme hlexeme, ih hright,
      Text.bytes_append, Nat.add_assoc]
    cases scan settings inGroup depth (offset + Text.bytes lexeme) rest with
    | error fault => rfl
    | ok before =>
      cases scan settings inGroup depth
        (offset + (Text.bytes lexeme + Text.bytes rest)) right with
      | error fault => rfl
      | ok after => exact congrArg Except.ok (List.append_assoc here before after).symm
  | @closed inGroup interior rest children others kind hinterior _ _ _ ihrest =>
    have hwidth : offset + kind.opener.utf8Size + Text.bytes (interior ++ [kind.closer]) +
        Text.bytes rest =
          offset + Text.bytes (kind.opener :: (interior ++ kind.closer :: rest)) := by
      simp [Nat.add_assoc]
    rw [List.cons_append, List.append_assoc, List.cons_append, scan_closed kind hinterior,
      scan_closed kind hinterior, ihrest hright, hwidth]
    split
    · rfl
    · cases scan settings true (depth + 1) (offset + kind.opener.utf8Size) interior with
      | error fault => rfl
      | ok children =>
        cases scan settings inGroup depth
          (offset + kind.opener.utf8Size + Text.bytes (interior ++ [kind.closer])) rest with
        | error fault => rfl
        | ok before =>
          cases scan settings inGroup depth
            (offset + Text.bytes (kind.opener :: (interior ++ kind.closer :: rest))) right <;> rfl
  | unclosed _ hstrict _ _ _ => exact absurd hstrict (by decide)

/-! ### Delimiters -/

/-- The texts that delimit what stands before and behind them, each with its tokens. -/
inductive Delimiter (inGroup : Bool) : Text → List Token → Prop where
  | blanks (blanks : Text) (hne : blanks ≠ []) (hblank : ∀ c ∈ blanks, isBlank c = true) :
      Delimiter inGroup blanks []
  | comma (hgroup : inGroup = true) : Delimiter inGroup [','] [.separator]
  | bar : Delimiter inGroup ['|'] [.union]
  | ampersand : Delimiter inGroup ['&'] [.intersection]
  | less : Delimiter inGroup ['<'] [.punctuation '<']
  | arrow : Delimiter inGroup ['-', '>'] [.arrow]
  | closer (kind : BracketKind) : Delimiter inGroup [kind.closer] [.punctuation kind.closer]

namespace Delimiter

variable {delimiter : Text} {here : List Token}

/-- No lexeme reaches into a delimiter. -/
theorem startsAfresh (h : Delimiter inGroup delimiter here) (right : Text) :
    Lexeme.StartsAfresh inGroup (delimiter ++ right) := by
  cases h with
  | blanks _ hne hblank =>
    cases delimiter with
    | nil => exact absurd rfl hne
    | cons c rest =>
      have hc := hblank c List.mem_cons_self
      apply Lexeme.startsAfresh_cons
      · exact Lexeme.not_isAtomChar_of_isBlank inGroup hc
      · exact Lexeme.ne_of_isBlank hc (by decide)
  | comma hgroup => exact Lexeme.startsAfresh_cons _ (hgroup ▸ by decide) (by decide)
  | closer kind =>
    apply Lexeme.startsAfresh_cons
    · exact Lexeme.not_isAtomChar_of_mem inGroup (Lexeme.closer_mem_punctuationChars kind)
    · cases kind <;> decide
  | _ => exact Lexeme.startsAfresh_cons _ (by cases inGroup <;> decide) (by decide)

/-- A delimiter is a lexeme with its tokens, in front of any text, or consists of blanks. -/
theorem standsFor_or_blanks (h : Delimiter inGroup delimiter here) (right : Text) :
    Lexeme.StandsFor inGroup delimiter here right ∨
      here = [] ∧ ∀ c ∈ delimiter, isBlank c = true := by
  have hpunctuation (c : Char) (hc : c ∈ Lexeme.punctuationChars)
      (hopener : BracketKind.ofOpener? c = none) (hdash : c ≠ '-') :
      Lexeme.StandsFor inGroup [c] [Token.ofPunctuation c] right :=
    .punctuation c right hc hopener fun hsame => absurd hsame hdash
  cases h with
  | blanks _ _ hblank => exact Or.inr ⟨rfl, hblank⟩
  | comma hgroup => exact Or.inl (.separator right hgroup)
  | bar => exact Or.inl (hpunctuation '|' (by decide) rfl (by decide))
  | ampersand => exact Or.inl (hpunctuation '&' (by decide) rfl (by decide))
  | less => exact Or.inl (hpunctuation '<' (by decide) rfl (by decide))
  | arrow => exact Or.inl (.arrow right)
  | closer kind =>
    have htoken : Token.ofPunctuation kind.closer = .punctuation kind.closer := by
      cases kind <;> rfl
    have hlexeme := hpunctuation kind.closer (Lexeme.closer_mem_punctuationChars kind)
      kind.ofOpener?_closer_eq_none (by cases kind <;> decide)
    exact Or.inl (htoken ▸ hlexeme)

end Delimiter

/-- Blanks are passed over. -/
theorem scan_blanks {blanks : Text} (hblank : ∀ c ∈ blanks, isBlank c = true) (right : Text) :
    scan settings inGroup depth offset (blanks ++ right) =
      scan settings inGroup depth (offset + Text.bytes blanks) right := by
  induction blanks generalizing offset with
  | nil => rfl
  | cons c rest ih =>
    rw [List.forall_mem_cons] at hblank
    rw [List.cons_append, scan_blank hblank.1, ih hblank.2, Text.bytes_cons, Nat.add_assoc]

/-- A delimiter gives its tokens, in front of those of the text behind it. -/
theorem scan_delimiter {delimiter : Text} {here : List Token}
    (h : Delimiter inGroup delimiter here) (right : Text) :
    scan settings inGroup depth offset (delimiter ++ right) =
      (scan settings inGroup depth (offset + Text.bytes delimiter) right).map (here ++ ·) := by
  rcases h.standsFor_or_blanks right with hlexeme | ⟨rfl, hblank⟩
  · exact scan_lexeme hlexeme
  · rw [scan_blanks hblank]
    cases scan settings inGroup depth (offset + Text.bytes delimiter) right <;> rfl

/-- A text whose brackets are all closed, which is one with a strict reading, is read up to a
delimiter as on its own. The text behind the delimiter is read as on its own too, and its fault is
seen from the start of the whole. -/
theorem tokenize_delimited (settings : Settings) (inGroup : Bool) (left right delimiter : Text)
    (closed here : List Token) (hleft : Reads true inGroup left closed)
    (hdelimiter : Delimiter inGroup delimiter here) :
    tokenize settings inGroup (left ++ delimiter ++ right) =
      match tokenize settings inGroup left with
      | .error fault => .error fault
      | .ok before =>
        match tokenize settings inGroup right with
        | .error fault => .error (fault.shift (Text.bytes (left ++ delimiter)))
        | .ok after => .ok (before ++ here ++ after) := by
  have hmoved := scan_relocate settings settings 0 (Text.bytes (left ++ delimiter))
    (Nat.zero_add settings.maxDepth.toNat).symm rfl inGroup 0 0 right
  rw [funext (Fault.relocate_zero _), Nat.add_zero, Nat.add_zero] at hmoved
  simp only [tokenize]
  rw [List.append_assoc, scan_append hleft (hdelimiter.startsAfresh right),
    scan_delimiter hdelimiter, Nat.zero_add, ← Text.bytes_append, hmoved]
  cases scan settings inGroup 0 0 left with
  | error fault => rfl
  | ok before =>
    cases scan settings inGroup 0 0 right with
    | error fault => rfl
    | ok after => exact congrArg Except.ok (List.append_assoc before here after).symm

/-- A hyphen in front of an arrow stays a hyphen, and a fault behind the arrow is found at its place
in the whole. -/
theorem tokenize_delimited_hyphen :
    Reads true false ['(', '}', ')', '-'] [.bracketed .tuple [.punctuation '}'], .punctuation '-'] ∧
      Delimiter false ['-', '>'] [.arrow] ∧
      tokenize ⟨1, true⟩ false (['(', '}', ')', '-'] ++ ['-', '>'] ++ ['é', ')', '[']) =
        .error (.unterminated .indexer 9) := by
  have hleft : Reads true false ['(', '}', ')', '-']
      [.bracketed .tuple [.punctuation '}'], .punctuation '-'] :=
    ((tokenize_eq_ok_iff ⟨1, true⟩ false _ _).mp (by decide +kernel)).1
  refine ⟨hleft, .arrow, ?_⟩
  exact (tokenize_delimited ⟨1, true⟩ false _ _ _ _ _ hleft .arrow).trans (by decide +kernel)

/-! ### One text in brackets -/

/-- The result for a text in a bracket pair, given the result for the text in a group that has one
level less. -/
def enclosed (kind : BracketKind) : Except Fault (List Token) → Except Fault (List Token)
  | .ok tokens => .ok [.bracketed kind tokens]
  | .error (.nestingTooDeep limit offset) => .error (.nestingTooDeep (limit + 1) (offset + 1))
  | .error (.unterminated other offset) => .error (.unterminated other (offset + 1))
  | .error fault => .error fault

/-- In a bracket pair a fault is found one level deeper and one byte further on. -/
theorem enclosed_error (kind : BracketKind) (fault : Fault) :
    enclosed kind (.error fault) = .error (fault.relocate 1 1) := by
  cases fault <;> simp [enclosed, Fault.relocate, Nat.add_comm]

/-- A text in which the brackets of a kind match each other is read between two brackets of this
kind as a text in a group, whatever brackets of other kinds it holds. -/
theorem tokenize_enclosed (kind : BracketKind) (text : Text) (hbalanced : kind.Balanced text)
    (inGroup strict : Bool) (limit : UInt64) (hlimit : limit.toNat + 1 < UInt64.size) :
    tokenize ⟨limit + 1, strict⟩ inGroup (kind.opener :: (text ++ [kind.closer])) =
      enclosed kind (tokenize ⟨limit, strict⟩ true text) := by
  have hwider : (limit + 1).toNat = 1 + limit.toNat := by
    rw [UInt64.toNat_add, UInt64.toNat_one, Nat.mod_eq_of_lt hlimit, Nat.add_comm]
  have hmoved := scan_relocate ⟨limit, strict⟩ ⟨limit + 1, strict⟩ 1 1 hwider rfl true 0 0 text
  have hsize : kind.opener.utf8Size = 1 := by cases kind <;> rfl
  have hlevel : ¬ (limit + 1).toNat ≤ 0 := by omega
  simp only [tokenize]
  rw [scan_closed kind hbalanced, if_neg hlevel, hsize, Nat.add_comm 0 1, hmoved, scan_nil]
  cases scan ⟨limit, strict⟩ true 0 0 text with
  | error fault => exact (enclosed_error kind fault).symm
  | ok tokens => rfl

/-- A brace that is left open between inner parentheses is found one byte further on. -/
theorem tokenize_enclosed_brace :
    BracketKind.tuple.Balanced ['é', '(', '{', ')'] ∧ (2 : UInt64).toNat + 1 < UInt64.size ∧
      tokenize ⟨2, true⟩ true ['é', '(', '{', ')'] = .error (.unterminated .table 3) ∧
      tokenize ⟨2 + 1, true⟩ false ('(' :: (['é', '(', '{', ')'] ++ [')'])) =
        .error (.unterminated .table 4) := by
  have hletter : BracketKind.tuple.Balanced ['é'] :=
    BracketKind.balanced_of_not_mem _ _ (by decide) (by decide)
  have hbrace : BracketKind.tuple.Balanced ['{'] :=
    BracketKind.balanced_of_not_mem _ _ (by decide) (by decide)
  have hbalanced : BracketKind.tuple.Balanced ['é', '(', '{', ')'] := hletter.append hbrace.group
  have hinner : tokenize ⟨2, true⟩ true ['é', '(', '{', ')'] = .error (.unterminated .table 3) := by
    decide +kernel
  have houter := tokenize_enclosed .tuple _ hbalanced false true 2 (by decide)
  rw [hinner] at houter
  exact ⟨hbalanced, by decide, hinner, houter⟩

end LuauAnnotation
