import LuauAnnotation.Json.Reader
import LuauAnnotation.Json.Value

/-!
# How strings are spelled

A character of a string stands for itself or is escaped by a letter, by its code or by the codes of
a surrogate pair. The reader takes a string apart escape by escape, and again with codes that it
does not understand when it passes over the string, where half a surrogate pair does no harm. Either
way it ends at the closing quotation mark, and when it understands the codes it finds the text that
is spelled. What is written for a text is one of its spellings.
-/

namespace LuauAnnotation.Json

/-- Four hexadecimal digits and the number that they denote. -/
inductive IsCode : Text → Nat → Prop where
  | digits {p q r s : Char} {a b c d : Nat} (hp : hexDigit? p = some a) (hq : hexDigit? q = some b)
      (hr : hexDigit? r = some c) (hs : hexDigit? s = some d) :
      IsCode [p, q, r, s] (((a * 16 + b) * 16 + c) * 16 + d)

/-- A text and what stands for it between the quotation marks of a string. -/
inductive Quotes : Text → Text → Prop where
  | nil : Quotes [] []
  | plain {quoted text : Text} (c : Char) (hmark : c ≠ '"') (hbackslash : c ≠ '\\')
      (hcontrol : ¬ c.toNat < 0x20) (hrest : Quotes quoted text) : Quotes (c :: quoted) (c :: text)
  | short {quoted text : Text} (e c : Char) (he : shortEscape? e = some c)
      (hrest : Quotes quoted text) : Quotes ('\\' :: e :: quoted) (c :: text)
  | code {quoted text digits : Text} {unit : Nat} (hdigits : IsCode digits unit)
      (hlow : isLowSurrogate unit = false) (hhigh : isHighSurrogate unit = false)
      (hrest : Quotes quoted text) :
      Quotes ('\\' :: 'u' :: (digits ++ quoted)) (Char.ofNat unit :: text)
  | pair {quoted text digits more : Text} {high low : Nat} (hdigits : IsCode digits high)
      (hhigh : isHighSurrogate high = true) (hmore : IsCode more low)
      (hlow : isLowSurrogate low = true) (hrest : Quotes quoted text) :
      Quotes ('\\' :: 'u' :: (digits ++ '\\' :: 'u' :: (more ++ quoted)))
        (Char.ofNat (0x10000 + (high - 0xD800) * 0x400 + (low - 0xDC00)) :: text)

/-- What may stand between the quotation marks of a string. A surrogate needs no partner. -/
inductive IsQuoted : Text → Prop where
  | nil : IsQuoted []
  | plain {quoted : Text} (c : Char) (hmark : c ≠ '"') (hbackslash : c ≠ '\\')
      (hcontrol : ¬ c.toNat < 0x20) (hrest : IsQuoted quoted) : IsQuoted (c :: quoted)
  | short {quoted : Text} (e c : Char) (he : shortEscape? e = some c) (hrest : IsQuoted quoted) :
      IsQuoted ('\\' :: e :: quoted)
  | code {quoted digits : Text} {unit : Nat} (hdigits : IsCode digits unit)
      (hrest : IsQuoted quoted) : IsQuoted ('\\' :: 'u' :: (digits ++ quoted))

/-- What stands for a text may stand between quotation marks. -/
theorem Quotes.isQuoted {quoted text : Text} (h : Quotes quoted text) : IsQuoted quoted := by
  induction h with
  | nil => exact .nil
  | plain c hmark hbackslash hcontrol _ ih => exact .plain c hmark hbackslash hcontrol ih
  | short e c he _ ih => exact .short e c he ih
  | code hdigits _ _ _ ih => exact .code hdigits ih
  | pair hdigits _ hmore _ _ ih => exact .code hdigits (.code hmore ih)

/-- Hexadecimal digits take one byte each. -/
theorem utf8Size_of_hexDigit? {c : Char} {n : Nat} (h : hexDigit? c = some n) :
    c.utf8Size = 1 := by
  have hle : c.val ≤ 0x7F := by
    unfold hexDigit? at h
    split at h
    · next hdigit =>
      rw [Char.isDigit, Bool.and_eq_true, decide_eq_true_eq, decide_eq_true_eq] at hdigit
      exact UInt32.le_trans hdigit.2 (by decide)
    · split at h
      · next hlower => exact UInt32.le_trans hlower.2 (by decide)
      · split at h
        · next hupper => exact UInt32.le_trans hupper.2 (by decide)
        · cases h
  exact if_pos hle

/-- A code is read from its four digits. -/
theorem readHex_code {digits : Text} {unit : Nat} (h : IsCode digits unit) (rest : Text) :
    readHex (digits ++ rest) = .ok unit := by
  cases h with
  | digits hp hq hr hs =>
    simp [readHex, hp, hq, hr, hs, utf8Size_of_hexDigit? hp, utf8Size_of_hexDigit? hq,
      utf8Size_of_hexDigit? hr, utf8Size_of_hexDigit? hs]

/-- A code has four digits. -/
theorem IsCode.length_eq {digits : Text} {unit : Nat} (h : IsCode digits unit) :
    digits.length = 4 := by
  cases h
  rfl

/-- Where a string is wanted, a code that is no surrogate is its character. -/
theorem codeEscape_code {digits : Text} {unit : Nat} (hdigits : IsCode digits unit)
    (hlow : isLowSurrogate unit = false) (hhigh : isHighSurrogate unit = false) (rest : Text) :
    codeEscape (digits ++ rest) = .ok (Char.ofNat unit, 4) := by
  rw [codeEscape, readHex_code hdigits]
  simp only [bind, Except.bind, hlow, hhigh, Bool.false_eq_true, if_false]
  rfl

/-- Where a string is wanted, a surrogate pair is one character. -/
theorem codeEscape_pair {digits more : Text} {high low : Nat} (hdigits : IsCode digits high)
    (hhigh : isHighSurrogate high = true) (hmore : IsCode more low)
    (hlow : isLowSurrogate low = true) (rest : Text) :
    codeEscape (digits ++ '\\' :: 'u' :: (more ++ rest)) =
      .ok (Char.ofNat (0x10000 + (high - 0xD800) * 0x400 + (low - 0xDC00)), 10) := by
  have hfirst : isLowSurrogate high = false := by
    simp only [isHighSurrogate, Bool.and_eq_true, decide_eq_true_eq] at hhigh
    simp only [isLowSurrogate, Bool.and_eq_false_iff, decide_eq_false_iff_not]
    omega
  have hsecond : readLowSurrogate ('\\' :: 'u' :: (more ++ rest)) = .ok low := by
    rw [readLowSurrogate, readHex_code hmore]
    simp only [bind, Except.bind, hlow, if_true]
  rw [codeEscape, readHex_code hdigits, List.drop_left' hdigits.length_eq]
  simp only [bind, Except.bind, hfirst, hhigh, hsecond, Bool.false_eq_true, if_false, if_true]
  rfl

/-- Where a string is passed over, a code is passed over. -/
theorem passedEscape_code {digits : Text} {unit : Nat} (hdigits : IsCode digits unit)
    (rest : Text) : passedEscape (digits ++ rest) = .ok ('\x00', 4) := by
  rw [passedEscape, readHex_code hdigits]
  rfl

section

variable (escape : Text → Except Fault (Char × Nat)) (rest : Text)

/-- A string ends at a quotation mark. -/
theorem readQuoted_mark : readQuoted escape ('"' :: rest) = .ok ([], 1) := by
  rw [readQuoted]

/-- A character that needs no escape stands for itself. -/
theorem readQuoted_plain (c : Char) (hmark : c ≠ '"') (hbackslash : c ≠ '\\')
    (hcontrol : ¬ c.toNat < 0x20) :
    readQuoted escape (c :: rest) =
      (readQuoted escape rest).map fun read => (c :: read.1, 1 + read.2) := by
  rw [readQuoted, if_neg hcontrol]
  · rfl
  · exact hmark
  · exact fun hc => absurd hc hbackslash
  · exact fun _ _ hc => absurd hc hbackslash

/-- A short escape stands for its character. -/
theorem readQuoted_short (e c : Char) (h : shortEscape? e = some c) :
    readQuoted escape ('\\' :: e :: rest) =
      (readQuoted escape rest).map fun read => (c :: read.1, 2 + read.2) := by
  have hcode : e ≠ 'u' := by
    rintro rfl
    cases h
  rw [readQuoted, if_neg hcode, h]
  rfl

/-- An escape by code stands for what is made of its code. -/
theorem readQuoted_code (c : Char) (width : Nat) (h : escape rest = .ok (c, width)) :
    readQuoted escape ('\\' :: 'u' :: rest) =
      (readQuoted escape (rest.drop width)).map fun read => (c :: read.1, 2 + width + read.2) := by
  rw [readQuoted, if_pos rfl, h]
  rfl

end

/-- A character is put in front of what is read behind its spelling. -/
theorem map_cons_ok (c : Char) (text : Text) {width count total : Nat}
    (h : total = width + count) :
    (Except.ok (text, count) : Except Fault (Text × Nat)).map
      (fun read => (c :: read.1, width + read.2)) = .ok (c :: text, total) := by
  rw [h]
  rfl

/-- Where a string is wanted, the text that it spells is found. -/
theorem readQuoted_quotes {quoted text : Text} (h : Quotes quoted text) (rest : Text) :
    readQuoted codeEscape (quoted ++ '"' :: rest) = .ok (text, quoted.length + 1) := by
  induction h with
  | nil => exact readQuoted_mark codeEscape rest
  | plain c hmark hbackslash hcontrol _ ih =>
    rw [List.cons_append, readQuoted_plain codeEscape _ c hmark hbackslash hcontrol, ih]
    exact map_cons_ok c _ (by simp only [List.length_cons]; omega)
  | short e c he _ ih =>
    rw [List.cons_append, List.cons_append, readQuoted_short codeEscape _ e c he, ih]
    exact map_cons_ok c _ (by simp only [List.length_cons]; omega)
  | code hdigits hlow hhigh _ ih =>
    have hlength := hdigits.length_eq
    rw [List.cons_append, List.cons_append, List.append_assoc,
      readQuoted_code codeEscape _ _ 4 (codeEscape_code hdigits hlow hhigh _),
      List.drop_left' hlength, ih]
    exact map_cons_ok _ _ (by simp only [List.length_cons, List.length_append]; omega)
  | @pair quoted _ digits more _ _ hdigits hhigh hmore hlow _ ih =>
    have hlength := hdigits.length_eq
    have hlengthMore := hmore.length_eq
    have hdrop : (digits ++ '\\' :: 'u' :: (more ++ (quoted ++ '"' :: rest))).drop 10 =
        quoted ++ '"' :: rest := by
      have hpair : digits ++ '\\' :: 'u' :: (more ++ (quoted ++ '"' :: rest)) =
          (digits ++ '\\' :: 'u' :: more) ++ (quoted ++ '"' :: rest) := by
        simp only [List.append_assoc, List.cons_append]
      rw [hpair]
      refine List.drop_left' ?_
      simp [hlength, hlengthMore]
    rw [List.cons_append, List.cons_append, List.append_assoc, List.cons_append,
      List.cons_append, List.append_assoc,
      readQuoted_code codeEscape _ _ 10 (codeEscape_pair hdigits hhigh hmore hlow _), hdrop, ih]
    exact map_cons_ok _ _ (by simp only [List.length_cons, List.length_append]; omega)

/-- Where a string is passed over, its closing mark is found. -/
theorem readQuoted_isQuoted {quoted : Text} (h : IsQuoted quoted) (rest : Text) :
    ∃ text, readQuoted passedEscape (quoted ++ '"' :: rest) = .ok (text, quoted.length + 1) := by
  induction h with
  | nil => exact ⟨[], readQuoted_mark passedEscape rest⟩
  | plain c hmark hbackslash hcontrol _ ih =>
    obtain ⟨text, ih⟩ := ih
    rw [List.cons_append, readQuoted_plain passedEscape _ c hmark hbackslash hcontrol, ih]
    exact ⟨c :: text, map_cons_ok c _ (by simp only [List.length_cons]; omega)⟩
  | short e c he _ ih =>
    obtain ⟨text, ih⟩ := ih
    rw [List.cons_append, List.cons_append, readQuoted_short passedEscape _ e c he, ih]
    exact ⟨c :: text, map_cons_ok c _ (by simp only [List.length_cons]; omega)⟩
  | code hdigits _ ih =>
    obtain ⟨text, ih⟩ := ih
    have hlength := hdigits.length_eq
    rw [List.cons_append, List.cons_append, List.append_assoc,
      readQuoted_code passedEscape _ _ 4 (passedEscape_code hdigits _), List.drop_left' hlength,
      ih]
    exact ⟨'\x00' :: text,
      map_cons_ok _ _ (by simp only [List.length_cons, List.length_append]; omega)⟩

/-- Up to its closing mark a string is read as a spelling with a property. -/
def ReadsString (quoted : Text) (holds : Spelled Text → Prop) : Prop :=
  ∀ rest, ∃ spelled, holds spelled ∧
    readString (quoted ++ '"' :: rest) = (spelled, quoted.length + 1)

/-- A string that spells a text is read as that text, whether it is wanted or passed over. -/
theorem Quotes.readsString {quoted text : Text} (h : Quotes quoted text) :
    ReadsString quoted (· = .sound text) := by
  intro rest
  obtain ⟨_, hpassed⟩ := readQuoted_isQuoted h.isQuoted rest
  refine ⟨_, rfl, ?_⟩
  rw [readString, readQuoted_quotes h, hpassed]
  rfl

/-- A string is passed over up to its closing mark. -/
theorem IsQuoted.readsString {quoted : Text} (h : IsQuoted quoted) :
    ReadsString quoted (·.passed = .ok ()) := by
  intro rest
  obtain ⟨_, hpassed⟩ := readQuoted_isQuoted h rest
  rw [readString, hpassed]
  exact ⟨_, rfl, rfl⟩

/-! ### Written strings -/

/-- A character is written by a short escape, by its code if it is another control character, and
as itself otherwise. -/
theorem escapedInString_cases (c : Char) :
    (∃ e, shortEscape? e = some c ∧ escapedInString c = ['\\', e]) ∨
      (c.toNat < 0x20 ∧ escapedInString c =
        ['\\', 'u', '0', '0', Nat.digitChar (c.toNat / 16), Nat.digitChar (c.toNat % 16)]) ∨
      (c ≠ '"' ∧ c ≠ '\\' ∧ ¬ c.toNat < 0x20) ∧ escapedInString c = [c] := by
  unfold escapedInString
  split
  · exact Or.inl ⟨'"', rfl, rfl⟩
  · exact Or.inl ⟨'\\', rfl, rfl⟩
  · exact Or.inl ⟨'b', rfl, rfl⟩
  · exact Or.inl ⟨'t', rfl, rfl⟩
  · exact Or.inl ⟨'n', rfl, rfl⟩
  · exact Or.inl ⟨'f', rfl, rfl⟩
  · exact Or.inl ⟨'r', rfl, rfl⟩
  case h_8 hmark hbackslash _ _ _ _ _ =>
    split
    case isTrue hcontrol => exact Or.inr (Or.inl ⟨hcontrol, rfl⟩)
    case isFalse hcontrol => exact Or.inr (Or.inr ⟨⟨hmark, hbackslash, hcontrol⟩, rfl⟩)

/-- A control character is written by its code. -/
theorem isCode_control (c : Char) (hc : c.toNat < 0x20) :
    IsCode ['0', '0', Nat.digitChar (c.toNat / 16), Nat.digitChar (c.toNat % 16)] c.toNat := by
  have hdigit : ∀ n < 16, hexDigit? (Nat.digitChar n) = some n := by decide
  have hcode : ((0 * 16 + 0) * 16 + c.toNat / 16) * 16 + c.toNat % 16 = c.toNat := by omega
  have hzero : hexDigit? '0' = some 0 := by decide
  have h := IsCode.digits hzero hzero (hdigit (c.toNat / 16) (by omega))
    (hdigit (c.toNat % 16) (by omega))
  rwa [hcode] at h

/-- What is written for a text stands for it. -/
theorem quotes_written (text : Text) : Quotes (text.flatMap escapedInString) text := by
  induction text with
  | nil => exact .nil
  | cons c text ih =>
    rw [List.flatMap_cons]
    obtain ⟨e, he, hwritten⟩ | ⟨hcontrol, hwritten⟩ | ⟨⟨hmark, hbackslash, hcontrol⟩, hwritten⟩ :=
      escapedInString_cases c
    · rw [hwritten]
      exact .short e c he ih
    · have hlow : isLowSurrogate c.toNat = false := by
        rw [isLowSurrogate, Bool.and_eq_false_iff]
        exact Or.inl (decide_eq_false (by omega))
      have hhigh : isHighSurrogate c.toNat = false := by
        rw [isHighSurrogate, Bool.and_eq_false_iff]
        exact Or.inl (decide_eq_false (by omega))
      have hquotes := Quotes.code (isCode_control c hcontrol) hlow hhigh ih
      rw [Char.ofNat_toNat] at hquotes
      rw [hwritten]
      exact hquotes
    · rw [hwritten]
      exact .plain c hmark hbackslash hcontrol ih

/-- A written string in front of a text starts with its opening mark and ends with its closing
one. -/
theorem printString_append (text rest : Text) :
    printString text ++ rest = '"' :: (text.flatMap escapedInString ++ '"' :: rest) := by
  simp [printString]

end LuauAnnotation.Json
