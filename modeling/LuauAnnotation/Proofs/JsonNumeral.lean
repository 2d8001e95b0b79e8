import LuauAnnotation.Json.Reader

/-!
# How numerals are spelled

A numeral is a sign, a whole number without a leading zero, a fraction and an exponent, all but the
whole number possibly absent. It is read up to the first character that does not go on with a
number, and what is written for a numeral is one of its spellings.
-/

namespace LuauAnnotation.Json

/-- One or more decimal digits. -/
structure IsDigits (digits : Text) : Prop where
  ne_nil : digits ≠ []
  isDigit : ∀ c ∈ digits, c.isDigit = true

/-- A fraction with its digits, or none. -/
inductive SpellsFraction : Text → List (Fin 10) → Prop where
  | absent : SpellsFraction [] []
  | digits {digits : Text} (hdigits : IsDigits digits) :
      SpellsFraction ('.' :: digits) (digits.map fun c => Fin.ofNat 10 (c.toNat - '0'.toNat))

/-- An exponent with its value, or none. -/
inductive SpellsExponent : Text → Option Int → Prop where
  | absent : SpellsExponent [] none
  | unsigned {mark : Char} {digits : Text} (hmark : mark = 'e' ∨ mark = 'E')
      (hdigits : IsDigits digits) : SpellsExponent (mark :: digits) (some (digitsValue digits))
  | plus {mark : Char} {digits : Text} (hmark : mark = 'e' ∨ mark = 'E')
      (hdigits : IsDigits digits) :
      SpellsExponent (mark :: '+' :: digits) (some (digitsValue digits))
  | minus {mark : Char} {digits : Text} (hmark : mark = 'e' ∨ mark = 'E')
      (hdigits : IsDigits digits) :
      SpellsExponent (mark :: '-' :: digits) (some (-digitsValue digits))

/-- A numeral and a text that spells it: a sign, a whole number without a leading zero, a fraction
and an exponent. -/
inductive SpellsNumeral : Text → Numeral → Prop where
  | parts {whole fraction exponent : Text} {digits : List (Fin 10)} {power : Option Int}
      (negative : Bool) (hwhole : IsDigits whole)
      (hzero : ¬ (whole.head? = some '0' ∧ 1 < whole.length))
      (hfraction : SpellsFraction fraction digits) (hexponent : SpellsExponent exponent power) :
      SpellsNumeral ((if negative then ['-'] else []) ++ (whole ++ (fraction ++ exponent)))
        ⟨negative, digitsValue whole, digits, power⟩

/-- A text in front of which a run of digits ends. -/
def EndsDigits (rest : Text) : Prop := ∀ c, rest.head? = some c → c.isDigit = false

/-- A text that does not go on with a number. -/
def EndsNumber (rest : Text) : Prop :=
  EndsDigits rest ∧ ∀ c, rest.head? = some c → c ≠ '.' ∧ c ≠ 'e' ∧ c ≠ 'E'

/-- A digit is none of the other characters. -/
theorem ne_of_isDigit {c d : Char} (hc : c.isDigit = true) (hd : d.isDigit = false) : c ≠ d := by
  rintro rfl
  exact Bool.noConfusion (hc.symm.trans hd)

/-- Digits start with a digit. -/
theorem IsDigits.exists_cons {digits : Text} (h : IsDigits digits) :
    ∃ c rest, digits = c :: rest ∧ c.isDigit = true := by
  obtain ⟨c, rest, rfl⟩ := List.exists_cons_of_ne_nil h.ne_nil
  exact ⟨c, rest, rfl, h.isDigit c List.mem_cons_self⟩

/-- Digits are told apart from what follows them. -/
theorem IsDigits.takeWhile {digits rest : Text} (h : IsDigits digits) (hrest : EndsDigits rest) :
    (digits ++ rest).takeWhile Char.isDigit = digits ∧
      (digits ++ rest).dropWhile Char.isDigit = rest := by
  rw [List.takeWhile_append_of_pos h.isDigit, List.dropWhile_append_of_pos h.isDigit]
  cases rest with
  | nil => simp
  | cons c rest => simp [hrest c rfl]

/-- A fraction is read in front of what is not a fraction. -/
theorem SpellsFraction.readFraction {fraction rest : Text} {digits : List (Fin 10)}
    (h : SpellsFraction fraction digits) (hdigits : EndsDigits rest)
    (hpoint : rest.head? ≠ some '.') : readFraction (fraction ++ rest) = .ok (digits, rest) := by
  cases h with
  | absent =>
    rw [List.nil_append, Json.readFraction]
    intro after hrest
    exact hpoint (by rw [hrest, List.head?_cons])
  | digits h =>
    obtain ⟨htake, hdrop⟩ := h.takeWhile hdigits
    have hempty := List.isEmpty_eq_false_iff.mpr h.ne_nil
    rw [List.cons_append, Json.readFraction]
    simp only [htake, hdrop, hempty, Bool.false_eq_true, if_false]

/-- An exponent is read in front of what does not go on with a number. -/
theorem SpellsExponent.readExponent {exponent rest : Text} {power : Option Int}
    (h : SpellsExponent exponent power) (hrest : EndsNumber rest) :
    readExponent (exponent ++ rest) = .ok (power, rest) := by
  cases h with
  | absent =>
    cases rest with
    | nil => rfl
    | cons c rest =>
      obtain ⟨-, hlower, hupper⟩ := hrest.2 c rfl
      simp [Json.readExponent, hlower, hupper]
  | unsigned hmark hdigits =>
    obtain ⟨htake, hdrop⟩ := hdigits.takeWhile hrest.1
    obtain ⟨c, others, rfl, hc⟩ := hdigits.exists_cons
    have hplus : c ≠ '+' := ne_of_isDigit hc (by decide)
    have hminus : c ≠ '-' := ne_of_isDigit hc (by decide)
    rw [List.cons_append] at htake hdrop
    rw [List.cons_append, List.cons_append, Json.readExponent, if_pos hmark]
    · simp [hminus, htake, hdrop]
    · exact fun _ hsigned => hplus (List.cons.inj hsigned).1
    · exact fun _ hsigned => hminus (List.cons.inj hsigned).1
  | plus hmark hdigits =>
    obtain ⟨htake, hdrop⟩ := hdigits.takeWhile hrest.1
    have hempty := List.isEmpty_eq_false_iff.mpr hdigits.ne_nil
    rw [List.cons_append, List.cons_append, Json.readExponent, if_pos hmark]
    simp [htake, hdrop, hempty]
  | minus hmark hdigits =>
    obtain ⟨htake, hdrop⟩ := hdigits.takeWhile hrest.1
    have hempty := List.isEmpty_eq_false_iff.mpr hdigits.ne_nil
    rw [List.cons_append, List.cons_append, Json.readExponent, if_pos hmark]
    simp [htake, hdrop, hempty]

/-- An exponent ends a run of digits, and is no fraction. -/
theorem SpellsExponent.endsDigits {exponent rest : Text} {power : Option Int}
    (h : SpellsExponent exponent power) (hrest : EndsNumber rest) :
    EndsDigits (exponent ++ rest) ∧ (exponent ++ rest).head? ≠ some '.' := by
  have hmark {mark : Char} (hmark : mark = 'e' ∨ mark = 'E') (behind : Text) :
      EndsDigits (mark :: behind) ∧ (mark :: behind).head? ≠ some '.' := by
    rcases hmark with rfl | rfl <;>
      exact ⟨fun c hc => by cases hc; decide, by simp⟩
  cases h with
  | absent => exact ⟨hrest.1, fun hhead => (hrest.2 '.' hhead).1 rfl⟩
  | unsigned h _ => exact hmark h _
  | plus h _ => exact hmark h _
  | minus h _ => exact hmark h _

/-- A fraction ends a run of digits. -/
theorem SpellsFraction.endsDigits {fraction rest : Text} {digits : List (Fin 10)}
    (h : SpellsFraction fraction digits) (hrest : EndsDigits rest) :
    EndsDigits (fraction ++ rest) := by
  cases h with
  | absent => exact hrest
  | digits _ =>
    intro c hc
    cases hc
    decide

/-- A numeral starts with a digit, or with a minus sign just when it is negative. -/
theorem SpellsNumeral.exists_cons {text : Text} {numeral : Numeral}
    (h : SpellsNumeral text numeral) :
    ∃ c rest, text = c :: rest ∧ (c == '-' || c.isDigit) = true ∧
      (c = '-' ↔ numeral.negative = true) := by
  cases h with
  | parts negative hwhole =>
    cases negative with
    | true => exact ⟨'-', _, rfl, rfl, by simp⟩
    | false =>
      obtain ⟨c, rest, rfl, hc⟩ := hwhole.exists_cons
      have hminus : c ≠ '-' := ne_of_isDigit hc (by decide)
      exact ⟨c, _, rfl, by rw [hc, Bool.or_true], by simp [hminus]⟩

/-- A numeral is read in front of what does not go on with a number. -/
theorem SpellsNumeral.readNumeral {text rest : Text} {numeral : Numeral}
    (h : SpellsNumeral text numeral) (hrest : EndsNumber rest) :
    readNumeral (text ++ rest) = .ok (numeral, rest) := by
  have hminus : (text ++ rest).head? = some '-' ↔ numeral.negative = true := by
    obtain ⟨c, others, rfl, -, hc⟩ := h.exists_cons
    rw [← hc]
    simp
  cases h with
  | @parts whole fraction exponent _ _ negative hwhole hzero hfraction hexponent =>
    obtain ⟨hdigits, hpoint⟩ := hexponent.endsDigits hrest
    obtain ⟨htake, hdrop⟩ := hwhole.takeWhile (hfraction.endsDigits hdigits)
    have hempty := List.isEmpty_eq_false_iff.mpr hwhole.ne_nil
    have hunsigned : (if negative = true then
        ((if negative then ['-'] else []) ++ (whole ++ (fraction ++ exponent)) ++ rest).tail
        else (if negative then ['-'] else []) ++ (whole ++ (fraction ++ exponent)) ++ rest) =
          whole ++ (fraction ++ (exponent ++ rest)) := by
      cases negative <;> simp
    simp only [Json.readNumeral, hminus, Bool.decide_eq_true, hunsigned, htake, hdrop, hempty,
      hzero, Bool.false_eq_true, if_false, hfraction.readFraction hdigits hpoint]
    simp only [bind, Except.bind, hexponent.readExponent hrest]
    rfl

/-- A number is read as the number that its numeral denotes, if it denotes one. -/
theorem SpellsNumeral.readNumber {text rest : Text} {numeral : Numeral}
    (h : SpellsNumeral text numeral) (hrest : EndsNumber rest) :
    readNumber (text ++ rest) =
      (⟨(numeral.number?.map Scalar.number).elim (.error .malformed) .ok, .ok ()⟩,
        text.length) := by
  rw [Json.readNumber, h.readNumeral hrest]
  cases hnumber : numeral.number? <;> simp [hnumber]

/-! ### Written numerals -/

/-- The decimal digits of a number are digits. -/
theorem isDigits_toDigits (n : Nat) : IsDigits (Nat.toDigits 10 n) :=
  ⟨Nat.toDigits_ne_nil, fun _ hc => Nat.isDigit_of_mem_toDigits (by decide) (by decide) hc⟩

/-- The decimal digits of a number denote it. -/
theorem digitsValue_toDigits (n : Nat) : digitsValue (Nat.toDigits 10 n) = n := by
  have hvalue := Nat.ofDigitChars_ten_toDigits (n := n)
  rw [Nat.ofDigitChars_eq_foldl] at hvalue
  simpa only [digitsValue, Nat.mul_comm] using hvalue

/-- Only zero is written with a zero in front. -/
theorem head?_toDigits {n : Nat} (h : (Nat.toDigits 10 n).head? = some '0') : n = 0 := by
  induction n using Nat.strongRecOn with
  | _ n smaller =>
    rw [Nat.toDigits_eq_if (by decide)] at h
    split at h
    case isTrue =>
      rw [List.head?_cons, Option.some.injEq, Nat.digitChar_eq_zero] at h
      exact h
    case isFalse hlarge =>
      obtain ⟨c, digits, hdigits, -⟩ := (isDigits_toDigits (n / 10)).exists_cons
      rw [hdigits, List.cons_append, List.head?_cons] at h
      have htenth := smaller (n / 10) (by omega) (by rw [hdigits, List.head?_cons, h])
      omega

/-- A whole number is written without a leading zero. -/
theorem toDigits_noLeadingZero (n : Nat) :
    ¬ ((Nat.toDigits 10 n).head? = some '0' ∧ 1 < (Nat.toDigits 10 n).length) := by
  rintro ⟨hhead, hlength⟩
  rw [head?_toDigits hhead] at hlength
  exact absurd hlength (by decide)

/-- A digit of a fraction is read back. -/
theorem ofNat_digitChar (digit : Fin 10) :
    Fin.ofNat 10 ((Nat.digitChar digit.val).toNat - '0'.toNat) = digit := by
  have hdigit := Nat.toNat_digitChar_sub_48_of_lt_ten digit.isLt
  change Fin.ofNat 10 ((Nat.digitChar digit.val).toNat - 48) = digit
  rw [hdigit, Fin.ofNat_val_eq_self]

/-- A fraction is written by its digits. -/
theorem spellsFraction_written (fraction : List (Fin 10)) :
    SpellsFraction
      (if fraction.isEmpty then [] else '.' :: fraction.map fun digit => Nat.digitChar digit.val)
      fraction := by
  cases fraction with
  | nil => exact .absent
  | cons digit fraction =>
    have hdigits : IsDigits ((digit :: fraction).map fun digit => Nat.digitChar digit.val) := by
      refine ⟨List.cons_ne_nil _ _, fun c hc => ?_⟩
      obtain ⟨digit, -, rfl⟩ := List.mem_map.mp hc
      rw [Nat.isDigit_digitChar]
      exact decide_eq_true digit.isLt
    have hvalue : ((digit :: fraction).map fun digit => Nat.digitChar digit.val).map
        (fun c => Fin.ofNat 10 (c.toNat - '0'.toNat)) = digit :: fraction := by
      rw [List.map_map]
      exact (List.map_congr_left fun digit _ => ofNat_digitChar digit).trans (List.map_id _)
    have hspells := SpellsFraction.digits hdigits
    rwa [hvalue] at hspells

/-- An exponent is written by its sign and its size. -/
theorem spellsExponent_written (power : Int) :
    SpellsExponent ('e' :: (if power < 0 then ['-'] else []) ++ Nat.toDigits 10 power.natAbs)
      (some power) := by
  have hdigits := isDigits_toDigits power.natAbs
  by_cases hsign : power < 0
  · have hvalue : -((power.natAbs : Nat) : Int) = power := by omega
    have hspells := SpellsExponent.minus (.inl rfl) hdigits
    rw [digitsValue_toDigits, hvalue] at hspells
    rw [if_pos hsign]
    exact hspells
  · have hvalue : ((power.natAbs : Nat) : Int) = power := by omega
    have hspells := SpellsExponent.unsigned (.inl rfl) hdigits
    rw [digitsValue_toDigits, hvalue] at hspells
    rw [if_neg hsign]
    exact hspells

/-- What is written for a numeral spells it. -/
theorem spellsNumeral_print (numeral : Numeral) : SpellsNumeral numeral.print numeral := by
  have hexponent : ∃ exponent, SpellsExponent exponent numeral.exponent ∧
      numeral.print = (if numeral.negative then ['-'] else []) ++
        (Nat.toDigits 10 numeral.whole ++
          ((if numeral.fraction.isEmpty then []
            else '.' :: numeral.fraction.map fun digit => Nat.digitChar digit.val) ++
              exponent)) := by
    rw [Numeral.print]
    cases numeral.exponent with
    | none => exact ⟨[], .absent, by simp only [List.append_assoc]⟩
    | some power => exact ⟨_, spellsExponent_written power, by simp only [List.append_assoc]⟩
  obtain ⟨exponent, hexponent, hprint⟩ := hexponent
  have hspells := SpellsNumeral.parts numeral.negative (isDigits_toDigits numeral.whole)
    (toDigits_noLeadingZero numeral.whole) (spellsFraction_written numeral.fraction) hexponent
  rw [digitsValue_toDigits] at hspells
  rw [hprint]
  exact hspells

end LuauAnnotation.Json
