import LuauAnnotation.Json.Reading

/-!
# The spelling of scalars and strings

Each function here reads one scalar or string from the start of a text and says how many
characters it takes. A fault in it may depend on whether the value is wanted: half a surrogate
pair is harmless in a string that is passed over, and a number that the text cuts short is
merely malformed there.
-/

namespace LuauAnnotation.Json

/-- A fault where something more was due: the text ended or went on differently. -/
def cutShort (rest : Text) : Fault := if rest.isEmpty then .ended else .malformed

/-- A word such as `null`, read letter by letter. -/
def readWord (word : Text) (value : Scalar) (text : Text) : Spelled Scalar × Nat :=
  if word.isPrefixOf text then (.sound value, word.length)
  else
    let fault := if text.isPrefixOf word then Fault.ended else Fault.malformed
    (⟨.error fault, .error fault⟩, 0)

/-! ### Numerals -/

/-- The number that a run of digits denotes. -/
def digitsValue (digits : Text) : Nat :=
  digits.foldl (fun value c => value * 10 + (c.toNat - '0'.toNat)) 0

/-- The fraction behind a whole number, with the text behind it. -/
def readFraction (text : Text) : Except Fault (List (Fin 10) × Text) :=
  match text with
  | '.' :: rest =>
    let digits := rest.takeWhile Char.isDigit
    let after := rest.dropWhile Char.isDigit
    if digits.isEmpty then .error (cutShort after)
    else .ok (digits.map fun c => Fin.ofNat 10 (c.toNat - '0'.toNat), after)
  | _ => .ok ([], text)

/-- The exponent behind a number, with the text behind it. -/
def readExponent (text : Text) : Except Fault (Option Int × Text) :=
  match text with
  | [] => .ok (none, text)
  | c :: rest =>
    if c = 'e' ∨ c = 'E' then
      let signed := match rest with
        | '+' :: unsigned => unsigned
        | '-' :: unsigned => unsigned
        | unsigned => unsigned
      let digits := signed.takeWhile Char.isDigit
      let after := signed.dropWhile Char.isDigit
      if digits.isEmpty then .error (cutShort after)
      else
        let size : Int := digitsValue digits
        .ok (some (if rest.head? = some '-' then -size else size), after)
    else .ok (none, text)

/-- A numeral, with the text behind it. The whole number has no leading zero. -/
def readNumeral (text : Text) : Except Fault (Numeral × Text) := do
  let negative := text.head? = some '-'
  let unsigned := if negative then text.tail else text
  let digits := unsigned.takeWhile Char.isDigit
  let after := unsigned.dropWhile Char.isDigit
  if digits.isEmpty then .error (cutShort after)
  else if digits.head? = some '0' ∧ 1 < digits.length then .error .malformed
  else
    let (fraction, afterFraction) ← readFraction after
    let (exponent, rest) ← readExponent afterFraction
    return (⟨negative, digitsValue digits, fraction, exponent⟩, rest)

/-- A number. -/
def readNumber (text : Text) : Spelled Scalar × Nat :=
  match readNumeral text with
  | .error fault => (⟨.error fault, .error .malformed⟩, 0)
  | .ok (numeral, rest) =>
    let wanted := match numeral.number? with
      | some number => .ok (.number number)
      | none => .error .malformed
    (⟨wanted, .ok ()⟩, text.length - rest.length)

/-! ### Strings -/

/-- The number that a hexadecimal digit denotes. -/
def hexDigit? (c : Char) : Option Nat :=
  if c.isDigit then some (c.toNat - '0'.toNat)
  else if 'a' ≤ c ∧ c ≤ 'f' then some (c.toNat - 'a'.toNat + 10)
  else if 'A' ≤ c ∧ c ≤ 'F' then some (c.toNat - 'A'.toNat + 10)
  else none

/-- The number of four hexadecimal digits at the start of a text. Whether the text is too short
for them is measured in bytes. -/
def readHex (text : Text) : Except Fault Nat :=
  if Text.bytes (text.take 4) < 4 then .error .ended
  else
    match (text.take 4).mapM hexDigit? with
    | some [a, b, c, d] => .ok (((a * 16 + b) * 16 + c) * 16 + d)
    | _ => .error .malformed

/-- The first half of a surrogate pair. -/
def isHighSurrogate (unit : Nat) : Bool := 0xD800 ≤ unit && unit < 0xDC00

/-- The second half of a surrogate pair. -/
def isLowSurrogate (unit : Nat) : Bool := 0xDC00 ≤ unit && unit < 0xE000

/-- The second half of a surrogate pair, as an escape of its own. -/
def readLowSurrogate (text : Text) : Except Fault Nat :=
  match text with
  | [] => .error .ended
  | ['\\'] => .error .ended
  | '\\' :: 'u' :: rest => do
    let unit ← readHex rest
    if isLowSurrogate unit then .ok unit else .error .malformed
  | _ => .error .malformed

/-- The character of an escape by code, behind its first two characters, and the number of
characters that it takes from there. -/
def codeEscape (text : Text) : Except Fault (Char × Nat) := do
  let unit ← readHex text
  if isLowSurrogate unit then .error .malformed
  else if isHighSurrogate unit then
    let low ← readLowSurrogate (text.drop 4)
    return (Char.ofNat (0x10000 + (unit - 0xD800) * 0x400 + (low - 0xDC00)), 10)
  else return (Char.ofNat unit, 4)

/-- An escape by code in a string that is passed over, where surrogates need no partner. -/
def passedEscape (text : Text) : Except Fault (Char × Nat) := do
  let _ ← readHex text
  return ('\x00', 4)

/-- The character of a short escape. -/
def shortEscape? : Char → Option Char
  | '"' => some '"'
  | '\\' => some '\\'
  | '/' => some '/'
  | 'b' => some '\x08'
  | 'f' => some '\x0c'
  | 'n' => some '\n'
  | 'r' => some '\r'
  | 't' => some '\t'
  | _ => none

/-- The rest of a string behind its opening quotation mark, given the reading of escapes by
code, and the number of characters up to and with the closing mark. -/
def readQuoted (escape : Text → Except Fault (Char × Nat)) : Text → Except Fault (Text × Nat)
  | [] => .error .ended
  | '"' :: _ => .ok ([], 1)
  | ['\\'] => .error .ended
  | '\\' :: e :: rest =>
    if e = 'u' then do
      let (c, width) ← escape rest
      let (text, count) ← readQuoted escape (rest.drop width)
      return (c :: text, 2 + width + count)
    else
      match shortEscape? e with
      | none => .error .malformed
      | some c => do
        let (text, count) ← readQuoted escape rest
        return (c :: text, 2 + count)
  | c :: rest =>
    if c.toNat < 0x20 then .error .malformed
    else do
      let (text, count) ← readQuoted escape rest
      return (c :: text, 1 + count)
termination_by text => text.length

/-- A string behind its opening quotation mark. -/
def readString (text : Text) : Spelled Text × Nat :=
  let passed := readQuoted passedEscape text
  (⟨(readQuoted codeEscape text).map Prod.fst, passed.map fun _ => ()⟩,
    (passed.toOption.map Prod.snd).getD 0)

end LuauAnnotation.Json
