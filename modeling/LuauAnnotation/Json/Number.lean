import LuauAnnotation.Decimal.Shortest

/-!
# JSON numbers

A numeral is a number as it is spelled. Without a fraction and an exponent it denotes an integer
when it fits a 64-bit word, and every other numeral denotes a floating-point number. A numeral
too large for that denotes nothing.

A floating-point number is built from the first digits that fit a 64-bit word by one
multiplication or by divisions with powers of ten, so its last place may be off by one.
-/

namespace LuauAnnotation.Json

/-- A number as it is spelled: no fraction is written when its digits are absent. -/
structure Numeral where
  negative : Bool
  whole : Nat
  fraction : List (Fin 10)
  exponent : Option Int
deriving DecidableEq

/-- The number that a numeral denotes. -/
inductive Number where
  | integer (value : Int)
  | real (value : Float)
deriving DecidableEq

/-- The layout of floating-point numbers in messages. -/
def realLayout : DecimalLayout := ⟨-5, 15⟩

namespace Numeral

/-- The numeral of a natural number. -/
def ofNat (n : Nat) : Numeral := ⟨false, n, [], none⟩

/-- The decimal digits of a natural number. -/
def digitsOf (n : Nat) : List Nat := (Nat.toDigits 10 n).map fun c => c.toNat - '0'.toNat

/-- A word extended by the digits that keep it a word, with the digits from the first on that
does not. -/
def extend (word : Nat) : List Nat → Nat × List Nat
  | [] => (word, [])
  | digit :: rest =>
    if word * 10 + digit < UInt64.size then extend (word * 10 + digit) rest
    else (word, digit :: rest)

/-- A number divided by ten to a power, in steps that a floating-point number admits. -/
def divided (x : Float) (power : Nat) : Float :=
  if power ≤ 308 then x / Float.ofScientific 1 false power
  else if x == 0 then x
  else divided (x / Float.ofScientific 1 false 308) (power - 308)
termination_by power

/-- A number times ten to a power, unless the product leaves the range. -/
def scaled? (x : Float) : Int → Option Float
  | .ofNat power =>
    if power ≤ 308 then
      let product := x * Float.ofScientific 1 false power
      if product.isInf then none else some product
    else if x == 0 then some x
    else none
  | .negSucc power => some (divided x (power + 1))

/-- The floating-point number of a numeral's size, from the digits that fit a word. -/
def real? (numeral : Numeral) : Option Float :=
  let (whole, cutWhole) := extend 0 (digitsOf numeral.whole)
  let (word, cutFraction) := extend whole (numeral.fraction.map Fin.val)
  let power : Int := numeral.exponent.getD 0 + cutWhole.length -
    (numeral.fraction.length - cutFraction.length : Nat)
  let size := scaled? (UInt64.ofNat word).toFloat power
  if numeral.negative then size.map fun x => -x else size

/-- The number that a numeral denotes, if it is in range. A negative zero is no integer. -/
def number? (numeral : Numeral) : Option Number :=
  if numeral.fraction.isEmpty ∧ numeral.exponent.isNone then
    if numeral.negative then
      if 0 < numeral.whole ∧ numeral.whole ≤ Nat.pow 2 63 then some (.integer (-numeral.whole))
      else numeral.real?.map .real
    else if numeral.whole < UInt64.size then some (.integer numeral.whole)
    else numeral.real?.map .real
  else numeral.real?.map .real

/-- The text of a numeral. -/
def print (numeral : Numeral) : Text :=
  (if numeral.negative then ['-'] else []) ++ Nat.toDigits 10 numeral.whole ++
    (if numeral.fraction.isEmpty then []
      else '.' :: numeral.fraction.map fun (digit : Fin 10) => Nat.digitChar digit.val) ++
    (match numeral.exponent with
      | none => []
      | some power => 'e' :: (if power < 0 then ['-'] else []) ++ Nat.toDigits 10 power.natAbs)

end Numeral

end LuauAnnotation.Json
