import LuauAnnotation.Text.Basic

/-!
# Shortest decimals

A binary floating-point number stands for every real number that rounds to it. Its shortest
decimal is the point of the coarsest decimal grid that has a point among those reals; of two
such points the nearer one is taken, and the even one on a tie.

All the arithmetic is exact. Where the decimal point goes, and from which size on an exponent
is written, is left to a layout.
-/

namespace LuauAnnotation

/-- The positive number `significand * 2 ^ exponent`. -/
structure Binary where
  significand : Nat
  exponent : Int

/-- The positive number `digits * 10 ^ exponent`. -/
structure Decimal where
  digits : Nat
  exponent : Int

namespace Binary

/-- The size of a finite floating-point number. -/
def ofFloat (x : Float) : Binary :=
  let bits := x.toBits.toNat
  let fraction : Nat := bits % Nat.pow 2 52
  let biased : Nat := bits / Nat.pow 2 52 % Nat.pow 2 11
  if biased = 0 then ⟨fraction, -1074⟩ else ⟨Nat.pow 2 52 + fraction, (biased : Int) - 1075⟩

/-- The reals that round to a number, in quarters of its last place. Below a power of two the
neighbour is only half as far away, except at the bottom of the range. The ends belong to an
even significand. -/
def interval (x : Binary) : Nat × Nat :=
  let lower := if x.significand = Nat.pow 2 52 ∧ -1074 < x.exponent then 1 else 2
  (4 * x.significand - lower, 4 * x.significand + 2)

/-- The best point of the grid of step `10 ^ grid` among the reals that round to a number. -/
def onGrid? (x : Binary) (grid : Int) : Option Decimal :=
  let quarter := x.exponent - 2
  let scale := Nat.pow 2 quarter.toNat * Nat.pow 10 (-grid).toNat
  let unit := Nat.pow 2 (-quarter).toNat * Nat.pow 10 grid.toNat
  let value := 4 * x.significand * scale
  let (low, high) := x.interval
  let inside (digits : Nat) : Bool :=
    if x.significand % 2 = 0 then low * scale ≤ digits * unit && digits * unit ≤ high * scale
    else low * scale < digits * unit && digits * unit < high * scale
  let below := value / unit
  let above := below + 1
  let nearerBelow := 2 * (value % unit) < unit ∨ (2 * (value % unit) = unit ∧ below % 2 = 0)
  match inside below, inside above with
  | true, true => some ⟨if nearerBelow then below else above, grid⟩
  | true, false => some ⟨below, grid⟩
  | false, true => some ⟨above, grid⟩
  | false, false => none

/-- The shortest decimal that rounds to a number, the grids being tried from the coarsest. -/
def shortest (x : Binary) : Decimal :=
  ((List.range 640).findSome? fun (i : Nat) => x.onGrid? (310 - (i : Int))).getD ⟨0, 0⟩

end Binary

/-- How a decimal is laid out: the powers of ten of the first digit between which the decimal
point stands in its place and no exponent is written. -/
structure DecimalLayout where
  lowest : Int
  highest : Int

namespace DecimalLayout

/-- The digits with the decimal point in its place, at least one digit on either side. -/
def positional (digits : Text) (power : Int) : Text :=
  let size := digits.length
  if power < 0 then "0.".toList ++ List.replicate (-power - 1).toNat '0' ++ digits
  else if size ≤ power.toNat + 1 then
    digits ++ List.replicate (power.toNat + 1 - size) '0' ++ ".0".toList
  else digits.take (power.toNat + 1) ++ '.' :: digits.drop (power.toNat + 1)

/-- The digits with the decimal point behind the first, and the power of ten of that digit. -/
def scientific (digits : Text) (power : Int) : Text :=
  let mantissa := match digits with
    | first :: second :: rest => first :: '.' :: second :: rest
    | short => short
  let sign := if power < 0 then '-' else '+'
  mantissa ++ 'e' :: sign :: Nat.toDigits 10 power.natAbs

/-- The text of a decimal. -/
def text (layout : DecimalLayout) (decimal : Decimal) : Text :=
  let digits := Nat.toDigits 10 decimal.digits
  let power := decimal.exponent + digits.length - 1
  if layout.lowest ≤ power ∧ power ≤ layout.highest then positional digits power
  else scientific digits power

/-- The text of a finite floating-point number. The sign is written for a negative zero too. -/
def floatText (layout : DecimalLayout) (x : Float) : Text :=
  let sign := if x.toBits.toNat < Nat.pow 2 63 then [] else ['-']
  let size := Binary.ofFloat x
  sign ++ if size.significand = 0 then "0.0".toList else layout.text size.shortest

end DecimalLayout

end LuauAnnotation
