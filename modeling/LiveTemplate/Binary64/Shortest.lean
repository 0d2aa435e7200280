import LiveTemplate.Binary64.Basic

/-!
# The fewest digits that identify a double

The reals that round to a double form an interval, closed exactly when the significand is even.
`shortest` tries the decimal grids from the coarsest on: the first grid with a point in the
interval wins, of its two candidates the one nearer to the double, and a tie goes as asked.
-/

namespace LiveTemplate

/-- The number `digits · 10 ^ exponent`. -/
structure Decimal where
  digits : Nat
  exponent : Int
deriving DecidableEq, Repr, Inhabited

/-- Which of two equally near decimals is taken. -/
inductive TieRule
  /-- The one of larger magnitude. -/
  | away
  /-- The one with the even last digit. -/
  | even
deriving DecidableEq, Repr

namespace Decimal

/-- Compare `a · 10 ^ i` with `n · 2 ^ j`, exactly. -/
def compareScaled (a : Nat) (i : Int) (n : Nat) (j : Int) : Ordering :=
  compare (a * Nat.pow 10 i.toNat * Nat.pow 2 (-j).toNat)
    (n * Nat.pow 2 j.toNat * Nat.pow 10 (-i).toNat)

/-- Move trailing zeros of the digits into the exponent; `fuel` bounds their number. -/
def dropZeros : Nat → Decimal → Decimal
  | 0, d => d
  | fuel + 1, d =>
    if d.digits ≠ 0 ∧ d.digits % 10 = 0 then dropZeros fuel ⟨d.digits / 10, d.exponent + 1⟩ else d

/-- The digits as text, without the exponent. -/
def digitText (d : Decimal) : List Char := Nat.toDigits 10 d.digits

/-- The power of ten of the leading digit. -/
def leadingExponent (d : Decimal) : Int := d.exponent + (d.digitText.length : Int) - 1

end Decimal

namespace Binary64

/-- Whether a decimal lies among the reals that round to the magnitude of `x`. -/
def readsBack (x : Binary64) (d : Decimal) : Bool :=
  let low := if x.hasNarrowGapBelow then 4 * x.significand - 1 else 4 * x.significand - 2
  let high := 4 * x.significand + 2
  let closed := x.significand % 2 == 0
  let below := Decimal.compareScaled d.digits d.exponent low (x.exponent - 2)
  let above := Decimal.compareScaled d.digits d.exponent high (x.exponent - 2)
  (below == .gt || (closed && below == .eq)) && (above == .lt || (closed && above == .eq))

/-- The least power of ten above the magnitude of a finite double that is not a zero.  The first
guess is the bit length times the decimal logarithm of two, which is at most two too low. -/
def decimalScale (x : Binary64) : Int :=
  let guess : Int := (((x.significand.log2 : Int) + x.exponent) * 30103).fdiv 100000
  if Decimal.compareScaled 1 guess x.significand x.exponent == .gt then guess
  else if Decimal.compareScaled 1 (guess + 1) x.significand x.exponent == .gt then guess + 1
  else guess + 2

/-- The magnitude rounded down to a multiple of `10 ^ exponent`. -/
def floorOnGrid (x : Binary64) (exponent : Int) : Nat :=
  let (a, b) := x.magnitude
  (a * Nat.pow 10 (-exponent).toNat) / (b * Nat.pow 10 exponent.toNat)

/-- Whether the upper of two neighbours on a grid is taken, when both read back. -/
def prefersUpper (x : Binary64) (tie : TieRule) (below : Nat) (exponent : Int) : Bool :=
  match Decimal.compareScaled (2 * below + 1) exponent (2 * x.significand) x.exponent, tie with
  | .lt, _ => true
  | .gt, _ => false
  | .eq, .away => true
  | .eq, .even => below % 2 == 1

/-- The decimal of the grid `10 ^ exponent` that reads back, if the grid has one. -/
def onGrid? (x : Binary64) (tie : TieRule) (exponent : Int) : Option Decimal :=
  let below := x.floorOnGrid exponent
  let lower : Decimal := ⟨below, exponent⟩
  let upper : Decimal := ⟨below + 1, exponent⟩
  if x.readsBack lower then
    if x.readsBack upper && x.prefersUpper tie below exponent then some upper else some lower
  else if x.readsBack upper then some upper
  else none

/-- The exact magnitude as a decimal. -/
def exactDecimal (x : Binary64) : Decimal :=
  ⟨x.significand * Nat.pow 2 x.exponent.toNat * Nat.pow 5 (-x.exponent).toNat, min x.exponent 0⟩

/-- The decimal with the fewest digits that identifies the magnitude of a finite double that is
not a zero, without trailing zeros. -/
def shortest (x : Binary64) (tie : TieRule) : Decimal :=
  let scale := x.decimalScale
  let found := (List.range 17).findSome? fun n => x.onGrid? tie (scale - (n + 1 : Nat))
  Decimal.dropZeros 400 (found.getD x.exactDecimal)

end Binary64

end LiveTemplate
