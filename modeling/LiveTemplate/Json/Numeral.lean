import LiveTemplate.Json.Basic

/-!
# Numerals

A numeral without fraction and exponent that fits an integer type is an integer; every other one
is a double.  A double is read by one multiplication or division: the digits that fit an unsigned
integer of 64 bits, times the power of ten that the other digits and the exponent leave.  The
result can differ from the nearest double in the last place.
-/

namespace LiveTemplate.Json

/-- The parts of a numeral.  The fraction is present when there is a point, the exponent when
there is a mark. -/
structure Numeral where
  negative : Bool
  whole : List Nat
  fraction : Option (List Nat)
  exponent : Option (Bool × List Nat)
deriving DecidableEq, Repr, Inhabited

namespace Numeral

/-- The largest unsigned integer of 64 bits. -/
def maxSignificand : Nat := 18446744073709551615

/-- The largest signed integer of 32 bits, which bounds exponents. -/
def maxExponent : Nat := 2147483647

/-- Append digits to a significand as long as it fits; also the count of the digits appended and
the digits left. -/
def accumulate (bound : Nat) (significand : Nat) : List Nat → Nat × Nat × List Nat
  | [] => (significand, 0, [])
  | digit :: rest =>
    if significand * 10 + digit ≤ bound then
      let (result, taken, left) := accumulate bound (significand * 10 + digit) rest
      (result, taken + 1, left)
    else (significand, 0, digit :: rest)

/-- The double nearest to a power of ten. -/
def powerOfTen (n : Nat) : Binary64 := Binary64.ofNat (Nat.pow 10 n)

/-- Divide by `10 ^ n`, by at most `10 ^ 308` at a time.  A significand of 64 bits is zero after
two such steps. -/
def scaleDown : Nat → Binary64 → Nat → Binary64
  | 0, x, _ => x
  | fuel + 1, x, n =>
    if n ≤ 308 then x.div (powerOfTen n)
    else if x.isZero then x
    else scaleDown fuel (x.div (powerOfTen 308)) (n - 308)

/-- The significand times a power of ten; nothing where that is out of range. -/
def scaled? (significand : Nat) (exponent : Int) : Option Binary64 :=
  let x := Binary64.ofNat significand
  if exponent < 0 then some (scaleDown 3 x exponent.natAbs)
  else if exponent.toNat ≤ 308 then
    let product := x.mul (powerOfTen exponent.toNat)
    if product.isFinite then some product else none
  else if x.isZero then some x
  else none

/-- The double a numeral stands for. -/
def toFloat? (numeral : Numeral) : Option Binary64 :=
  let (whole, _, dropped) := accumulate maxSignificand 0 numeral.whole
  let (significand, taken, _) := accumulate maxSignificand whole (numeral.fraction.getD [])
  let start : Int := (dropped.length : Int) - (taken : Int)
  let magnitude : Option Binary64 :=
    match numeral.exponent with
    | none => scaled? significand start
    | some (down, digits) =>
      let (exponent, _, left) := accumulate maxExponent 0 digits
      if left.isEmpty then
        let signed : Int := if down then start - exponent else start + exponent
        scaled? significand (max (-2147483648) (min signed 2147483647))
      else if significand ≠ 0 ∧ !down then none
      else some (Binary64.zero false)
  magnitude.map fun x => if numeral.negative then x.neg else x

/-- The natural that digits spell. -/
def naturalOf (digits : List Nat) : Nat := digits.foldl (fun n digit => n * 10 + digit) 0

/-- The integer a numeral stands for, if it is written as one and fits.  Minus zero is no
integer. -/
def toInteger? (numeral : Numeral) : Option Number :=
  if numeral.fraction.isNone && numeral.exponent.isNone then
    let n := naturalOf numeral.whole
    if numeral.negative then (if n = 0 then none else Number.ofInt? (-(n : Int)))
    else Number.ofInt? n
  else none

/-- The number a numeral stands for; nothing where it is out of range. -/
def toNumber? (numeral : Numeral) : Option Number :=
  match numeral.toInteger? with
  | some n => some n
  | none => numeral.toFloat?.bind Number.ofFloat?

end Numeral

end LiveTemplate.Json
