/-!
# Binary floating point numbers of 64 bits

A double is its 64 bits.  A finite double is `± m · 2 ^ q` for naturals `m` below `2 ^ 53`, and
every operation here computes its result exactly on those integers and rounds once, to nearest
with ties to the even significand.
-/

namespace LiveTemplate

/-- A double, given by its bits: one sign bit, eleven exponent bits, fifty-two fraction bits. -/
structure Binary64 where
  bits : UInt64
deriving DecidableEq, Repr, Inhabited

namespace Binary64

/-- The sign bit. -/
def isNegative (x : Binary64) : Bool := x.bits >>> 63 == 1

/-- The exponent field. -/
def exponentField (x : Binary64) : Nat := ((x.bits >>> 52) &&& 0x7FF).toNat

/-- The fraction field. -/
def fractionField (x : Binary64) : Nat := (x.bits &&& 0xFFFFFFFFFFFFF).toNat

/-- Neither an infinity nor a NaN. -/
def isFinite (x : Binary64) : Bool := x.exponentField != 0x7FF

/-- Not a number. -/
def isNaN (x : Binary64) : Bool := x.exponentField == 0x7FF && x.fractionField != 0

/-- Either zero. -/
def isZero (x : Binary64) : Bool := x.exponentField == 0 && x.fractionField == 0

/-- The integer `m` of a finite double `± m · 2 ^ q`. -/
def significand (x : Binary64) : Nat :=
  if x.exponentField = 0 then x.fractionField else Nat.pow 2 52 + x.fractionField

/-- The exponent `q` of a finite double `± m · 2 ^ q`. -/
def exponent (x : Binary64) : Int :=
  if x.exponentField = 0 then -1074 else (x.exponentField : Int) - 1075

/-- The gap to the next smaller magnitude is half the gap to the next larger one. -/
def hasNarrowGapBelow (x : Binary64) : Bool := x.fractionField == 0 && 1 < x.exponentField

/-- The magnitude of a finite double as a quotient of naturals. -/
def magnitude (x : Binary64) : Nat × Nat :=
  (x.significand * Nat.pow 2 x.exponent.toNat, Nat.pow 2 (-x.exponent).toNat)

/-- The double with the given sign whose other bits spell `magnitudeBits`. -/
def ofMagnitudeBits (negative : Bool) (magnitudeBits : Nat) : Binary64 :=
  ⟨(if negative then Nat.pow 2 63 + magnitudeBits else magnitudeBits).toUInt64⟩

/-- The infinity of the given sign. -/
def infinity (negative : Bool) : Binary64 := ofMagnitudeBits negative (2047 * Nat.pow 2 52)

/-- The zero of the given sign. -/
def zero (negative : Bool) : Binary64 := ofMagnitudeBits negative 0

/-- A quotient of naturals rounded to the nearest natural, a tie to the even one. -/
def roundQuotient (num den : Nat) : Nat :=
  let below := num / den
  let rest := 2 * (num % den)
  if rest < den then below
  else if den < rest then below + 1
  else if below % 2 = 0 then below else below + 1

/-- The power of two by which a quotient is divided before rounding, so that the rounded
significand has fifty-three bits, or fewer at the bottom of the range. -/
def roundingExponent (num den : Nat) : Int :=
  let guess : Int := (num.log2 : Int) - (den.log2 : Int) - 53
  let tooWide := den * Nat.pow 2 guess.toNat * Nat.pow 2 53 ≤ num * Nat.pow 2 (-guess).toNat
  max (if tooWide then guess + 1 else guess) (-1074)

/-- The double nearest to `num / den`; beyond the largest one, an infinity.  A significand that
rounds up to the next power of two carries into the exponent field by itself. -/
def ofRatio (negative : Bool) (num den : Nat) : Binary64 :=
  if num = 0 then zero negative
  else
    let q := roundingExponent num den
    let m := roundQuotient (num * Nat.pow 2 (-q).toNat) (den * Nat.pow 2 q.toNat)
    ofMagnitudeBits negative (min ((q + 1074).toNat * Nat.pow 2 52 + m) (2047 * Nat.pow 2 52))

/-- The double nearest to an integer. -/
def ofInt (n : Int) : Binary64 := ofRatio (n < 0) n.natAbs 1

/-- The double nearest to a natural. -/
def ofNat (n : Nat) : Binary64 := ofRatio false n 1

/-- The double nearest to `digits · 10 ^ exponent`. -/
def ofDecimal (negative : Bool) (digits : Nat) (exponent : Int) : Binary64 :=
  ofRatio negative (digits * Nat.pow 10 exponent.toNat) (Nat.pow 10 (-exponent).toNat)

/-- The product of two finite doubles. -/
def mul (x y : Binary64) : Binary64 :=
  let (a, b) := x.magnitude
  let (c, d) := y.magnitude
  ofRatio (x.isNegative != y.isNegative) (a * c) (b * d)

/-- The quotient of two finite doubles, the second not a zero. -/
def div (x y : Binary64) : Binary64 :=
  let (a, b) := x.magnitude
  let (c, d) := y.magnitude
  ofRatio (x.isNegative != y.isNegative) (a * d) (b * c)

/-- The same magnitude with the other sign. -/
def neg (x : Binary64) : Binary64 := ⟨x.bits ^^^ 0x8000000000000000⟩

/-- Equality of finite values: the two zeros are equal, all else is equal to itself. -/
def sameNumber (x y : Binary64) : Bool := x == y || (x.isZero && y.isZero)

/-- A finite double without fractional part. -/
def isIntegral (x : Binary64) : Bool :=
  let (a, b) := x.magnitude
  a % b == 0

/-- The magnitude of an integral double, as a natural. -/
def natMagnitude (x : Binary64) : Nat :=
  let (a, b) := x.magnitude
  a / b

end Binary64

end LiveTemplate
