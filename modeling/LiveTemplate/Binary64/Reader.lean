import LiveTemplate.Binary64.Basic

/-!
# Reading doubles

A decimal of any size is rounded to the nearest double.  `Binary64.parse?` reads the usual
notation: a sign, digits with an optional point, an optional exponent, or a word for infinity or
not-a-number in any case.
-/

namespace LiveTemplate.Binary64

/-- A quiet not-a-number. -/
def nan : Binary64 := ofMagnitudeBits false (2047 * Nat.pow 2 52 + Nat.pow 2 51)

/-- The double nearest to `digits · 10 ^ exponent`, where the exponent may be of any size: beyond
the decimal range of doubles the answer is an infinity or a zero. -/
def nearestDecimal (negative : Bool) (digits : Nat) (exponent : Int) : Binary64 :=
  let leading := exponent + ((Nat.toDigits 10 digits).length : Int)
  if digits = 0 then zero negative
  else if 310 < leading then infinity negative
  else if leading < -330 then zero negative
  else ofDecimal negative digits exponent

/-- The natural that decimal digits spell. -/
def digitsValue (digits : List Char) : Nat :=
  digits.foldl (fun n c => n * 10 + (c.toNat - '0'.toNat)) 0

/-- The exponent behind its mark: an optional sign and digits up to the end. -/
def parseExponent? (cs : List Char) : Option Int :=
  let (negative, digits) := match cs with
    | '-' :: rest => (true, rest)
    | '+' :: rest => (false, rest)
    | rest => (false, rest)
  if digits.isEmpty || !digits.all Char.isDigit then none
  else some (if negative then -(digitsValue digits : Int) else digitsValue digits)

/-- Digits with an optional point and an optional exponent, behind the sign. -/
def parseMagnitude? (negative : Bool) (cs : List Char) : Option Binary64 :=
  let whole := cs.takeWhile Char.isDigit
  let (fraction, rest) := match cs.dropWhile Char.isDigit with
    | '.' :: rest => (rest.takeWhile Char.isDigit, rest.dropWhile Char.isDigit)
    | rest => ([], rest)
  if whole.isEmpty && fraction.isEmpty then none
  else
    let exponent? := match rest with
      | [] => some 0
      | c :: rest => if c == 'e' || c == 'E' then parseExponent? rest else none
    exponent?.map fun exponent =>
      nearestDecimal negative (digitsValue (whole ++ fraction))
        (exponent - (fraction.length : Int))

/-- The double a text spells. -/
def parse? (text : String) : Option Binary64 :=
  let (negative, cs) := match text.toList with
    | '-' :: rest => (true, rest)
    | '+' :: rest => (false, rest)
    | rest => (false, rest)
  let word := String.ofList (cs.map Char.toLower)
  if word = "inf" ∨ word = "infinity" then some (infinity negative)
  else if word = "nan" then some (if negative then nan.neg else nan)
  else parseMagnitude? negative cs

end LiveTemplate.Binary64
