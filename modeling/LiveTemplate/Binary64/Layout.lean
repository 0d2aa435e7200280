import LiveTemplate.Binary64.Shortest

/-!
# Written forms of doubles

Three written forms share the shortest digits and differ in where positional notation ends.
A value shown in a document is positional from `1e-6` up to `1e21` and never ends in `.0`; a
number in data text always has a point or an exponent; `plainText` is positional throughout.
-/

namespace LiveTemplate

namespace Decimal

/-- Digits with the point behind the leading one, and a signed exponent. -/
def scientific (d : Decimal) : String :=
  let exponent := d.leadingExponent
  let sign := if exponent < 0 then "-" else "+"
  let mantissa := match d.digitText with
    | [] => []
    | [digit] => [digit]
    | digit :: rest => digit :: '.' :: rest
  String.ofList mantissa ++ "e" ++ sign ++ toString exponent.natAbs

/-- Digits in their places, with the point where the number is not an integer. -/
def positional (d : Decimal) : String :=
  let text := d.digitText
  if 0 ≤ d.exponent then String.ofList (text ++ List.replicate d.exponent.toNat '0')
  else
    let places := d.exponent.natAbs
    if text.length ≤ places then
      "0." ++ String.ofList (List.replicate (places - text.length) '0' ++ text)
    else
      String.ofList (text.take (text.length - places)) ++ "."
        ++ String.ofList (text.drop (text.length - places))

/-- Digits in their places, with at least one decimal. -/
def positionalWithPoint (d : Decimal) : String :=
  if 0 ≤ d.exponent then d.positional ++ ".0" else d.positional

end Decimal

namespace Binary64

/-- The minus sign of a negative number. -/
def signText (x : Binary64) : String := if x.isNegative then "-" else ""

/-- A finite number as a document shows it: no sign on zero, integers below `1e21` digit by digit,
other numbers from `1e-6` up positionally, all else with an exponent. -/
def displayText (x : Binary64) : String :=
  if x.isZero then "0"
  else
    let d := x.shortest .away
    let exponent := d.leadingExponent
    if 21 ≤ exponent || exponent < -6 then x.signText ++ d.scientific
    else if x.isIntegral then x.signText ++ toString x.natMagnitude
    else x.signText ++ d.positional

/-- A finite number in data text: always with a point or an exponent, positionally from `1e-5` up
to `1e16`. -/
def dataText (x : Binary64) : String :=
  if x.isZero then x.signText ++ "0.0"
  else
    let d := x.shortest .even
    let exponent := d.leadingExponent
    if 16 ≤ exponent || exponent < -5 then x.signText ++ d.scientific
    else x.signText ++ d.positionalWithPoint

/-- Any double, positionally and with at least one decimal. -/
def plainText (x : Binary64) : String :=
  if x.isNaN then "NaN"
  else if !x.isFinite then x.signText ++ "inf"
  else if x.isZero then x.signText ++ "0.0"
  else x.signText ++ (x.shortest .away).positionalWithPoint

end Binary64

end LiveTemplate
