import LiveTemplate.Binary64.Reader
import LiveTemplate.Toml.Text

/-!
# Numbers, dates and times of TOML

Readers take a list of characters and return what they read and what follows, or nothing.
-/

namespace LiveTemplate.Toml

/-- Digits behind the first one: each may have an underscore before it. -/
def moreDigits? (isDigit : Char → Bool) : List Char → Option (List Char × List Char)
  | '_' :: c :: rest =>
    if isDigit c then
      (moreDigits? isDigit rest).map fun (digits, rest) => (c :: digits, rest)
    else none
  | '_' :: [] => none
  | c :: rest =>
    if isDigit c then
      (moreDigits? isDigit rest).map fun (digits, rest) => (c :: digits, rest)
    else some ([], c :: rest)
  | [] => some ([], [])

/-- At least one digit, with underscores between digits; the digits without them. -/
def digits? (isDigit : Char → Bool) : List Char → Option (List Char × List Char)
  | c :: rest =>
    if isDigit c then
      (moreDigits? isDigit rest).map fun (digits, rest) => (c :: digits, rest)
    else none
  | [] => none

/-- A sign, if one starts here; `true` marks a minus. -/
def sign : List Char → Bool × List Char
  | '-' :: rest => (true, rest)
  | '+' :: rest => (false, rest)
  | cs => (false, cs)

/-- Decimal digits without a leading zero. -/
def wholeDigits? : List Char → Option (List Char × List Char)
  | '0' :: rest => some (['0'], rest)
  | cs => digits? Char.isDigit cs

/-- The natural that digits spell in a base. -/
def valueInBase (base : Nat) (digits : List Char) : Nat :=
  digits.foldl (fun n c => n * base + (hexValue? c).getD 0) 0

/-- The integer, if it fits sixty-four signed bits. -/
def signed64? (n : Int) (rest : List Char) : Option (Item × List Char) :=
  if -9223372036854775808 ≤ n ∧ n < 9223372036854775808 then some (.integer n, rest) else none

/-- An octal digit. -/
def isOctalDigit (c : Char) : Bool := '0' ≤ c && c ≤ '7'

/-- A binary digit. -/
def isBinaryDigit (c : Char) : Bool := c == '0' || c == '1'

/-- An integer in the given base behind its mark. -/
def integerInBase? (base : Nat) (isDigit : Char → Bool) (cs : List Char) :
    Option (Item × List Char) :=
  match digits? isDigit cs with
  | some (digits, rest) => signed64? (valueInBase base digits) rest
  | none => none

/-- An integer of any base. -/
def integer? : List Char → Option (Item × List Char)
  | '0' :: 'x' :: rest => integerInBase? 16 (fun c => (hexValue? c).isSome) rest
  | '0' :: 'o' :: rest => integerInBase? 8 isOctalDigit rest
  | '0' :: 'b' :: rest => integerInBase? 2 isBinaryDigit rest
  | cs =>
    let (negative, cs) := sign cs
    match wholeDigits? cs with
    | some (digits, rest) =>
      let n : Int := valueInBase 10 digits
      signed64? (if negative then -n else n) rest
    | none => none

/-- The exponent of a float behind its mark. -/
def exponent? (cs : List Char) : Option (Int × List Char) :=
  let (negative, cs) := sign cs
  (digits? Char.isDigit cs).map fun (digits, rest) =>
    let n : Int := valueInBase 10 digits
    (if negative then -n else n, rest)

/-- A float with a point, an exponent or both.  One that rounds to plus infinity is refused. -/
def decimalFloat? (cs : List Char) : Option (Item × List Char) := do
  let (negative, cs) := sign cs
  let (whole, cs) ← wholeDigits? cs
  let (fraction, hasPoint, cs) ← match cs with
    | '.' :: rest => (digits? Char.isDigit rest).map fun (digits, rest) => (digits, true, rest)
    | rest => some ([], false, rest)
  let (exponent, hasMark, cs) ← match cs with
    | 'e' :: rest => (exponent? rest).map fun (exponent, rest) => (exponent, true, rest)
    | 'E' :: rest => (exponent? rest).map fun (exponent, rest) => (exponent, true, rest)
    | rest => some (0, false, rest)
  let x := Binary64.nearestDecimal negative (valueInBase 10 (whole ++ fraction))
    (exponent - (fraction.length : Int))
  if (hasPoint || hasMark) && x != Binary64.infinity false then some (.float x, cs) else none

/-- An infinity or a not-a-number. -/
def specialFloat? (cs : List Char) : Option (Item × List Char) :=
  let (negative, cs) := sign cs
  match cs with
  | 'i' :: 'n' :: 'f' :: rest => some (.float (Binary64.infinity negative), rest)
  | 'n' :: 'a' :: 'n' :: rest =>
    some (.float (if negative then Binary64.nan.neg else Binary64.nan), rest)
  | _ => none

/-- A number of exactly `count` decimal digits, in a range. -/
def fixedDigits? (count low high : Nat) (cs : List Char) : Option (Nat × List Char) :=
  let digits := cs.take count
  let n := valueInBase 10 digits
  if digits.length = count ∧ digits.all Char.isDigit ∧ low ≤ n ∧ n ≤ high then
    some (n, cs.drop count)
  else none

/-- What follows a given character. -/
def after? (c : Char) : List Char → Option (List Char)
  | d :: rest => if d = c then some rest else none
  | [] => none

/-- The days of a month. -/
def daysIn (year month : Nat) : Nat :=
  if month = 2 then
    if year % 4 = 0 ∧ (year % 100 ≠ 0 ∨ year % 400 = 0) then 29 else 28
  else if month = 4 ∨ month = 6 ∨ month = 9 ∨ month = 11 then 30
  else 31

/-- A natural in decimal, padded with zeros to a width. -/
def padded (width n : Nat) : String :=
  let digits := Nat.toDigits 10 n
  String.ofList (List.replicate (width - digits.length) '0' ++ digits)

/-- A date, written in normal form. -/
def date? (cs : List Char) : Option (String × List Char) := do
  let (year, cs) ← fixedDigits? 4 0 9999 cs
  let cs ← after? '-' cs
  let (month, cs) ← fixedDigits? 2 1 12 cs
  let cs ← after? '-' cs
  let (day, cs) ← fixedDigits? 2 1 (daysIn year month) cs
  some (padded 4 year ++ "-" ++ padded 2 month ++ "-" ++ padded 2 day, cs)

/-- The fraction of a second, cut to nine digits and written without trailing zeros. -/
def secondFraction (cs : List Char) : String × List Char :=
  match cs with
  | '.' :: rest =>
    let digits := rest.takeWhile Char.isDigit
    let kept := ((digits.take 9).reverse.dropWhile (· == '0')).reverse
    if digits.isEmpty then ("", cs)
    else (if kept.isEmpty then "" else "." ++ String.ofList kept, rest.dropWhile Char.isDigit)
  | _ => ("", cs)

/-- A time of day, written in normal form. -/
def time? (cs : List Char) : Option (String × List Char) := do
  let (hour, cs) ← fixedDigits? 2 0 23 cs
  let cs ← after? ':' cs
  let (minute, cs) ← fixedDigits? 2 0 59 cs
  let cs ← after? ':' cs
  let (second, cs) ← fixedDigits? 2 0 60 cs
  let (fraction, cs) := secondFraction cs
  some (padded 2 hour ++ ":" ++ padded 2 minute ++ ":" ++ padded 2 second ++ fraction, cs)

/-- An offset of hours and minutes behind its sign. -/
def offset? (negative : Bool) (cs : List Char) : Option (String × List Char) := do
  let (hour, cs) ← fixedDigits? 2 0 23 cs
  let cs ← after? ':' cs
  let (minute, cs) ← fixedDigits? 2 0 59 cs
  let sign := if negative ∧ (hour, minute) ≠ (0, 0) then "-" else "+"
  some (sign ++ padded 2 hour ++ ":" ++ padded 2 minute, cs)

/-- The offset behind a date and time, if there is one. -/
def timeOffset : List Char → String × List Char
  | 'Z' :: rest => ("Z", rest)
  | 'z' :: rest => ("Z", rest)
  | '+' :: rest => (offset? false rest).getD ("", '+' :: rest)
  | '-' :: rest => (offset? true rest).getD ("", '-' :: rest)
  | cs => ("", cs)

/-- What separates a date from a time. -/
def isTimeDelimiter (c : Char) : Bool := c == 'T' || c == 't' || c == ' '

/-- A date, a time, or a date and a time with or without an offset. -/
def datetime? (cs : List Char) : Option (Item × List Char) :=
  match date? cs with
  | some (date, rest) =>
    let timed? := match rest with
      | c :: rest => if isTimeDelimiter c then time? rest else none
      | [] => none
    match timed? with
    | some (time, rest) =>
      let (offset, rest) := timeOffset rest
      some (.datetime (date ++ "T" ++ time ++ offset), rest)
    | none => some (.datetime date, rest)
  | none => (time? cs).map fun (time, rest) => (.datetime time, rest)

/-- A value that is no container. -/
def scalar? (cs : List Char) : Option (Item × List Char) :=
  match cs with
  | 't' :: 'r' :: 'u' :: 'e' :: rest => some (.boolean true, rest)
  | 'f' :: 'a' :: 'l' :: 's' :: 'e' :: rest => some (.boolean false, rest)
  | '"' :: _ => (string? cs).map fun (s, rest) => (.string s, rest)
  | '\'' :: _ => (string? cs).map fun (s, rest) => (.string s, rest)
  | _ => ((datetime? cs <|> decimalFloat? cs) <|> specialFloat? cs) <|> integer? cs

end LiveTemplate.Toml
