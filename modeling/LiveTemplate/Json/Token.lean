import LiveTemplate.Json.Numeral

/-!
# Tokens of JSON text

`tokens` cuts a text into tokens.  Where no token starts, the list ends with `Token.invalid`, so
that a reader which stops earlier never sees it.
-/

namespace LiveTemplate.Json

/-- A token of JSON text. -/
inductive Token
  | openBrace
  | closeBrace
  | openBracket
  | closeBracket
  | comma
  | colon
  | null
  | bool (value : Bool)
  | number (numeral : Numeral)
  /-- A string literal; without content where an escape names half of a surrogate pair. -/
  | string (content : Option String)
  /-- Text that starts no token. -/
  | invalid
deriving DecidableEq, Repr, Inhabited

namespace Token

/-- The white space of JSON. -/
def isSpace (c : Char) : Bool := c == ' ' || c == '\n' || c == '\t' || c == '\r'

/-- The value of a decimal digit. -/
def digitValue (c : Char) : Nat := c.toNat - '0'.toNat

/-- The digits at the front of a text, and what follows them. -/
def digits (cs : List Char) : List Nat × List Char :=
  ((cs.takeWhile Char.isDigit).map digitValue, cs.dropWhile Char.isDigit)

/-- The digits at the front of a text, at least one. -/
def digits? (cs : List Char) : Option (List Nat × List Char) :=
  match digits cs with
  | ([], _) => none
  | found => some found

/-- The integer part of a numeral: a single zero, or digits that do not start with zero. -/
def whole? (cs : List Char) : Option (List Nat × List Char) :=
  match digits? cs with
  | some (0 :: _ :: _, _) => none
  | other => other

/-- The fraction of a numeral, if a point follows. -/
def fraction? : List Char → Option (Option (List Nat) × List Char)
  | '.' :: rest => (digits? rest).map fun (ds, rest) => (some ds, rest)
  | rest => some (none, rest)

/-- The digits of an exponent behind its sign; `true` marks a minus. -/
def exponentDigits? : List Char → Option ((Bool × List Nat) × List Char)
  | '+' :: rest => (digits? rest).map fun (ds, rest) => ((false, ds), rest)
  | '-' :: rest => (digits? rest).map fun (ds, rest) => ((true, ds), rest)
  | rest => (digits? rest).map fun (ds, rest) => ((false, ds), rest)

/-- The exponent of a numeral, if a mark follows. -/
def exponent? : List Char → Option (Option (Bool × List Nat) × List Char)
  | 'e' :: rest => (exponentDigits? rest).map fun (e, rest) => (some e, rest)
  | 'E' :: rest => (exponentDigits? rest).map fun (e, rest) => (some e, rest)
  | rest => some (none, rest)

/-- A numeral behind its sign. -/
def numeral? (negative : Bool) (cs : List Char) : Option (Numeral × List Char) := do
  let (whole, cs) ← whole? cs
  let (fraction, cs) ← fraction? cs
  let (exponent, cs) ← exponent? cs
  some (⟨negative, whole, fraction, exponent⟩, cs)

/-- The value of a hexadecimal digit. -/
def hexValue? (c : Char) : Option Nat :=
  if c.isDigit then some (c.toNat - '0'.toNat)
  else if 'a' ≤ c ∧ c ≤ 'f' then some (c.toNat - 'a'.toNat + 10)
  else if 'A' ≤ c ∧ c ≤ 'F' then some (c.toNat - 'A'.toNat + 10)
  else none

/-- The sixteen-bit unit of four hexadecimal digits. -/
def unit? (a b c d : Char) : Option Nat := do
  let a ← hexValue? a
  let b ← hexValue? b
  let c ← hexValue? c
  let d ← hexValue? d
  some (((a * 16 + b) * 16 + c) * 16 + d)

/-- The character that a one-letter escape names. -/
def escaped? : Char → Option Char
  | '"' => some '"'
  | '\\' => some '\\'
  | '/' => some '/'
  | 'b' => some '\x08'
  | 'f' => some '\x0c'
  | 'n' => some '\n'
  | 'r' => some '\r'
  | 't' => some '\t'
  | _ => none

/-- The first half of a surrogate pair. -/
def isLeadUnit (unit : Nat) : Bool := 0xD800 ≤ unit && unit ≤ 0xDBFF

/-- The second half of a surrogate pair. -/
def isTrailUnit (unit : Nat) : Bool := 0xDC00 ≤ unit && unit ≤ 0xDFFF

/-- An element of a string literal: a character or a sixteen-bit unit. -/
inductive Piece
  | char (c : Char)
  | unit (value : Nat)
deriving DecidableEq, Repr

/-- The pieces of a string literal behind its opening quote, and what follows the closing one. -/
def pieces? : List Char → Option (List Piece × List Char)
  | [] => none
  | '"' :: rest => some ([], rest)
  | '\\' :: 'u' :: a :: b :: c :: d :: rest => do
    let unit ← unit? a b c d
    let (found, rest) ← pieces? rest
    some (.unit unit :: found, rest)
  | '\\' :: c :: rest => do
    let c ← escaped? c
    let (found, rest) ← pieces? rest
    some (.char c :: found, rest)
  | c :: rest =>
    if c == '\\' || c.toNat < 0x20 then none
    else do
      let (found, rest) ← pieces? rest
      some (.char c :: found, rest)

/-- The characters that pieces stand for: a unit that is no half of a pair is a character, a lead
unit and a trail unit behind it are one. -/
def characters? : List Piece → Option (List Char)
  | [] => some []
  | .char c :: rest => (characters? rest).map (c :: ·)
  | .unit lead :: .unit trail :: rest =>
    if isLeadUnit lead then
      if isTrailUnit trail then
        (characters? rest).map
          (Char.ofNat ((lead - 0xD800) * 0x400 + (trail - 0xDC00) + 0x10000) :: ·)
      else none
    else if isTrailUnit lead then none
    else (characters? (.unit trail :: rest)).map (Char.ofNat lead :: ·)
  | .unit lone :: rest =>
    if isLeadUnit lone || isTrailUnit lone then none
    else (characters? rest).map (Char.ofNat lone :: ·)

/-- The content of a string literal. -/
def contentOf (pieces : List Piece) : Option String := (characters? pieces).map String.ofList

/-- The token at the front of a text that starts with no space, and what follows it. -/
def next? : List Char → Option (Token × List Char)
  | '\x7b' :: rest => some (openBrace, rest)
  | '\x7d' :: rest => some (closeBrace, rest)
  | '[' :: rest => some (openBracket, rest)
  | ']' :: rest => some (closeBracket, rest)
  | ',' :: rest => some (comma, rest)
  | ':' :: rest => some (colon, rest)
  | 'n' :: 'u' :: 'l' :: 'l' :: rest => some (null, rest)
  | 't' :: 'r' :: 'u' :: 'e' :: rest => some (bool true, rest)
  | 'f' :: 'a' :: 'l' :: 's' :: 'e' :: rest => some (bool false, rest)
  | '"' :: rest => (pieces? rest).map fun (found, rest) => (string (contentOf found), rest)
  | '-' :: rest => (numeral? true rest).map fun (numeral, rest) => (number numeral, rest)
  | cs => (numeral? false cs).map fun (numeral, rest) => (number numeral, rest)

/-- The tokens of a text; `fuel` bounds their number. -/
def scan : Nat → List Char → List Token
  | 0, _ => [invalid]
  | fuel + 1, cs =>
    match cs.dropWhile isSpace with
    | [] => []
    | c :: rest =>
      match next? (c :: rest) with
      | some (token, rest) => token :: scan fuel rest
      | none => [invalid]

end Token

/-- The tokens of a text: each takes at least one character, so there are no more than those. -/
def tokens (text : String) : List Token := Token.scan (text.length + 1) text.toList

end LiveTemplate.Json
