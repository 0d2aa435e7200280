import LiveTemplate.Markup.Token

/-!
# Character references

A reference is a number or a name behind an ampersand.  A name without its semicolon counts up to
the longest name that needs none; inside an attribute value it counts only where no letter, digit
or equals sign follows.
-/

namespace LiveTemplate.Markup

/-- The characters that the numbers from `0x80` to `0x9F` stand for. -/
def controlReplacements : List Nat :=
  [0x20AC, 0x81, 0x201A, 0x192, 0x201E, 0x2026, 0x2020, 0x2021, 0x2C6, 0x2030, 0x160, 0x2039,
   0x152, 0x8D, 0x17D, 0x8F, 0x90, 0x2018, 0x2019, 0x201C, 0x201D, 0x2022, 0x2013, 0x2014,
   0x2DC, 0x2122, 0x161, 0x203A, 0x153, 0x9D, 0x17E, 0x178]

/-- The character of a numeric reference. -/
def numberedCharacter (n : Nat) : Char :=
  if n = 0 ∨ 0x10FFFF < n ∨ (0xD800 ≤ n ∧ n ≤ 0xDFFF) then replacement
  else if 0x80 ≤ n ∧ n ≤ 0x9F then Char.ofNat (controlReplacements.getD (n - 0x80) n)
  else Char.ofNat n

/-- What is read behind an ampersand. -/
structure Reference where
  /-- The characters that the reference stands for. -/
  characters : List Char
  /-- The text behind the reference. -/
  rest : List Char
  /-- Whether the reference lacks its semicolon. -/
  isOpen : Bool := false
deriving DecidableEq, Repr

/-- A reference to the given characters, up to the text behind it.  A semicolon at the front of that
text belongs to the reference. -/
def Reference.close (characters : List Char) : List Char → Reference
  | ';' :: rest => { characters, rest }
  | rest => { characters, rest, isOpen := true }

/-- A numeric reference behind the number sign. -/
def numeric? (cs : List Char) : Option Reference :=
  let (digits, value, rest) := match cs with
    | 'x' :: rest => (rest.takeWhile isHexDigit, hexValue, rest.dropWhile isHexDigit)
    | 'X' :: rest => (rest.takeWhile isHexDigit, hexValue, rest.dropWhile isHexDigit)
    | cs =>
      (cs.takeWhile Char.isDigit,
        fun digits => digits.foldl (fun n c => n * 10 + hexDigitValue c) 0,
        cs.dropWhile Char.isDigit)
  if digits.isEmpty then none else some (.close [numberedCharacter (value digits)] rest)

/-- The longest start of a run of letters and digits that is a name without semicolon, of at most
`length` characters, and its length. -/
def longestBare? (run : List Char) : Nat → Option (List Char × Nat)
  | 0 => none
  | length + 1 =>
    match bareReference? (String.ofList (run.take (length + 1))) with
    | some cs => some (cs, length + 1)
    | none => longestBare? run length

/-- Whether a name without semicolon may not count before this text, inside an attribute value. -/
def continuesName : List Char → Bool
  | c :: _ => c == '=' || c.isAlphanum
  | [] => false

/-- A named reference behind the ampersand. -/
def named? (inAttribute : Bool) (cs : List Char) : Option Reference :=
  let run := cs.takeWhile Char.isAlphanum
  let whole? := match cs.dropWhile Char.isAlphanum with
    | ';' :: rest =>
      (namedReference? (String.ofList run)).map fun characters => { characters, rest : Reference }
    | _ => none
  match whole? with
  | some found => some found
  | none =>
    match longestBare? run run.length with
    | some (characters, length) =>
      let rest := cs.drop length
      if inAttribute && continuesName rest then none
      else some { characters, rest, isOpen := true }
    | none => none

/-- The reference behind an ampersand.  Where there is none the ampersand stands for itself. -/
def reference (inAttribute : Bool) (cs : List Char) : Reference :=
  let found? := match cs with
    | '#' :: rest => numeric? rest
    | cs => named? inAttribute cs
  found?.getD { characters := ['&'], rest := cs }

end LiveTemplate.Markup
