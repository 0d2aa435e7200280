import LiveTemplate.Json.Basic

/-!
# Written forms of JSON

The same data can be written in many ways: blanks stand around any value and any name, a character of
a string is written as it is or in one of several escapes, and a number may have a fraction and an
exponent.  A form is a JSON text with all of these choices.  `Form.chars` is the text, and
`Form.Holds` says which data it holds, as far as that has no floats.  Every form is standard JSON,
also one that holds no data because an escape in it names half of a surrogate pair.
-/

namespace LiveTemplate.Json

/-! ## Blanks -/

/-- White space around a value or a name, possibly none. -/
structure Blank where
  chars : List Char
  blank : ∀ c ∈ chars, c ∈ [' ', '\n', '\t', '\r']

/-- No white space. -/
def Blank.none : Blank := ⟨[], fun _ hc => absurd hc List.not_mem_nil⟩

/-- A single space. -/
def Blank.space : Blank := ⟨[' '], fun _ hc => List.mem_singleton.1 hc ▸ List.mem_cons_self⟩

/-! ## Strings -/

/-- A hexadecimal digit; the letters are written in one of two cases. -/
structure HexDigit where
  value : Fin 16
  upper : Bool

/-- The character of the digit. -/
def HexDigit.char (digit : HexDigit) : Char :=
  if digit.upper then (Nat.digitChar digit.value).toUpper else Nat.digitChar digit.value

/-- The letters that stand behind a backslash, with the characters that they mean. -/
def shortEscapes : List (Char × Char) :=
  [('"', '"'), ('\\', '\\'), ('/', '/'), ('b', '\x08'), ('f', '\x0c'), ('n', '\n'), ('r', '\r'),
    ('t', '\t')]

/-- An element of a string as it is written. -/
inductive Glyph
  /-- A character that stands for itself. -/
  | plain (c : Char) (bare : c ≠ '"' ∧ c ≠ '\\' ∧ 0x20 ≤ c.toNat)
  /-- A backslash and a letter. -/
  | short (letter c : Char) (known : (letter, c) ∈ shortEscapes)
  /-- A backslash, a `u` and four hexadecimal digits, which name a unit of sixteen bits. -/
  | unit (a b c d : HexDigit)

namespace Glyph

/-- The characters of an element. -/
def chars : Glyph → List Char
  | plain c _ => [c]
  | short letter _ _ => ['\\', letter]
  | unit a b c d => ['\\', 'u', a.char, b.char, c.char, d.char]

/-- The unit that four digits name. -/
def unitOf (a b c d : HexDigit) : Nat :=
  ((a.value.val * 16 + b.value.val) * 16 + c.value.val) * 16 + d.value.val

/-- The string literal with the given elements. -/
def literal (glyphs : List Glyph) : List Char := '"' :: glyphs.flatMap chars ++ ['"']

/-- The elements stand for the characters.  One unit is a character if it is the number of one, and
a character beyond sixteen bits is a pair of units. -/
inductive Spells : List Glyph → List Char → Prop
  | nil : Spells [] []
  | plain {glyphs : List Glyph} {cs : List Char} {c : Char}
      {bare : c ≠ '"' ∧ c ≠ '\\' ∧ 0x20 ≤ c.toNat} (hrest : Spells glyphs cs) :
      Spells (.plain c bare :: glyphs) (c :: cs)
  | short {glyphs : List Glyph} {cs : List Char} {letter c : Char}
      {known : (letter, c) ∈ shortEscapes} (hrest : Spells glyphs cs) :
      Spells (.short letter c known :: glyphs) (c :: cs)
  | unit {glyphs : List Glyph} {cs : List Char} {digit₁ digit₂ digit₃ digit₄ : HexDigit} {c : Char}
      (hunit : unitOf digit₁ digit₂ digit₃ digit₄ = c.toNat) (hrest : Spells glyphs cs) :
      Spells (.unit digit₁ digit₂ digit₃ digit₄ :: glyphs) (c :: cs)
  | pair {glyphs : List Glyph} {cs : List Char} {lead₁ lead₂ lead₃ lead₄ : HexDigit}
      {trail₁ trail₂ trail₃ trail₄ : HexDigit} {c : Char} {high low : Nat}
      (hlead : unitOf lead₁ lead₂ lead₃ lead₄ = 0xD800 + high)
      (htrail : unitOf trail₁ trail₂ trail₃ trail₄ = 0xDC00 + low)
      (hhigh : high < 0x400) (hlow : low < 0x400)
      (hchar : c.toNat = 0x10000 + high * 0x400 + low) (hrest : Spells glyphs cs) :
      Spells (.unit lead₁ lead₂ lead₃ lead₄ :: .unit trail₁ trail₂ trail₃ trail₄ :: glyphs) (c :: cs)

theorem Spells.append {first second : List Glyph} {cs ds : List Char} (hfirst : Spells first cs)
    (hsecond : Spells second ds) : Spells (first ++ second) (cs ++ ds) := by
  induction hfirst with
  | nil => exact hsecond
  | plain _ ih => exact .plain ih
  | short _ ih => exact .short ih
  | unit hunit _ ih => exact .unit hunit ih
  | pair hlead htrail hhigh hlow hchar _ ih => exact .pair hlead htrail hhigh hlow hchar ih

/-- Whether a character may stand for itself. -/
def isBare (c : Char) : Bool := c ≠ '"' ∧ c ≠ '\\' ∧ 0x20 ≤ c.toNat

/-- The elements of a string without escapes. -/
def bare (s : String) (h : s.toList.all isBare = true := by decide) : List Glyph :=
  s.toList.pmap plain fun c hc => of_decide_eq_true (List.all_eq_true.1 h c hc)

theorem Spells.pmap_plain {cs : List Char} (h : ∀ c ∈ cs, c ≠ '"' ∧ c ≠ '\\' ∧ 0x20 ≤ c.toNat) :
    Spells (cs.pmap Glyph.plain h) cs := by
  induction cs with
  | nil => exact .nil
  | cons c cs ih => exact .plain (ih _)

theorem Spells.bare {s : String} (h : s.toList.all isBare = true := by decide) :
    Spells (Glyph.bare s h) s.toList :=
  Spells.pmap_plain fun c hc => of_decide_eq_true (List.all_eq_true.1 h c hc)

end Glyph

/-! ## Numbers -/

/-- Decimal digits, at least one. -/
structure Digits where
  first : Fin 10
  rest : List (Fin 10)

/-- The characters of the digits. -/
def Digits.chars (digits : Digits) : List Char :=
  (digits.first :: digits.rest).map fun digit => Nat.digitChar digit.val

/-- The exponent of a number as it is written. -/
structure Exponent where
  /-- Whether the mark is an upper-case letter. -/
  upper : Bool
  /-- The sign, if one is written; `true` is a minus. -/
  sign : Option Bool
  digits : Digits

/-- The characters of the exponent. -/
def Exponent.chars (exponent : Exponent) : List Char :=
  (if exponent.upper then 'E' else 'e') ::
    match exponent.sign with
    | some true => '-' :: exponent.digits.chars
    | some false => '+' :: exponent.digits.chars
    | none => exponent.digits.chars

/-- A number as it is written; the whole part has no zero in front. -/
structure Figure where
  negative : Bool
  whole : Nat
  fraction : Option Digits
  exponent : Option Exponent

namespace Figure

/-- The characters behind the sign. -/
def magnitudeChars (figure : Figure) : List Char :=
  Nat.toDigits 10 figure.whole ++
    ((figure.fraction.map fun digits => '.' :: digits.chars).getD [] ++
      (figure.exponent.map Exponent.chars).getD [])

/-- The characters of the number. -/
def chars (figure : Figure) : List Char :=
  if figure.negative then '-' :: figure.magnitudeChars else figure.magnitudeChars

/-- The number is written as an integer.  Minus zero is none. -/
def IsInteger (figure : Figure) (n : Int) : Prop :=
  figure.fraction = none ∧ figure.exponent = none ∧
    if figure.negative then figure.whole ≠ 0 ∧ n = -(figure.whole : Int) else n = figure.whole

end Figure

/-! ## Values -/

/-- Data without floats, in which no object has a key twice. -/
def Integral : Json → Prop
  | .number (.float _ _) => False
  | .array items => integralItems items
  | .object members => (members.map Prod.fst).Nodup ∧ integralMembers members
  | _ => True
where
  /-- Each item is without floats. -/
  integralItems : List Json → Prop
    | [] => True
    | item :: rest => item.Integral ∧ integralItems rest
  /-- Each member is without floats. -/
  integralMembers : List (String × Json) → Prop
    | [] => True
    | (_, value) :: rest => value.Integral ∧ integralMembers rest

/-- The name of a member with the blanks around it. -/
structure MemberName where
  before : Blank
  glyphs : List Glyph
  after : Blank

/-- The characters of the name. -/
def MemberName.chars (name : MemberName) : List Char :=
  name.before.chars ++ Glyph.literal name.glyphs ++ name.after.chars

/-- A JSON text as it is written. -/
inductive Form
  | null
  | bool (value : Bool)
  | number (figure : Figure)
  | string (glyphs : List Glyph)
  /-- An array; the blank stands behind the bracket. -/
  | array (blank : Blank) (items : List Form)
  /-- An object; the blank stands behind the brace. -/
  | object (blank : Blank) (members : List (MemberName × Form))
  /-- A value with blanks around it. -/
  | padded (before : Blank) (form : Form) (after : Blank)

namespace Form

/-- The characters of the text. -/
def chars : Form → List Char
  | null => ['n', 'u', 'l', 'l']
  | bool true => ['t', 'r', 'u', 'e']
  | bool false => ['f', 'a', 'l', 's', 'e']
  | number figure => figure.chars
  | string glyphs => Glyph.literal glyphs
  | array blank items => '[' :: blank.chars ++ [','].intercalate (itemChars items) ++ [']']
  | object blank members =>
    '\x7b' :: blank.chars ++ [','].intercalate (memberChars members) ++ ['\x7d']
  | padded before form after => before.chars ++ form.chars ++ after.chars
where
  /-- The characters of each item. -/
  itemChars : List Form → List (List Char)
    | [] => []
    | item :: rest => item.chars :: itemChars rest
  /-- The characters of each member. -/
  memberChars : List (MemberName × Form) → List (List Char)
    | [] => []
    | (name, value) :: rest => (name.chars ++ ':' :: value.chars) :: memberChars rest

/-- The text. -/
def text (form : Form) : String := String.ofList form.chars

/-- The text holds the data, which has no floats.  An object holds its members in their order, under
different names. -/
def Holds : Form → Json → Prop
  | null, .null => True
  | bool b, .bool b' => b = b'
  | number figure, .number (.integer n _) => figure.IsInteger n
  | string glyphs, .string s => Glyph.Spells glyphs s.toList
  | array _ items, .array values => holdsItems items values
  | object _ members, .object entries =>
    (entries.map Prod.fst).Nodup ∧ holdsMembers members entries
  | padded _ form _, json => form.Holds json
  | _, _ => False
where
  /-- The items hold the values one by one. -/
  holdsItems : List Form → List Json → Prop
    | [], [] => True
    | item :: items, value :: values => item.Holds value ∧ holdsItems items values
    | _, _ => False
  /-- The members hold the entries one by one. -/
  holdsMembers : List (MemberName × Form) → List (String × Json) → Prop
    | [], [] => True
    | (name, form) :: members, (key, value) :: entries =>
      Glyph.Spells name.glyphs key.toList ∧ form.Holds value ∧ holdsMembers members entries
    | _, _ => False

end Form

end LiveTemplate.Json
