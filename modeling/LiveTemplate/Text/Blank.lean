import LiveTemplate.Text.CodePoint

/-!
# White space

The twenty-five characters with the Unicode property White_Space, and trimming by it.
-/

namespace LiveTemplate.Text

/-- White space, as closed ranges of code points. -/
def blankRanges : List (Nat × Nat) :=
  [(0x9, 0xD), (0x20, 0x20), (0x85, 0x85), (0xA0, 0xA0), (0x1680, 0x1680), (0x2000, 0x200A),
   (0x2028, 0x2029), (0x202F, 0x202F), (0x205F, 0x205F), (0x3000, 0x3000)]

/-- A character with the property White_Space. -/
def isBlank (c : Char) : Bool := inRanges blankRanges c.toNat

/-- A list without the blanks at its front and at its end. -/
def trimChars (cs : List Char) : List Char :=
  ((cs.dropWhile isBlank).reverse.dropWhile isBlank).reverse

/-- A text without the blanks at its front and at its end. -/
def trim (s : String) : String := String.ofList (trimChars s.toList)

/-- The blanks of ASCII that part the words of a selector or of a class attribute. -/
def isAsciiBlank (c : Char) : Bool :=
  c == ' ' || c == '\t' || c == '\n' || c == '\r' || c == '\x0c'

/-- The words of a text that ASCII blanks separate, none of them empty.  `word` holds the word
read so far, last character first. -/
def wordsFrom (word : List Char) : List Char → List (List Char)
  | [] => if word.isEmpty then [] else [word.reverse]
  | c :: rest =>
    if isAsciiBlank c then
      if word.isEmpty then wordsFrom [] rest else word.reverse :: wordsFrom [] rest
    else wordsFrom (c :: word) rest

/-- The words of a text that ASCII blanks separate, none of them empty. -/
def words (cs : List Char) : List (List Char) := wordsFrom [] cs

end LiveTemplate.Text
