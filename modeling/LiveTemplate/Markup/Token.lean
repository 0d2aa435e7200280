import LiveTemplate.Markup.NamedReference
import LiveTemplate.Text.ByteOrderMark

/-!
# Tokens of markup

Markup is cut into tags, comments and runs of characters.  How characters are read depends on the
element they stand in, so the scanner takes a mode and gives back the next one.
-/

namespace LiveTemplate.Markup

/-- A start tag. -/
structure Tag where
  name : String
  attributes : List (String × String) := []
  selfClosing : Bool := false
deriving DecidableEq, Repr, Inhabited

/-- A token of markup. -/
inductive Token
  | startTag (tag : Tag)
  | endTag (name : String)
  | comment (data : String)
  | characters (cs : List Char)
  | endOfText
deriving DecidableEq, Repr, Inhabited

/-- How the characters of an element are read. -/
inductive TextMode
  /-- Tags, comments and references. -/
  | markup
  /-- References, up to the matching end tag. -/
  | referenceText
  /-- Characters alone, up to the matching end tag. -/
  | rawText
  /-- Characters alone, up to the end of the text. -/
  | plainText
  /-- A script. -/
  | script
  /-- A script inside a comment, behind the given number of dashes. -/
  | scriptComment (dashes : Nat)
  /-- A script inside a script inside a comment, behind the given number of dashes. -/
  | scriptNested (dashes : Nat)
deriving DecidableEq, Repr, Inhabited

/-- The white space of markup. -/
def isSpace (c : Char) : Bool :=
  c == ' ' || c == '\t' || c == '\n' || c == '\x0c' || c == '\r'

/-- What stands for a character that may not occur. -/
def replacement : Char := '\ufffd'

/-- The null character is replaced, all others stay. -/
def replaceNull (c : Char) : Char := if c == '\x00' then replacement else c

/-- A line break in any form is one line feed, and a leading byte order mark is dropped. -/
def normalize (text : String) : List Char :=
  breaks (Text.dropByteOrderMark text.toList)
where
  /-- Line breaks as line feeds. -/
  breaks : List Char → List Char
    | '\r' :: '\n' :: rest => '\n' :: breaks rest
    | '\r' :: rest => '\n' :: breaks rest
    | c :: rest => c :: breaks rest
    | [] => []

/-- An ASCII character in lower case. -/
def lower (cs : List Char) : String := String.ofList (cs.map Char.toLower)

end LiveTemplate.Markup
