/-!
# Escaped text

Text and attribute values are written with references for the characters that mean something in
markup.
-/

namespace LiveTemplate.Text

/-- The reference written for a character, if it has one. -/
def reference? : Char → Option String
  | '&' => some "&amp;"
  | '<' => some "&lt;"
  | '>' => some "&gt;"
  | '"' => some "&quot;"
  | '\'' => some "&#x27;"
  | '/' => some "&#x2f;"
  | _ => none

/-- A character as it is written in markup. -/
def escapeChar (c : Char) : List Char :=
  match reference? c with
  | some reference => reference.toList
  | none => [c]

/-- A text as it is written in markup, character by character. -/
def escapeChars (cs : List Char) : List Char := cs.flatMap escapeChar

/-- A text as it is written in markup. -/
def escape (s : String) : String := String.ofList (escapeChars s.toList)

end LiveTemplate.Text
