import LiveTemplate.Json.Basic
import LiveTemplate.Text.Quoted

/-!
# Writing JSON

`Json.compact` writes a value without spaces.  `Json.inspect` writes it with the name of each
variant, as inspection output shows it.
-/

namespace LiveTemplate

namespace Json

/-- One character inside a string literal: a short escape where there is one, four hexadecimal
digits for the other control characters, else the character. -/
def escapeChar (c : Char) : List Char :=
  if c == '"' then ['\\', '"']
  else if c == '\\' then ['\\', '\\']
  else if c == '\x08' then ['\\', 'b']
  else if c == '\t' then ['\\', 't']
  else if c == '\n' then ['\\', 'n']
  else if c == '\x0c' then ['\\', 'f']
  else if c == '\r' then ['\\', 'r']
  else if c.toNat < 0x20 then
    ['\\', 'u', '0', '0', Nat.digitChar (c.toNat / 16), Nat.digitChar (c.toNat % 16)]
  else [c]

/-- A string literal. -/
def stringLiteral (s : String) : List Char :=
  '"' :: s.toList.flatMap escapeChar ++ ['"']

/-- Pieces with a separator between each two of them. -/
def joinChars (separator : List Char) : List (List Char) → List Char
  | [] => []
  | [piece] => piece
  | piece :: rest => piece ++ separator ++ joinChars separator rest

/-- The characters of a value written without spaces. -/
def compactChars : Json → List Char
  | null => "null".toList
  | bool b => (if b then "true" else "false").toList
  | number n => n.dataText.toList
  | string s => stringLiteral s
  | array items => '[' :: joinChars [','] (itemPieces items) ++ [']']
  | object members => '\x7b' :: joinChars [','] (memberPieces members) ++ ['\x7d']
where
  /-- Each item of an array, written. -/
  itemPieces : List Json → List (List Char)
    | [] => []
    | item :: rest => item.compactChars :: itemPieces rest
  /-- Each member of an object, written with its key. -/
  memberPieces : List (String × Json) → List (List Char)
    | [] => []
    | (key, value) :: rest => (stringLiteral key ++ ':' :: value.compactChars) :: memberPieces rest

/-- A value written without spaces. -/
def compact (value : Json) : String := String.ofList value.compactChars

/-- A value with the names of its variants. -/
def inspect : Json → String
  | null => "Null"
  | bool b => "Bool(" ++ toString b ++ ")"
  | number n => "Number(" ++ n.dataText ++ ")"
  | string s => "String(" ++ Text.quoted s ++ ")"
  | array items => "Array [" ++ ", ".intercalate (inspectItems items) ++ "]"
  | object members => "Object \x7b" ++ ", ".intercalate (inspectMembers members) ++ "\x7d"
where
  /-- Each item of an array, inspected. -/
  inspectItems : List Json → List String
    | [] => []
    | item :: rest => item.inspect :: inspectItems rest
  /-- Each member of an object, inspected. -/
  inspectMembers : List (String × Json) → List String
    | [] => []
    | (key, value) :: rest => (Text.quoted key ++ ": " ++ value.inspect) :: inspectMembers rest

end Json

end LiveTemplate
