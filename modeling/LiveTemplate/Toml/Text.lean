import LiveTemplate.Toml.Item

/-!
# Blanks, keys and strings of TOML

Readers take a list of characters and return what they read and what follows, or nothing.
-/

namespace LiveTemplate.Toml

/-- The blanks inside a line. -/
def isLineBlank (c : Char) : Bool := c == ' ' || c == '\t'

/-- Drop the blanks at the front of a text. -/
def dropBlanks (cs : List Char) : List Char := cs.dropWhile isLineBlank

/-- A character that may stand in a comment: any but control characters other than the tab. -/
def isCommentChar (c : Char) : Bool := c == '\t' || (0x20 ≤ c.toNat && c.toNat ≠ 0x7F)

/-- Drop a comment, if one starts here. -/
def dropComment : List Char → List Char
  | '#' :: rest => rest.dropWhile isCommentChar
  | cs => cs

/-- What follows a line break. -/
def lineBreak? : List Char → Option (List Char)
  | '\n' :: rest => some rest
  | '\r' :: '\n' :: rest => some rest
  | _ => none

/-- What follows the end of a line: blanks, a comment, and a line break or the end of the text. -/
def lineEnd? (cs : List Char) : Option (List Char) :=
  match dropComment (dropBlanks cs) with
  | [] => some []
  | rest => lineBreak? rest

/-- Drop blanks, comments and line breaks.  A comment has to end in a line break. -/
def dropLines : Nat → List Char → List Char
  | 0, cs => cs
  | fuel + 1, cs =>
    match dropBlanks cs with
    | '#' :: rest =>
      match lineBreak? (rest.dropWhile isCommentChar) with
      | some rest => dropLines fuel rest
      | none => '#' :: rest
    | rest =>
      match lineBreak? rest with
      | some rest => dropLines fuel rest
      | none => rest

/-- Drop blanks and line breaks. -/
def dropBlankLines : Nat → List Char → List Char
  | 0, cs => cs
  | fuel + 1, cs =>
    match lineBreak? (dropBlanks cs) with
    | some rest => dropBlankLines fuel rest
    | none => dropBlanks cs

/-- A character that stands for itself between double quotes. -/
def isBasicChar (c : Char) : Bool :=
  c == '\t' || (0x20 ≤ c.toNat && c.toNat ≠ 0x7F && c != '"' && c != '\\')

/-- A character that stands for itself between single quotes. -/
def isLiteralChar (c : Char) : Bool :=
  c == '\t' || (0x20 ≤ c.toNat && c.toNat ≠ 0x7F && c != '\'')

/-- The value of a hexadecimal digit. -/
def hexValue? (c : Char) : Option Nat :=
  if c.isDigit then some (c.toNat - '0'.toNat)
  else if 'a' ≤ c ∧ c ≤ 'f' then some (c.toNat - 'a'.toNat + 10)
  else if 'A' ≤ c ∧ c ≤ 'F' then some (c.toNat - 'A'.toNat + 10)
  else none

/-- The character whose code point the next `count` hexadecimal digits spell. -/
def codePoint? (count : Nat) (cs : List Char) : Option (Char × List Char) := do
  let digits ← (cs.take count).mapM hexValue?
  if digits.length ≠ count then none
  else
    let n := digits.foldl (fun n digit => n * 16 + digit) 0
    if h : n.isValidChar then some (Char.ofNatAux n h, cs.drop count) else none

/-- The character of an escape behind its backslash. -/
def escape? : List Char → Option (Char × List Char)
  | 'b' :: rest => some ('\x08', rest)
  | 't' :: rest => some ('\t', rest)
  | 'n' :: rest => some ('\n', rest)
  | 'f' :: rest => some ('\x0c', rest)
  | 'r' :: rest => some ('\r', rest)
  | '"' :: rest => some ('"', rest)
  | '\\' :: rest => some ('\\', rest)
  | 'u' :: rest => codePoint? 4 rest
  | 'U' :: rest => codePoint? 8 rest
  | _ => none

/-- The content of a string in double quotes behind the opening one; `content` holds what was
read, last character first. -/
def basicBody? : Nat → List Char → List Char → Option (List Char × List Char)
  | 0, _, _ => none
  | fuel + 1, content, cs =>
    match cs with
    | '"' :: rest => some (content.reverse, rest)
    | '\\' :: rest =>
      match escape? rest with
      | some (c, rest) => basicBody? fuel (c :: content) rest
      | none => none
    | c :: rest => if isBasicChar c then basicBody? fuel (c :: content) rest else none
    | [] => none

/-- The content of a string in three quotes behind the opening ones.  Fewer than three quotes are
content, and so are the first of up to five quotes that close it. -/
def multilineBody? (quote : Char) (isContent : Char → Bool) (escapes : Bool) :
    Nat → List Char → List Char → Option (List Char × List Char)
  | 0, _, _ => none
  | fuel + 1, content, cs =>
    let continueWith := multilineBody? quote isContent escapes fuel
    match lineBreak? cs with
    | some rest => continueWith ('\n' :: content) rest
    | none =>
      match cs with
      | [] => none
      | c :: rest =>
        if c == quote then
          let quotes := cs.takeWhile (· == quote)
          let rest := cs.dropWhile (· == quote)
          if quotes.length < 3 then continueWith (quotes ++ content) rest
          else
            let kept := min (quotes.length - 3) 2
            some ((quotes.take kept ++ content).reverse, cs.drop (kept + 3))
        else if escapes && c == '\\' then
          match lineBreak? (dropBlanks rest) with
          | some rest => continueWith content (dropBlankLines rest.length rest)
          | none =>
            match escape? rest with
            | some (c, rest) => continueWith (c :: content) rest
            | none => none
        else if isContent c then continueWith (c :: content) rest
        else none

/-- A line break right behind the opening quotes is no content. -/
def dropFirstBreak (cs : List Char) : List Char := (lineBreak? cs).getD cs

/-- A string in single quotes behind the opening one. -/
def literalBody? (cs : List Char) : Option (List Char × List Char) :=
  match cs.dropWhile isLiteralChar with
  | '\'' :: rest => some (cs.takeWhile isLiteralChar, rest)
  | _ => none

/-- A string of any form. -/
def string? : List Char → Option (String × List Char)
  | '"' :: '"' :: '"' :: rest =>
    (multilineBody? '"' isBasicChar true (rest.length + 1) [] (dropFirstBreak rest)).map
      fun (content, rest) => (String.ofList content, rest)
  | '"' :: rest =>
    (basicBody? (rest.length + 1) [] rest).map fun (content, rest) => (String.ofList content, rest)
  | '\'' :: '\'' :: '\'' :: rest =>
    (multilineBody? '\'' isLiteralChar false (rest.length + 1) [] (dropFirstBreak rest)).map
      fun (content, rest) => (String.ofList content, rest)
  | '\'' :: rest => (literalBody? rest).map fun (content, rest) => (String.ofList content, rest)
  | _ => none

/-- A character of a bare key. -/
def isBareKeyChar (c : Char) : Bool := c.isAlphanum || c == '_' || c == '-'

/-- One part of a key, bare or quoted on one line. -/
def keyPart? (cs : List Char) : Option (String × List Char) :=
  match cs with
  | '"' :: rest =>
    (basicBody? (rest.length + 1) [] rest).map fun (content, rest) => (String.ofList content, rest)
  | '\'' :: rest => (literalBody? rest).map fun (content, rest) => (String.ofList content, rest)
  | _ =>
    match cs.takeWhile isBareKeyChar with
    | [] => none
    | part => some (String.ofList part, cs.dropWhile isBareKeyChar)

/-- The parts of a dotted key, with blanks around each. -/
def keyParts? : Nat → List Char → Option (List String × List Char)
  | 0, _ => none
  | fuel + 1, cs =>
    match keyPart? (dropBlanks cs) with
    | none => none
    | some (part, rest) =>
      match dropBlanks rest with
      | '.' :: rest => (keyParts? fuel rest).map fun (parts, rest) => (part :: parts, rest)
      | rest => some ([part], rest)

/-- The greatest number of containers around a value, and of parts of a key, plus one. -/
def nestingLimit : Nat := 80

/-- A dotted key, of fewer parts than the limit. -/
def key? (cs : List Char) : Option (List String × List Char) :=
  match keyParts? (cs.length + 1) cs with
  | some (parts, rest) => if parts.length < nestingLimit then some (parts, rest) else none
  | none => none

end LiveTemplate.Toml
