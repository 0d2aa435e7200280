import LiveTemplate.Markup.Reference

/-!
# Scanning markup

`scan` reads the next token in a mode.  A construct that the end of the text cuts short is
dropped if it is a tag and kept if it is a comment.
-/

namespace LiveTemplate.Markup

/-- Where an attribute value ends, and whether it is quoted. -/
inductive ValueEnd
  | quote (c : Char)
  | blank

/-- Whether a character ends an attribute value. -/
def ValueEnd.stops : ValueEnd → Char → Bool
  | quote q, c => c == q
  | blank, c => isSpace c || c == '>'

/-- An attribute value up to where it ends; `value` holds what was read, last character first.
Nothing where the text ends first. -/
def attributeValue? (stop : ValueEnd) :
    Nat → List Char → List Char → Option (String × List Char)
  | 0, _, _ => none
  | _ + 1, _, [] => none
  | fuel + 1, value, c :: rest =>
    if stop.stops c then some (String.ofList value.reverse, c :: rest)
    else if c == '&' then
      let found := reference true rest
      attributeValue? stop fuel (found.characters.reverse ++ value) found.rest
    else attributeValue? stop fuel (replaceNull c :: value) rest

/-- Whether a character ends an attribute name. -/
def endsAttributeName (c : Char) : Bool := isSpace c || c == '/' || c == '>' || c == '='

/-- The name of an attribute, which may start with an equals sign. -/
def attributeName : List Char → String × List Char
  | [] => ("", [])
  | c :: rest =>
    let name := c :: rest.takeWhile fun c => !endsAttributeName c
    (lower (name.map replaceNull), rest.dropWhile fun c => !endsAttributeName c)

/-- Add an attribute; of several with one name the first counts. -/
def addAttribute (attributes : List (String × String)) (name value : String) :
    List (String × String) :=
  if attributes.any (·.1 == name) then attributes else attributes ++ [(name, value)]

/-- The attributes of a tag up to its closing bracket, and whether it closes itself.  Nothing where
the text ends first. -/
def tagRest? : Nat → List (String × String) → List Char →
    Option (List (String × String) × Bool × List Char)
  | 0, _, _ => none
  | fuel + 1, attributes, cs =>
    match cs.dropWhile isSpace with
    | [] => none
    | '>' :: rest => some (attributes, false, rest)
    | '/' :: '>' :: rest => some (attributes, true, rest)
    | '/' :: rest => tagRest? fuel attributes rest
    | cs =>
      let (name, rest) := attributeName cs
      match rest.dropWhile isSpace with
      | '=' :: rest =>
        match rest.dropWhile isSpace with
        | '>' :: rest => some (addAttribute attributes name "", false, rest)
        | '"' :: rest =>
          match attributeValue? (.quote '"') (rest.length + 1) [] rest with
          | some (value, rest) => tagRest? fuel (addAttribute attributes name value) (rest.drop 1)
          | none => none
        | '\'' :: rest =>
          match attributeValue? (.quote '\'') (rest.length + 1) [] rest with
          | some (value, rest) => tagRest? fuel (addAttribute attributes name value) (rest.drop 1)
          | none => none
        | rest =>
          match attributeValue? .blank (rest.length + 1) [] rest with
          | some (value, rest) => tagRest? fuel (addAttribute attributes name value) rest
          | none => none
      | rest => tagRest? fuel (addAttribute attributes name "") rest

/-- Whether a character ends a tag name. -/
def endsTagName (c : Char) : Bool := isSpace c || c == '/' || c == '>'

/-- A tag from its name on.  Nothing where the text ends inside it. -/
def tag? (cs : List Char) : Option (Tag × List Char) :=
  let name := cs.takeWhile fun c => !endsTagName c
  let rest := cs.dropWhile fun c => !endsTagName c
  (tagRest? (rest.length + 1) [] rest).map fun (attributes, selfClosing, rest) =>
    (⟨lower (name.map replaceNull), attributes, selfClosing⟩, rest)

/-- Where a comment stands: inside, or behind what may be the start of its end. -/
inductive CommentState
  | start
  | startDash
  | inside
  | endDash
  | endDashes
  | endBang

/-- A comment behind its opening; `data` holds what was read, last character first. -/
def commentRest : CommentState → List Char → List Char → String × List Char
  | _, data, [] => (String.ofList data.reverse, [])
  | .start, data, '>' :: rest => (String.ofList data.reverse, rest)
  | .start, data, '-' :: rest => commentRest .startDash data rest
  | .start, data, c :: rest => commentRest .inside (replaceNull c :: data) rest
  | .startDash, data, '>' :: rest => (String.ofList data.reverse, rest)
  | .startDash, data, '-' :: rest => commentRest .endDashes data rest
  | .startDash, data, c :: rest => commentRest .inside (replaceNull c :: '-' :: data) rest
  | .inside, data, '-' :: rest => commentRest .endDash data rest
  | .inside, data, c :: rest => commentRest .inside (replaceNull c :: data) rest
  | .endDash, data, '-' :: rest => commentRest .endDashes data rest
  | .endDash, data, c :: rest => commentRest .inside (replaceNull c :: '-' :: data) rest
  | .endDashes, data, '>' :: rest => (String.ofList data.reverse, rest)
  | .endDashes, data, '!' :: rest => commentRest .endBang data rest
  | .endDashes, data, '-' :: rest => commentRest .endDashes ('-' :: data) rest
  | .endDashes, data, c :: rest => commentRest .inside (replaceNull c :: '-' :: '-' :: data) rest
  | .endBang, data, '>' :: rest => (String.ofList data.reverse, rest)
  | .endBang, data, '-' :: rest => commentRest .endDash ('!' :: '-' :: '-' :: data) rest
  | .endBang, data, c :: rest =>
    commentRest .inside (replaceNull c :: '!' :: '-' :: '-' :: data) rest

/-- Text up to a closing bracket, taken as a comment. -/
def bogusComment (cs : List Char) : Token × List Char :=
  let data := cs.takeWhile (· != '>')
  (.comment (String.ofList (data.map replaceNull)), (cs.dropWhile (· != '>')).drop 1)

/-- The content of a character section, and what follows its end. -/
def sectionContent : List Char → List Char × List Char
  | [] => ([], [])
  | ']' :: ']' :: '>' :: rest => ([], rest)
  | c :: rest =>
    let (content, rest) := sectionContent rest
    (c :: content, rest)

/-- A declaration behind `<!`: a comment, a document type, which gives no token, or a character
section where foreign elements are open. -/
def declaration (inForeign : Bool) (cs : List Char) : Option Token × List Char :=
  match cs with
  | '-' :: '-' :: rest =>
    let (data, rest) := commentRest .start [] rest
    (some (.comment data), rest)
  | _ =>
    if lower (cs.take 7) = "doctype" then (none, (cs.dropWhile (· != '>')).drop 1)
    else if inForeign && String.ofList (cs.take 7) = "[CDATA[" then
      let (content, rest) := sectionContent (cs.drop 7)
      (some (.characters content), rest)
    else
      let (token, rest) := bogusComment cs
      (some token, rest)

/-- What stands behind `<` where tags are read. -/
def tagOpen (inForeign : Bool) (cs : List Char) : Option Token × List Char :=
  match cs with
  | '!' :: rest => declaration inForeign rest
  | '?' :: _ =>
    let (token, rest) := bogusComment cs
    (some token, rest)
  | '/' :: '>' :: rest => (none, rest)
  | '/' :: [] => (some (.characters ['<', '/']), [])
  | '/' :: c :: rest =>
    if c.isAlpha then
      match tag? (c :: rest) with
      | some (tag, rest) => (some (.endTag tag.name), rest)
      | none => (none, [])
    else
      let (token, rest) := bogusComment (c :: rest)
      (some token, rest)
  | c :: rest =>
    if c.isAlpha then
      match tag? (c :: rest) with
      | some (tag, rest) => (some (.startTag tag), rest)
      | none => (none, [])
    else (some (.characters ['<']), c :: rest)
  | [] => (some (.characters ['<']), [])

/-- Whether the text behind `</` goes on with the given name and ends it. -/
def isEndTagOf (name : String) (cs : List Char) : Bool :=
  lower (cs.takeWhile Char.isAlpha) = name && match cs.dropWhile Char.isAlpha with
    | c :: _ => endsTagName c
    | [] => false

/-- The result of scanning: a token if there is one, the mode to go on in, and the text behind. -/
structure Scanned where
  token : Option Token
  mode : TextMode
  rest : List Char
  /-- Whether the token comes from a reference that lacks its semicolon. -/
  isOpenReference : Bool := false

/-- The characters of the reference behind an ampersand. -/
def scanReference (mode : TextMode) (cs : List Char) : Scanned :=
  let found := reference false cs
  ⟨some (.characters found.characters), mode, found.rest, found.isOpen⟩

/-- The end tag behind `</`; the mode goes back to markup. -/
def closingTag (cs : List Char) : Scanned :=
  match tag? cs with
  | some (tag, rest) => { token := some (.endTag tag.name), mode := .markup, rest }
  | none => { token := none, mode := .markup, rest := [] }

/-- The end tag of a script behind `</`.  What follows a script is read as a text of its own, so a
byte order mark right behind it is dropped. -/
def closingScript (cs : List Char) : Scanned :=
  let scanned := closingTag cs
  { scanned with rest := Text.dropByteOrderMark scanned.rest }

/-- A text that starts with the given run of letters and a character that ends it, in lower case;
the length of both. -/
def letterRun? (name : String) (cs : List Char) : Option Nat :=
  if isEndTagOf name cs then some ((cs.takeWhile Char.isAlpha).length + 1) else none

/-- The next token of a script.  Inside a comment in a script, a script tag opens and closes a
nested script, whose end tag does not end the outer one. -/
def scanScript (mode : TextMode) (elementName : String) (cs : List Char) : Scanned :=
  let emit (n : Nat) (next : TextMode) : Scanned :=
    { token := some (.characters ((cs.take n).map replaceNull)), mode := next, rest := cs.drop n }
  match mode, cs with
  | .script, '<' :: '/' :: rest =>
    if isEndTagOf elementName rest then closingScript rest else emit 1 .script
  | .script, '<' :: '!' :: '-' :: '-' :: _ => emit 4 (.scriptComment 2)
  | .scriptComment dashes, '-' :: _ => emit 1 (.scriptComment (min (dashes + 1) 2))
  | .scriptComment 2, '>' :: _ => emit 1 .script
  | .scriptComment _, '<' :: '/' :: rest =>
    if isEndTagOf elementName rest then closingScript rest else emit 1 (.scriptComment 0)
  | .scriptComment _, '<' :: rest =>
    match letterRun? "script" rest with
    | some n => emit (n + 1) (.scriptNested 0)
    | none => emit 1 (.scriptComment 0)
  | .scriptComment _, _ => emit 1 (.scriptComment 0)
  | .scriptNested dashes, '-' :: _ => emit 1 (.scriptNested (min (dashes + 1) 2))
  | .scriptNested 2, '>' :: _ => emit 1 .script
  | .scriptNested _, '<' :: '/' :: rest =>
    match letterRun? "script" rest with
    | some n => emit (n + 2) (.scriptComment 0)
    | none => emit 2 (.scriptNested 0)
  | .scriptNested _, _ => emit 1 (.scriptNested 0)
  | mode, _ => emit 1 mode

/-- The next token of a text that is not empty, in a mode.  `elementName` is the name of the last
start tag. -/
def scan (mode : TextMode) (inForeign : Bool) (elementName : String) (cs : List Char) : Scanned :=
  let emit (characters rest : List Char) : Scanned :=
    { token := some (.characters characters), mode, rest }
  match mode, cs with
  | _, [] => { token := none, mode, rest := [] }
  | .markup, '&' :: rest => scanReference .markup rest
  | .markup, '<' :: rest =>
    let (token, rest) := tagOpen inForeign rest
    { token, mode := .markup, rest }
  | .markup, c :: rest =>
    let isPlain (c : Char) := c != '&' && c != '<'
    emit (c :: rest.takeWhile isPlain) (rest.dropWhile isPlain)
  | .referenceText, '&' :: rest => scanReference .referenceText rest
  | .referenceText, '<' :: '/' :: rest =>
    if isEndTagOf elementName rest then closingTag rest else emit ['<'] ('/' :: rest)
  | .referenceText, c :: rest => emit [replaceNull c] rest
  | .rawText, '<' :: '/' :: rest =>
    if isEndTagOf elementName rest then closingTag rest else emit ['<'] ('/' :: rest)
  | .rawText, c :: rest => emit [replaceNull c] rest
  | .plainText, cs => emit (cs.map replaceNull) []
  | mode, cs => scanScript mode elementName cs

end LiveTemplate.Markup
