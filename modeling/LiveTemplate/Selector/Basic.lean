import LiveTemplate.Text.Alphanumeric
import LiveTemplate.Text.Blank
import LiveTemplate.Text.Quoted

/-!
# Selectors

A selector is a list of compounds that ASCII blanks separate, outermost first; the last one is the
subject.  A compound asks for a tag, an id and classes: it starts with a tag, with `*` or with
neither, and goes on with parts `#id` and `.class`, of which at most one is an id.
-/

namespace LiveTemplate

/-- What one word of a selector asks of an element. -/
structure Compound where
  tag : Option String := none
  id : Option String := none
  classes : List String := []
deriving DecidableEq, Repr, Inhabited

/-- Compounds, outermost first. -/
structure Selector where
  compounds : List Compound
deriving DecidableEq, Repr, Inhabited

/-- What is wrong with a selector. -/
inductive SelectorFault
  /-- There is no word. -/
  | empty
  /-- A part has no identifier. -/
  | expectedIdentifier
  /-- A compound asks for two ids. -/
  | duplicateId
  /-- A part starts with a character other than `#` and `.`. -/
  | unsupported
deriving DecidableEq, Repr

/-- The wording of a fault. -/
def SelectorFault.reason : SelectorFault → String
  | empty => "empty selector"
  | expectedIdentifier => "expected identifier"
  | duplicateId => "duplicate id"
  | unsupported => "unsupported syntax"

/-- A text that is no selector. -/
structure SelectorError where
  selector : String
  fault : SelectorFault
deriving DecidableEq, Repr

/-- The wording of a selector error. -/
def SelectorError.message (error : SelectorError) : String :=
  "invalid selector " ++ Text.quoted error.selector ++ ": " ++ error.fault.reason

namespace Compound

/-- A character of an identifier. -/
def isIdentifierChar (c : Char) : Bool := Text.isAlphanumeric c || c == '-' || c == '_'

/-- Read the parts of a compound.  A part without identifier is a fault before its first
character is looked at. -/
def readParts (compound : Compound) : List Char → Except SelectorFault Compound
  | [] => .ok compound
  | sigil :: rest =>
    let name := String.ofList (rest.takeWhile isIdentifierChar)
    if name.isEmpty then .error .expectedIdentifier
    else if sigil = '#' then
      if compound.id.isSome then .error .duplicateId
      else readParts { compound with id := some name } (rest.dropWhile isIdentifierChar)
    else if sigil = '.' then
      readParts { compound with classes := compound.classes ++ [name] }
        (rest.dropWhile isIdentifierChar)
    else .error .unsupported
termination_by cs => cs.length
decreasing_by
  all_goals
    have := (List.dropWhile_sublist (l := rest) isIdentifierChar).length_le
    simp only [List.length_cons]
    omega

/-- Read a compound. -/
def read : List Char → Except SelectorFault Compound
  | '*' :: rest => readParts {} rest
  | word =>
    let name := String.ofList (word.takeWhile isIdentifierChar)
    readParts { tag := if name.isEmpty then none else some name }
      (word.dropWhile isIdentifierChar)

/-- The text of a compound. -/
def text (compound : Compound) : String :=
  compound.tag.getD "*" ++ ((compound.id.map ("#" ++ ·)).getD "")
    ++ String.join (compound.classes.map ("." ++ ·))

/-- An optional text in inspection output. -/
def inspectOptional : Option String → String
  | some text => "Some(" ++ Text.quoted text ++ ")"
  | none => "None"

/-- A compound in inspection output. -/
def inspect (compound : Compound) : String :=
  "Compound \x7b tag: " ++ inspectOptional compound.tag ++ ", id: " ++ inspectOptional compound.id
    ++ ", classes: [" ++ ", ".intercalate (compound.classes.map Text.quoted) ++ "] \x7d"

end Compound

namespace Selector

/-- Read every word, up to the first fault. -/
def readWords : List (List Char) → Except SelectorFault (List Compound)
  | [] => .ok []
  | word :: rest =>
    match Compound.read word with
    | .ok compound => (readWords rest).map (compound :: ·)
    | .error fault => .error fault

/-- Read a selector. -/
def ofText (text : String) : Except SelectorError Selector :=
  match readWords (Text.words text.toList) with
  | .ok [] => .error ⟨text, .empty⟩
  | .ok compounds => .ok ⟨compounds⟩
  | .error fault => .error ⟨text, fault⟩

/-- The text of a selector. -/
def text (selector : Selector) : String := " ".intercalate (selector.compounds.map Compound.text)

/-- A selector in inspection output. -/
def inspect (selector : Selector) : String :=
  "Selector \x7b compounds: [" ++ ", ".intercalate (selector.compounds.map Compound.inspect)
    ++ "] \x7d"

end Selector

end LiveTemplate
