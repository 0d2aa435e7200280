import LiveTemplate.Markup.Tree
import LiveTemplate.Text.Escaped

/-!
# Serializing trees

`outerMarkup` writes a node with its own tag, `innerMarkup` its children alone.  Attribute values
and texts are escaped; comments are written as they are.
-/

namespace LiveTemplate.Tree

variable {ι : Type}

/-- The elements that have no end tag and whose children are not written. -/
def voidTags : List String :=
  ["area", "base", "br", "col", "embed", "hr", "img", "input", "link", "meta", "source", "track",
   "wbr"]

/-- A tag of an element without end tag, in any case. -/
def isVoidTag (tag : String) : Bool :=
  voidTags.contains (String.ofList (tag.toList.map Char.toLower))

/-- One attribute with the blank before it. -/
def attributeChars (entry : String × String) : List Char :=
  ' ' :: entry.1.toList ++ ['=', '"'] ++ Text.escapeChars entry.2.toList ++ ['"']

/-- The start tag of an element. -/
def startTagChars (tag : String) (attributes : List (String × String)) : List Char :=
  '<' :: tag.toList ++ attributes.flatMap attributeChars ++ ['>']

/-- The end tag of an element. -/
def endTagChars (tag : String) : List Char := ['<', '/'] ++ tag.toList ++ ['>']

/-- The characters of a node with its own tag. -/
def outerChars : Tree ι → List Char
  | element _ tag attributes children =>
    if isVoidTag tag then startTagChars tag attributes
    else startTagChars tag attributes ++ forestChars children ++ endTagChars tag
  | text _ data => Text.escapeChars data.toList
  | comment _ data => ['<', '!', '-', '-'] ++ data.toList ++ ['-', '-', '>']
  | document _ children => forestChars children
where
  /-- The characters of several nodes. -/
  forestChars : List (Tree ι) → List Char
    | [] => []
    | tree :: rest => tree.outerChars ++ forestChars rest

/-- A node with its own tag. -/
def outerMarkup (tree : Tree ι) : String := String.ofList tree.outerChars

/-- Several nodes. -/
def forestMarkup (trees : List (Tree ι)) : String := String.ofList (outerChars.forestChars trees)

/-- The children of a node. -/
def innerMarkup (tree : Tree ι) : String := forestMarkup tree.children

/-- The texts at and below a node that is no comment, joined. -/
def textBelow : Tree ι → List Char
  | element _ _ _ children => textOfForest children
  | text _ data => data.toList
  | comment _ _ => []
  | document _ children => textOfForest children
where
  /-- The texts of several nodes. -/
  textOfForest : List (Tree ι) → List Char
    | [] => []
    | tree :: rest => tree.textBelow ++ textOfForest rest

/-- The text content of a node: a comment's own data, or the texts below. -/
def textContent : Tree ι → String
  | comment _ data => data
  | tree => String.ofList tree.textBelow

/-- The name of a node by its type: the upper-case tag, or a word for the type. -/
def nodeName : Tree ι → String
  | element _ tag _ _ => String.ofList (tag.toList.map Char.toUpper)
  | text _ _ => "#text"
  | comment _ _ => "#comment"
  | document _ _ => "#document"

end LiveTemplate.Tree
