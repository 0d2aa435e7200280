import LiveTemplate.Markup.Builder.Elements
import LiveTemplate.Markup.Token

/-!
# The state of tree construction

Elements are opened, moved and closed while tokens arrive, so the tree under construction is a
heap of cells with links to parents and children.  The elements that are open form a stack, and
those that format text are remembered beyond their end, so that they can be opened again.
-/

namespace LiveTemplate.Markup

/-- What a cell of the tree holds. -/
inductive CellContent
  | element (name : ElementName) (attributes : List (String × String))
  | text (data : String)
  | comment (data : String)
  /-- The inside of a template, which is no part of the document. -/
  | fragment
deriving Repr, Inhabited

/-- A cell of the tree under construction. -/
structure Cell where
  content : CellContent
  parent : Option Nat := none
  children : List Nat := []
  /-- The inside of a template element. -/
  inside : Option Nat := none
deriving Repr, Inhabited

/-- Which rules the next token is under. -/
inductive Mode
  | inBody
  | text
  | inTable
  | inTableText
  | inCaption
  | inColumnGroup
  | inTableBody
  | inRow
  | inCell
  | inSelect
  | inSelectInTable
  | inTemplate
deriving DecidableEq, Repr, Inhabited

/-- An element that formats text, or a mark that separates the inside of a cell or object. -/
inductive FormatEntry
  | mark
  | element (cell : Nat) (tag : Tag)
deriving DecidableEq, Repr, Inhabited

/-- The state of tree construction.  Cell zero is the root. -/
structure Builder where
  cells : Array Cell
  /-- The open elements, innermost first. -/
  stack : List Nat
  /-- The formatting elements, latest first. -/
  formatting : List FormatEntry := []
  mode : Mode := .inBody
  /-- The mode to return to after text. -/
  returnMode : Mode := .inBody
  /-- The modes of the open templates, innermost first. -/
  templateModes : List Mode := []
  /-- Text between the parts of a table, latest character first. -/
  tableText : List Char := []
  /-- The open form. -/
  form : Option Nat := none
  /-- Content that may not stand in a table goes before it. -/
  fostering : Bool := false
  /-- A line feed at the front of the next token is no content. -/
  skipsLineFeed : Bool := false
  /-- How the next characters are read. -/
  textMode : TextMode := .markup
  /-- The name of the last start tag. -/
  lastStartTag : String := ""
deriving Inhabited

namespace Builder

/-- Before the first token: the root alone. -/
def start : Builder := { cells := #[{ content := .element (.html "html") [] }], stack := [0] }

/-- The content of a cell. -/
def content? (b : Builder) (id : Nat) : Option CellContent := b.cells[id]?.map Cell.content

/-- The name of an element. -/
def nameOf (b : Builder) (id : Nat) : ElementName :=
  match b.content? id with
  | some (.element name _) => name
  | _ => .html ""

/-- Whether a cell is the ordinary element of a name. -/
def isNamed (b : Builder) (id : Nat) (name : String) : Bool := b.nameOf id == .html name

/-- The children of a cell. -/
def childrenOf (b : Builder) (id : Nat) : List Nat := (b.cells[id]?.map Cell.children).getD []

/-- The parent of a cell. -/
def parentOf (b : Builder) (id : Nat) : Option Nat := b.cells[id]?.bind Cell.parent

/-- Change a cell. -/
def modifyCell (b : Builder) (id : Nat) (f : Cell → Cell) : Builder :=
  { b with cells := b.cells.modify id f }

/-- Add a cell without parent. -/
def alloc (b : Builder) (cell : Cell) : Builder × Nat :=
  ({ b with cells := b.cells.push cell }, b.cells.size)

/-- Add an element without parent.  A template gets an inside of its own. -/
def allocElement (b : Builder) (name : ElementName) (attributes : List (String × String)) :
    Builder × Nat :=
  if name = .html "template" then
    let (b, inside) := b.alloc { content := .fragment }
    b.alloc { content := .element name attributes, inside := some inside }
  else b.alloc { content := .element name attributes }

/-- Take a cell from its parent. -/
def detach (b : Builder) (id : Nat) : Builder :=
  match b.parentOf id with
  | none => b
  | some parent =>
    (b.modifyCell parent fun cell => { cell with children := cell.children.filter (· != id) })
      |>.modifyCell id fun cell => { cell with parent := none }

/-- Put a cell at the end of a parent. -/
def append (b : Builder) (parent id : Nat) : Builder :=
  ((b.detach id).modifyCell parent fun cell => { cell with children := cell.children ++ [id] })
    |>.modifyCell id fun cell => { cell with parent := some parent }

/-- Put an item before another one in a list. -/
def insertBefore (sibling id : Nat) : List Nat → List Nat
  | [] => [id]
  | child :: rest => if child = sibling then id :: child :: rest
    else child :: insertBefore sibling id rest

/-- Put a cell before a sibling that has a parent. -/
def insertSibling (b : Builder) (parent sibling id : Nat) : Builder :=
  ((b.detach id).modifyCell parent fun cell =>
      { cell with children := insertBefore sibling id cell.children })
    |>.modifyCell id fun cell => { cell with parent := some parent }

/-- Move the children of a cell to the end of another one. -/
def moveChildren (b : Builder) (source target : Nat) : Builder :=
  (b.childrenOf source).foldl (fun b child => b.append target child) b

/-- Add a text to a text cell. -/
def extendText (b : Builder) (id : Nat) (text : String) : Builder :=
  b.modifyCell id fun cell =>
    match cell.content with
    | .text data => { cell with content := .text (data ++ text) }
    | _ => cell

/-- Whether a cell is a text. -/
def isText (b : Builder) (id : Nat) : Bool :=
  match b.content? id with
  | some (.text _) => true
  | _ => false

/-- Put a text at the end of a parent, joined to a text that is there. -/
def appendText (b : Builder) (parent : Nat) (text : String) : Builder :=
  match (b.childrenOf parent).getLast? with
  | some last =>
    if b.isText last then b.extendText last text
    else
      let (b, id) := b.alloc { content := .text text }
      b.append parent id
  | none =>
    let (b, id) := b.alloc { content := .text text }
    b.append parent id

/-- The item before another one in a list. -/
def itemBefore? (sibling : Nat) : List Nat → Option Nat
  | a :: b :: rest => if b = sibling then some a else itemBefore? sibling (b :: rest)
  | _ => none

/-- Put a text before a sibling that has a parent, joined to a text that is there. -/
def insertTextSibling (b : Builder) (parent sibling : Nat) (text : String) : Builder :=
  let insertNew (b : Builder) : Builder :=
    let (b, id) := b.alloc { content := .text text }
    b.insertSibling parent sibling id
  match itemBefore? sibling (b.childrenOf parent) with
  | some before => if b.isText before then b.extendText before text else insertNew b
  | none => insertNew b

/-! ## The stack of open elements -/

/-- The innermost open element. -/
def current (b : Builder) : Nat := b.stack.headD 0

/-- The name of the innermost open element. -/
def currentName (b : Builder) : ElementName := b.nameOf b.current

/-- Whether the innermost open element is an ordinary one of a name. -/
def currentIs (b : Builder) (name : String) : Bool := b.isNamed b.current name

/-- Close the innermost open element. -/
def pop (b : Builder) : Builder := { b with stack := b.stack.drop 1 }

/-- Open an element. -/
def push (b : Builder) (id : Nat) : Builder := { b with stack := id :: b.stack }

/-- Close elements up to and including the first one that satisfies a predicate. -/
def popThrough (b : Builder) (p : ElementName → Bool) : Builder :=
  { b with stack := (b.stack.dropWhile fun id => !p (b.nameOf id)).drop 1 }

/-- Close elements up to and including the first one of a name. -/
def popThroughNamed (b : Builder) (name : String) : Builder := b.popThrough (· == .html name)

/-- Close elements up to the first one that satisfies a predicate. -/
def popTo (b : Builder) (p : ElementName → Bool) : Builder :=
  { b with stack := b.stack.dropWhile fun id => !p (b.nameOf id) }

/-- Whether an open element satisfies a predicate before one that bounds the scope. -/
def inScope (b : Builder) (bounds : ElementName → Bool) (p : Nat → Bool) : Bool :=
  search b.stack
where
  /-- Look from the innermost element outwards. -/
  search : List Nat → Bool
    | [] => false
    | id :: rest => p id || (!bounds (b.nameOf id) && search rest)

/-- Whether an element of a name is in scope. -/
def hasInScope (b : Builder) (bounds : ElementName → Bool) (name : String) : Bool :=
  b.inScope bounds fun id => b.isNamed id name

/-- Close elements whose end is implied. -/
def closeImplied (b : Builder) (implied : ElementName → Bool) : Builder :=
  { b with stack := b.stack.dropWhile fun id => implied (b.nameOf id) }

/-- Close elements whose end tag may be left out, except those of a name. -/
def closeImpliedExcept (b : Builder) (name : String) : Builder :=
  b.closeImplied fun element => element.hasImpliedEnd && element.name != name

/-- Close a paragraph and what is left open in it. -/
def closeParagraph (b : Builder) : Builder := (b.closeImpliedExcept "p").popThroughNamed "p"

/-- Close a paragraph if one is in scope. -/
def closeParagraphInScope (b : Builder) : Builder :=
  if b.hasInScope ElementName.boundsButtonScope "p" then b.closeParagraph else b

/-- Whether a template is open. -/
def inTemplate (b : Builder) : Bool := b.stack.any fun id => b.isNamed id "template"

/-- The name that decides whether content is foreign; at the root it is that of the element the
markup is read for. -/
def adjustedCurrentName (b : Builder) : ElementName :=
  match b.stack with
  | [_] => .html "body"
  | _ => b.currentName

/-- Whether the innermost element is a foreign one. -/
def isForeign (b : Builder) : Bool := b.adjustedCurrentName.vocabulary != .html

/-! ## Where content goes -/

/-- A place in the tree. -/
inductive Place
  | lastOf (parent : Nat)
  | before (parent sibling : Nat)
deriving Repr

/-- The place for content under a target element.  A template takes content inside; content that
is fostered goes before the innermost table. -/
def placeFor (b : Builder) (target : Nat) : Place :=
  if b.fostering && (b.nameOf target).isTablePart then search b.stack
  else inside target
where
  /-- The place at the end of an element. -/
  inside (id : Nat) : Place :=
    .lastOf (((b.cells[id]?.bind Cell.inside)).getD id)
  /-- Look for the innermost table or template. -/
  search : List Nat → Place
    | [] => .lastOf 0
    | id :: rest =>
      if b.isNamed id "template" then inside id
      else if b.isNamed id "table" then
        match b.parentOf id with
        | some parent => .before parent id
        | none => .lastOf (rest.headD 0)
      else search rest

/-- Put a cell at a place. -/
def insertAt (b : Builder) (place : Place) (id : Nat) : Builder :=
  match place with
  | .lastOf parent => b.append parent id
  | .before parent sibling => b.insertSibling parent sibling id

/-- Put a text at the current place. -/
def insertText (b : Builder) (text : String) : Builder :=
  match b.placeFor b.current with
  | .lastOf parent => b.appendText parent text
  | .before parent sibling => b.insertTextSibling parent sibling text

/-- Put a comment at the current place. -/
def insertComment (b : Builder) (data : String) : Builder :=
  let (b, id) := b.alloc { content := .comment data }
  b.insertAt (b.placeFor b.current) id

/-- Add an element at the current place. -/
def addElement (b : Builder) (name : ElementName) (attributes : List (String × String)) :
    Builder × Nat :=
  let place := b.placeFor b.current
  let (b, id) := b.allocElement name attributes
  (b.insertAt place id, id)

/-- Add an element at the current place and open it. -/
def openElement (b : Builder) (name : ElementName) (attributes : List (String × String)) :
    Builder :=
  let (b, id) := b.addElement name attributes
  b.push id

/-- Add and open the element of a start tag. -/
def openTag (b : Builder) (tag : Tag) : Builder := b.openElement (.html tag.name) tag.attributes

/-- Add the element of a start tag, without content. -/
def addTag (b : Builder) (tag : Tag) : Builder :=
  (b.addElement (.html tag.name) tag.attributes).1

/-- Add and open an element that no tag names. -/
def openImplied (b : Builder) (name : String) : Builder := b.openElement (.html name) []

/-- Add and open the element of a start tag, whose content is text in the given mode. -/
def openTextElement (b : Builder) (tag : Tag) (textMode : TextMode) : Builder :=
  { b.openTag tag with mode := .text, returnMode := b.mode, textMode }

/-- The mode that the open elements call for. -/
def resetMode (b : Builder) : Builder := { b with mode := search b.stack }
where
  /-- Look from the innermost element outwards; the root stands for the element the markup is read
  for. -/
  search : List Nat → Mode
    | [] => .inBody
    | [_] => .inBody
    | id :: rest =>
      let name := b.nameOf id
      if name.isOneOf ["select"] then selectMode rest
      else if name.isCell then .inCell
      else if name.isOneOf ["tr"] then .inRow
      else if name.isOneOf ["tbody", "thead", "tfoot"] then .inTableBody
      else if name.isOneOf ["caption"] then .inCaption
      else if name.isOneOf ["colgroup"] then .inColumnGroup
      else if name.isOneOf ["table"] then .inTable
      else if name.isOneOf ["template"] then b.templateModes.headD .inTemplate
      else search rest
  /-- The mode of a selection list, by the elements around it. -/
  selectMode : List Nat → Mode
    | [] => .inSelect
    | id :: rest =>
      if b.isNamed id "template" then .inSelect
      else if b.isNamed id "table" then .inSelectInTable
      else selectMode rest

end Builder

end LiveTemplate.Markup
