import LiveTemplate.Markup.Parser
import LiveTemplate.Markup.Serializer
import LiveTemplate.Text.Quoted

/-!
# Nodes

A node is a cell of a heap, named by its place in it, and everything that names a node sees the
same content.  Nodes are never removed from the heap, so a binding can go on changing its node
after the node has left the tree.  Only elements have attributes; only elements and documents have
children.
-/

namespace LiveTemplate

/-- The name of a node. -/
abbrev NodeId := Nat

/-- The content of a node. -/
inductive NodeCell
  | element (tag : String) (attributes : Table String) (children : List NodeId)
  | text (data : String)
  | comment (data : String)
  | document (children : List NodeId)
deriving DecidableEq, Repr, Inhabited

namespace NodeCell

/-- The children of a node, none for a leaf. -/
def children : NodeCell → List NodeId
  | element _ _ children => children
  | document children => children
  | _ => []

/-- The attributes of a node, none unless it is an element. -/
def attributes : NodeCell → Table String
  | element _ attributes _ => attributes
  | _ => []

/-- The same node with other children; a leaf stays as it is. -/
def withChildren (cell : NodeCell) (children : List NodeId) : NodeCell :=
  match cell with
  | element tag attributes _ => element tag attributes children
  | document _ => document children
  | leaf => leaf

/-- The same node with other attributes; only an element changes. -/
def withAttributes (cell : NodeCell) (attributes : Table String) : NodeCell :=
  match cell with
  | element tag _ children => element tag attributes children
  | other => other

/-- Set an attribute. -/
def setAttribute (cell : NodeCell) (name value : String) : NodeCell :=
  cell.withAttributes (Table.insert cell.attributes name value)

/-- The value of an attribute. -/
def attribute? (cell : NodeCell) (name : String) : Option String :=
  Table.find? cell.attributes name

/-- Remove an attribute. -/
def removeAttribute (cell : NodeCell) (name : String) : NodeCell :=
  cell.withAttributes (Table.erase cell.attributes name)

/-- Remove an attribute and give the value that it had. -/
def takeAttribute (cell : NodeCell) (name : String) : Option String × NodeCell :=
  let (value, others) := Table.pop cell.attributes name
  (value, cell.withAttributes others)

/-- The tag of an element. -/
def tag? : NodeCell → Option String
  | element tag _ _ => some tag
  | _ => none

/-- The word for the type of a node. -/
def kind : NodeCell → String
  | element _ _ _ => "element"
  | text _ => "text"
  | comment _ => "comment"
  | document _ => "document"

/-- Whether the node can have children. -/
def isContainer : NodeCell → Bool
  | element _ _ _ => true
  | document _ => true
  | _ => false

/-- A node in inspection output, without what is below it. -/
def inspect : NodeCell → String
  | element tag attributes _ =>
    "Element \x7b tag: " ++ Text.quoted tag ++ ", attributes: ["
      ++ ", ".intercalate (attributes.map fun (name, value) =>
        "Attribute \x7b name: " ++ Text.quoted name ++ ", value: " ++ Text.quoted value ++ " \x7d")
      ++ "], .. \x7d"
  | text data => "Text(" ++ Text.quoted data ++ ")"
  | comment data => "Comment(" ++ Text.quoted data ++ ")"
  | document children => "Document \x7b children: " ++ toString children.length ++ " \x7d"

end NodeCell

/-- The heap of nodes. -/
structure Dom where
  cells : Array NodeCell := #[]
deriving Inhabited

namespace Dom

/-- The content of a node. -/
def cell? (dom : Dom) (node : NodeId) : Option NodeCell := dom.cells[node]?

/-- Change the content of a node. -/
def modify (dom : Dom) (node : NodeId) (f : NodeCell → NodeCell) : Dom :=
  { dom with cells := dom.cells.modify node f }

/-- Add a node. -/
def alloc (dom : Dom) (cell : NodeCell) : Dom × NodeId :=
  ({ dom with cells := dom.cells.push cell }, dom.cells.size)

/-- The children of a node. -/
def childrenOf (dom : Dom) (node : NodeId) : List NodeId :=
  ((dom.cell? node).map NodeCell.children).getD []

/-- The attributes of a node. -/
def attributesOf (dom : Dom) (node : NodeId) : Table String :=
  ((dom.cell? node).map NodeCell.attributes).getD []

/-- The value of an attribute. -/
def attribute? (dom : Dom) (node : NodeId) (name : String) : Option String :=
  (dom.cell? node).bind fun cell => cell.attribute? name

/-- Set an attribute; only an element changes. -/
def setAttribute (dom : Dom) (node : NodeId) (name value : String) : Dom :=
  dom.modify node fun cell => cell.setAttribute name value

/-- Remove an attribute; only an element changes. -/
def removeAttribute (dom : Dom) (node : NodeId) (name : String) : Dom :=
  dom.modify node fun cell => cell.removeAttribute name

/-- Remove an attribute and give the value that it had; only an element changes. -/
def takeAttribute (dom : Dom) (node : NodeId) (name : String) : Option String × Dom :=
  match dom.cell? node with
  | some cell =>
    let (value, changed) := cell.takeAttribute name
    (value, dom.modify node fun _ => changed)
  | none => (none, dom)

/-- Append a child; a leaf stays as it is. -/
def append (dom : Dom) (parent child : NodeId) : Dom :=
  dom.modify parent fun cell => cell.withChildren (cell.children ++ [child])

/-- Replace the text of a node: the data of a leaf, or the children of a container, which become
one text, or none if the text is empty. -/
def setText (dom : Dom) (node : NodeId) (text : String) : Dom :=
  match dom.cell? node with
  | some (.text _) => dom.modify node fun _ => .text text
  | some (.comment _) => dom.modify node fun _ => .comment text
  | some _ =>
    if text.isEmpty then dom.modify node fun cell => cell.withChildren []
    else
      let (dom, child) := dom.alloc (.text text)
      dom.modify node fun cell => cell.withChildren [child]
  | none => dom

mutual

/-- Add the nodes of a tree; its root is the last one added. -/
def addTree {ι : Type} (dom : Dom) : Tree ι → Dom × NodeId
  | .element _ tag attributes children =>
    let (dom, nodes) := dom.addForest children
    dom.alloc (.element tag attributes nodes)
  | .text _ data => dom.alloc (.text data)
  | .comment _ data => dom.alloc (.comment data)
  | .document _ children =>
    let (dom, nodes) := dom.addForest children
    dom.alloc (.document nodes)

/-- Add the nodes of several trees. -/
def addForest {ι : Type} (dom : Dom) : List (Tree ι) → Dom × List NodeId
  | [] => (dom, [])
  | tree :: rest =>
    let (dom, node) := dom.addTree tree
    let (dom, nodes) := dom.addForest rest
    (dom, node :: nodes)

end

/-- Replace the children of a container by the nodes that a markup text gives; a leaf stays as it
is. -/
def setMarkup (dom : Dom) (node : NodeId) (markup : String) : Dom :=
  match dom.cell? node with
  | some cell =>
    if cell.isContainer then
      let (dom, children) := dom.addForest (Markup.parseMarkup markup)
      dom.modify node fun cell => cell.withChildren children
    else dom
  | none => dom

/-- The tree below a node, if no branch is longer than `depth` nodes. -/
def treeWithin? (dom : Dom) : Nat → NodeId → Option (Tree NodeId)
  | 0, _ => none
  | depth + 1, node =>
    match dom.cell? node with
    | some (.element tag attributes children) =>
      (children.mapM (treeWithin? dom depth)).map fun trees => .element node tag attributes trees
    | some (.text data) => some (.text node data)
    | some (.comment data) => some (.comment node data)
    | some (.document children) =>
      (children.mapM (treeWithin? dom depth)).map fun trees => .document node trees
    | none => none

/-- The tree below a node.  A branch longer than the number of nodes would pass some node twice,
so there is a tree unless a node is its own descendant. -/
def tree? (dom : Dom) (node : NodeId) : Option (Tree NodeId) := dom.treeWithin? dom.cells.size node

/-- The text content of a node. -/
def textContent? (dom : Dom) (node : NodeId) : Option String :=
  (dom.tree? node).map Tree.textContent

/-- The characters of a node with its own tag, if no branch that is written is longer than `depth`
nodes.  Nothing below an element without end tag is written, so nobody looks there. -/
def outerWithin? (dom : Dom) : Nat → NodeId → Option (List Char)
  | 0, _ => none
  | depth + 1, node =>
    match dom.cell? node with
    | some (.element tag attributes children) =>
      if Tree.isVoidTag tag then some (Tree.startTagChars tag attributes)
      else (children.mapM (outerWithin? dom depth)).map fun inner =>
        Tree.startTagChars tag attributes ++ inner.flatten ++ Tree.endTagChars tag
    | some (.text data) => some (Tree.outerChars (.text node data))
    | some (.comment data) => some (Tree.outerChars (.comment node data))
    | some (.document children) => (children.mapM (outerWithin? dom depth)).map List.flatten
    | none => none

/-- The markup of a node with its own tag. -/
def outerMarkup? (dom : Dom) (node : NodeId) : Option String :=
  (dom.outerWithin? dom.cells.size node).map String.ofList

/-- The markup of the children of a node, be it an element without end tag or not. -/
def innerMarkup? (dom : Dom) (node : NodeId) : Option String :=
  (dom.cell? node).bind fun cell =>
    (cell.children.mapM (dom.outerWithin? dom.cells.size)).map fun inner =>
      String.ofList inner.flatten

/-- The name of a node by its type: the upper-case tag, or a word for the type. -/
def nodeName (dom : Dom) (node : NodeId) : String :=
  match dom.cell? node with
  | some (.element tag _ _) => String.ofList (tag.toList.map Char.toUpper)
  | some (.text _) => "#text"
  | some (.comment _) => "#comment"
  | some (.document _) => "#document"
  | none => ""

/-- The word for the type of a node. -/
def kind (dom : Dom) (node : NodeId) : String := ((dom.cell? node).map NodeCell.kind).getD ""

/-- The tag of an element. -/
def tag? (dom : Dom) (node : NodeId) : Option String := (dom.cell? node).bind NodeCell.tag?

/-- A node in inspection output. -/
def inspect? (dom : Dom) (node : NodeId) : Option String := (dom.cell? node).map NodeCell.inspect

/-- A whole document, given by its root, in inspection output. -/
def inspectDocument? (dom : Dom) (root : NodeId) : Option String :=
  (dom.inspect? root).map fun text => "Document \x7b root: " ++ text ++ " \x7d"

end Dom

end LiveTemplate
