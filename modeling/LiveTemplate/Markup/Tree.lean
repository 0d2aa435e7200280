/-!
# Trees of nodes

The value of a node: elements, texts and comments, under a document or under an element.  Each
node carries a label, which tells nodes of equal content apart.
-/

namespace LiveTemplate

/-- The tree below a node, with a label at each node. -/
inductive Tree (ι : Type)
  | element (label : ι) (tag : String) (attributes : List (String × String))
      (children : List (Tree ι))
  | text (label : ι) (data : String)
  | comment (label : ι) (data : String)
  | document (label : ι) (children : List (Tree ι))
deriving Repr, Inhabited

namespace Tree

variable {ι : Type}

/-- The label of a node. -/
def label : Tree ι → ι
  | element label _ _ _ => label
  | text label _ => label
  | comment label _ => label
  | document label _ => label

/-- The children of a node. -/
def children : Tree ι → List (Tree ι)
  | element _ _ _ children => children
  | document _ children => children
  | _ => []

/-- The child positions that lead from a node to the first node with a label, in document order. -/
def pathTo? [DecidableEq ι] (wanted : ι) : Tree ι → Option (List Nat)
  | element label _ _ children =>
    if label = wanted then some [] else pathAmong? 0 children
  | document label children =>
    if label = wanted then some [] else pathAmong? 0 children
  | text label _ => if label = wanted then some [] else none
  | comment label _ => if label = wanted then some [] else none
where
  /-- The way into children, the first of which has the given position. -/
  pathAmong? (position : Nat) : List (Tree ι) → Option (List Nat)
    | [] => none
    | child :: rest =>
      match pathTo? wanted child with
      | some path => some (position :: path)
      | none => pathAmong? (position + 1) rest

end Tree

end LiveTemplate
