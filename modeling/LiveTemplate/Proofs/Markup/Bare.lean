import LiveTemplate.Markup.Serializer

/-!
# Trees without labels

Two nodes have the same content, down to the last leaf, if their trees are the same without the
labels.  What a tree is written as does not depend on labels.
-/

namespace LiveTemplate.Tree

variable {ι : Type}

/-- The same tree without labels. -/
def bare : Tree ι → Tree Unit
  | element _ tag attributes children => .element () tag attributes (bareForest children)
  | text _ data => .text () data
  | comment _ data => .comment () data
  | document _ children => .document () (bareForest children)
where
  /-- The same trees without labels. -/
  bareForest : List (Tree ι) → List (Tree Unit)
    | [] => []
    | tree :: rest => tree.bare :: bareForest rest

/-- Whether the node is a text. -/
def isText : Tree ι → Bool
  | text _ _ => true
  | _ => false

theorem outerChars_bare (tree : Tree ι) : tree.bare.outerChars = tree.outerChars := by
  refine bare.induct
    (fun trees : List (Tree ι) =>
      outerChars.forestChars (bare.bareForest trees) = outerChars.forestChars trees)
    (fun tree : Tree ι => tree.bare.outerChars = tree.outerChars)
    ?element ?text ?comment ?document ?nil ?cons tree
  case element =>
    intro label tag attributes children ih
    simp only [bare, outerChars, ih]
  case text => exact fun _ _ => rfl
  case comment => exact fun _ _ => rfl
  case document => exact fun label children ih => ih
  case nil => rfl
  case cons =>
    intro tree rest ih ihrest
    simp only [bare.bareForest, outerChars.forestChars, ih, ihrest]

end LiveTemplate.Tree
