import LiveTemplate.Dom.Basic
import LiveTemplate.Selector.Basic

/-!
# Queries

A node matches a selector if the subject accepts it and the other compounds, from the innermost
outwards, each accept some ancestor further out.  A query looks at the proper descendants of its
scope in document order; the scope counts as an ancestor and is never found itself.  One search
serves both queries: it shows each match to a visitor, and ends on all levels as soon as the visitor
has seen enough.
-/

namespace LiveTemplate

variable {ι : Type}

/-- Whether an element fits a compound: the tag in any ASCII case, the id exactly, and each class
among the words of the class attribute. -/
def Compound.accepts (compound : Compound) : Tree ι → Bool
  | .element _ tag attributes _ =>
    let acceptsTag := match compound.tag with
      | some wanted => wanted.toList.map Char.toLower == tag.toList.map Char.toLower
      | none => true
    let acceptsId := match compound.id with
      | some wanted => Table.find? attributes "id" == some wanted
      | none => true
    let words := Text.words ((Table.find? attributes "class").getD "").toList
    acceptsTag && acceptsId && compound.classes.all fun name => words.contains name.toList
  | _ => false

namespace Selector

/-- Whether compounds can be met one after another on a way outwards.  Each is met at the first
node that it accepts. -/
def metAlong : List Compound → List (Tree ι) → Bool
  | [], _ => true
  | _ :: _, [] => false
  | compound :: others, node :: path =>
    if compound.accepts node then metAlong others path else metAlong (compound :: others) path

/-- Whether a node matches, given the way from its parent outwards. -/
def acceptsOn (selector : Selector) (node : Tree ι) (path : List (Tree ι)) : Bool :=
  match selector.compounds.reverse with
  | [] => false
  | subject :: others => subject.accepts node && metAlong others path

/-- Whether a node matches, given its ancestors, outermost first. -/
def accepts (selector : Selector) (node : Tree ι) (ancestors : List (Tree ι)) : Bool :=
  selector.acceptsOn node ancestors.reverse

end Selector

/-- What a search carries with it. -/
structure Search (α : Type) where
  /-- The nodes from the scope down to the one whose children are looked at. -/
  ancestors : List NodeId := []
  /-- What the visitor has gathered. -/
  gathered : α

namespace Search

variable {α : Type}

/-- Go down into a node. -/
def enter (search : Search α) (node : NodeId) : Search α :=
  { search with ancestors := search.ancestors ++ [node] }

/-- Come back up. -/
def leave (search : Search α) : Search α :=
  { search with ancestors := search.ancestors.dropLast }

/-- Show a node to the visitor, which says whether to go on. -/
def visit (search : Search α) (visitor : NodeId → α → α × Bool) (node : NodeId) :
    Search α × Bool :=
  ({ search with gathered := (visitor node search.gathered).1 }, (visitor node search.gathered).2)

end Search

namespace Dom

variable {α : Type}

/-- A node as a compound looks at it, without what is below it. -/
def head (dom : Dom) (node : NodeId) : Tree NodeId :=
  match dom.cell? node with
  | some (.element tag attributes _) => .element node tag attributes []
  | some (.text data) => .text node data
  | some (.comment data) => .comment node data
  | _ => .document node []

/-- Whether a node matches, given its ancestors, outermost first. -/
def isMatch (dom : Dom) (selector : Selector) (node : NodeId) (ancestors : List NodeId) : Bool :=
  selector.accepts (dom.head node) (ancestors.map dom.head)

/-- Search children of the node that the search is in, and what is below them.  It leaves the node
when the children are done, and also when the visitor ends it at a child or further below. -/
def searchEach (dom : Dom) (selector : Selector) (visitor : NodeId → α → α × Bool)
    (below : NodeId → Search α → Option (Search α × Bool)) :
    List NodeId → Search α → Option (Search α × Bool)
  | [], search => some (search.leave, true)
  | child :: rest, search =>
    let shown :=
      if dom.isMatch selector child search.ancestors then search.visit visitor child
      else (search, true)
    if shown.2 then
      (below child shown.1).bind fun outcome =>
        if outcome.2 then searchEach dom selector visitor below rest outcome.1
        else some (outcome.1.leave, false)
    else some (shown.1.leave, false)

/-- Search below a node, in document order, on at most `depth` levels; without outcome if there are
more.  The truth value says whether the visitor would have gone on. -/
def searchWithin? (dom : Dom) (selector : Selector) (visitor : NodeId → α → α × Bool) :
    Nat → NodeId → Search α → Option (Search α × Bool)
  | 0, _, _ => none
  | depth + 1, node, search =>
    dom.searchEach selector visitor (dom.searchWithin? selector visitor depth)
      (dom.childrenOf node) (search.enter node)

/-- The matching descendants of a node, in document order.  A branch longer than the number of nodes
would pass some node twice, so the search ends unless a node is its own descendant. -/
def allMatches? (dom : Dom) (scope : NodeId) (selector : Selector) : Option (List NodeId) :=
  (dom.searchWithin? selector (fun node found => (found ++ [node], true)) dom.cells.size scope
    { gathered := [] }).map fun outcome => outcome.1.gathered

/-- The first matching descendant of a node, if there is one.  The search may also end inside of a
cycle.  A branch that goes round a cycle meets one more compound each time, or no more of them, so a
match on it is found after as many rounds as there are compounds. -/
def firstMatch? (dom : Dom) (scope : NodeId) (selector : Selector) : Option (Option NodeId) :=
  (dom.searchWithin? selector (fun node _ => (some node, false))
    (dom.cells.size * (selector.compounds.length + 1)) scope
    { gathered := none }).map fun outcome => outcome.1.gathered

/-- The matching descendants of a node, in document order; none where the search does not end. -/
def queryAll (dom : Dom) (scope : NodeId) (selector : Selector) : List NodeId :=
  (dom.allMatches? scope selector).getD []

/-- The first matching descendant of a node; none where the search does not end. -/
def query? (dom : Dom) (scope : NodeId) (selector : Selector) : Option NodeId :=
  (dom.firstMatch? scope selector).getD none

/-- What a text as a selector finds in a document, in document order. -/
def querySelectorAll (dom : Dom) (document : NodeId) (text : String) :
    Except SelectorError (List NodeId) :=
  (Selector.ofText text).map (dom.queryAll document)

/-- What a text as a selector finds first in a document. -/
def querySelector (dom : Dom) (document : NodeId) (text : String) :
    Except SelectorError (Option NodeId) :=
  (Selector.ofText text).map (dom.query? document)

end Dom

end LiveTemplate
