import LiveTemplate.Markup.Builder.State

/-!
# Formatting elements

An element such as `b` formats text beyond a misplaced end of the elements around it: it is opened
again where text follows, and its own end tag may split the elements that were opened inside it.
-/

namespace LiveTemplate.Markup.Builder

/-- The entries since the last mark, latest first. -/
def recentFormatting : List FormatEntry → List (Nat × Tag)
  | .element cell tag :: rest => (cell, tag) :: recentFormatting rest
  | _ => []

/-- Whether an entry is that of a cell. -/
def isEntryOf (cell : Nat) : FormatEntry → Bool
  | .element id _ => id == cell
  | .mark => false

/-- Whether a cell is among the formatting elements. -/
def isFormatting (b : Builder) (cell : Nat) : Bool := b.formatting.any (isEntryOf cell)

/-- Forget a formatting element. -/
def forget (b : Builder) (cell : Nat) : Builder :=
  { b with formatting := b.formatting.filter fun entry => !isEntryOf cell entry }

/-- Close an element wherever it is in the stack. -/
def removeFromStack (b : Builder) (cell : Nat) : Builder :=
  { b with stack := b.stack.filter (· != cell) }

/-- Remember a mark. -/
def pushMark (b : Builder) : Builder := { b with formatting := .mark :: b.formatting }

/-- Forget the formatting elements up to and including the last mark. -/
def clearToMark (b : Builder) : Builder :=
  { b with formatting := (b.formatting.dropWhile (· != .mark)).drop 1 }

/-- Whether two lists hold the same attributes in any order. -/
def sameAttributes (xs ys : List (String × String)) : Bool :=
  xs.length == ys.length && xs.all ys.contains

/-- Whether two start tags are alike but for the order of attributes. -/
def sameTag (x y : Tag) : Bool := x.name == y.name && sameAttributes x.attributes y.attributes

/-- Add, open and remember a formatting element.  Of more than three alike ones the earliest is
forgotten. -/
def openFormatting (b : Builder) (tag : Tag) : Builder :=
  let alike := (recentFormatting b.formatting).filter fun entry => sameTag tag entry.2
  let b := match alike.getLast? with
    | some (earliest, _) => if 3 ≤ alike.length then b.forget earliest else b
    | none => b
  let (b, id) := b.addElement (.html tag.name) tag.attributes
  { b.push id with formatting := .element id tag :: b.formatting }

/-- Open again the given entries, earliest first; also the entries with their new elements, latest
first. -/
def reopenAll (b : Builder) (done : List FormatEntry) :
    List (Nat × Tag) → Builder × List FormatEntry
  | [] => (b, done)
  | (_, tag) :: rest =>
    let (b, id) := b.addElement (.html tag.name) tag.attributes
    reopenAll (b.push id) (.element id tag :: done) rest

/-- Open again the formatting elements that were closed since the last mark or open entry. -/
def reopenFormatting (b : Builder) : Builder :=
  let closed := (recentFormatting b.formatting).takeWhile fun entry => !b.stack.contains entry.1
  if closed.isEmpty then b
  else
    let kept := b.formatting.drop closed.length
    let (b, formatting) := b.reopenAll kept closed.reverse
    { b with formatting }

/-- The end tag of an element that is no formatting element: close up to the innermost open element
of the name, unless a special element comes first. -/
def closeNamed (b : Builder) (name : String) : Builder :=
  match search b.stack with
  | some below => { b with stack := below }
  | none => b
where
  /-- The stack below the innermost element of the name. -/
  search : List Nat → Option (List Nat)
    | [] => none
    | id :: rest =>
      if b.isNamed id name then some rest
      else if (b.nameOf id).isSpecial then none
      else search rest

/-- The state of moving the elements between a formatting element and the block inside it: the
builder, the elements that stay open (outermost first), the element that was moved last, and the
formatting element behind which the new one goes, if there is one. -/
structure Relocation where
  builder : Builder
  kept : List Nat := []
  moved : Nat
  bookmark : Option Nat := none

/-- Move one element between the formatting element and the block.  One that formats is replaced
by a copy around what was moved before, if it is among the three nearest to the block; any other
one is closed. -/
def relocate (state : Relocation) (item : Nat × Nat) : Relocation :=
  let (count, node) := item
  let b := state.builder
  let tag? := b.formatting.findSome? fun entry =>
    match entry with
    | .element id tag => if id == node then some tag else none
    | .mark => none
  match tag? with
  | none => state
  | some tag =>
    if 3 < count then { state with builder := b.forget node }
    else
      let (b, copy) := b.allocElement (.html tag.name) tag.attributes
      let b := { b with
        formatting := b.formatting.map fun entry =>
          if isEntryOf node entry then .element copy tag else entry }
      { builder := b.append copy state.moved
        kept := copy :: state.kept
        moved := copy
        bookmark := some (state.bookmark.getD copy) }

/-- Put an entry right behind that of a cell, in a list with the latest first. -/
def insertBehind (cell : Nat) (entry : FormatEntry) : List FormatEntry → List FormatEntry
  | [] => [entry]
  | e :: rest => if isEntryOf cell e then entry :: e :: rest else e :: insertBehind cell entry rest

/-- Split the elements around the end tag of a formatting element.  `inner` are the elements open
inside it, outermost first, and `below` those around it, innermost first. -/
def splitFormatting (b : Builder) (formatCell : Nat) (tag : Tag) (inner below : List Nat) :
    Builder :=
  let between := inner.takeWhile fun id => !(b.nameOf id).isSpecial
  match inner.dropWhile fun id => !(b.nameOf id).isSpecial with
  | [] => { b.forget formatCell with stack := below }
  | block :: deeper =>
    let numbered := (List.range' 1 between.length).zip between.reverse
    let state := numbered.foldl relocate { builder := b, moved := block }
    let b := state.builder
    let ancestor := below.headD 0
    let b := (b.detach state.moved)
    let b := b.insertAt (b.placeFor ancestor) state.moved
    let (b, copy) := b.allocElement (.html tag.name) tag.attributes
    let b := (b.moveChildren block copy).append block copy
    let entry := FormatEntry.element copy tag
    let formatting := match state.bookmark with
      | some previous =>
        (insertBehind previous entry b.formatting).filter fun e => !isEntryOf formatCell e
      | none => b.formatting.map fun e => if isEntryOf formatCell e then entry else e
    { b with
      formatting
      stack := deeper.reverse ++ (copy :: block :: state.kept.reverse) ++ below }

/-- One round of handling the end tag of a formatting element; `none` when nothing is left to
do. -/
def formattingRound (b : Builder) (name : String) : Builder × Bool :=
  match (recentFormatting b.formatting).find? fun entry => entry.2.name == name with
  | none => (b.closeNamed name, true)
  | some (cell, tag) =>
    if !b.stack.contains cell then (b.forget cell, true)
    else if !b.inScope ElementName.boundsScope (· == cell) then (b, true)
    else
      let inner := (b.stack.takeWhile (· != cell)).reverse
      let below := (b.stack.dropWhile (· != cell)).drop 1
      let isLast := inner.all fun id => !(b.nameOf id).isSpecial
      (b.splitFormatting cell tag inner below, isLast)

/-- Repeat rounds until nothing is left to do, at most so often. -/
def formattingRounds : Nat → Builder → String → Builder
  | 0, b, _ => b
  | rounds + 1, b, name =>
    match b.formattingRound name with
    | (b, true) => b
    | (b, false) => formattingRounds rounds b name

/-- The end tag of a formatting element. -/
def closeFormatting (b : Builder) (name : String) : Builder :=
  if b.currentIs name && !b.isFormatting b.current then b.pop
  else formattingRounds 8 b name

/-- A second link closes an open one. -/
def closeOpenLink (b : Builder) : Builder :=
  match (recentFormatting b.formatting).find? fun entry => b.isNamed entry.1 "a" with
  | none => b
  | some (cell, _) => ((b.closeFormatting "a").forget cell).removeFromStack cell

end LiveTemplate.Markup.Builder
