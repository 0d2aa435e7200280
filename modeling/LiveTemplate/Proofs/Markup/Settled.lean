import LiveTemplate.Markup.Builder.Rules
import LiveTemplate.Proofs.Markup.Bare
import LiveTemplate.Proofs.Markup.Scanning

/-!
# Trees that markup gives back

Tree construction moves, closes and leaves out what stands in the wrong place.  A tree is settled
where nothing of the kind happens to it: every start tag only opens its element, below the elements
that are open there.  Whether that is so depends on the names of these elements alone, its path.
-/

namespace LiveTemplate

namespace Markup

/-! ## Open elements -/

/-- Whether an element satisfies a predicate before one that bounds the scope, from the innermost
outwards. -/
def scopeHas (bounds p : ElementName → Bool) : List ElementName → Bool
  | [] => false
  | element :: outer => p element || (!bounds element && scopeHas bounds p outer)

/-- Whether an element of a name is in scope. -/
def scopeHasNamed (bounds : ElementName → Bool) (name : String) (path : List ElementName) : Bool :=
  scopeHas bounds (· == .html name) path

/-- Whether a new list item or definition would end one that is open. -/
def itemIsOpen (names : List String) : List ElementName → Bool
  | [] => false
  | element :: outer =>
    element.isOneOf names ||
      (!(element.isSpecial && !element.isOneOf ["address", "div", "p"]) && itemIsOpen names outer)

/-- Elements whose inside is apart from the formatting around it. -/
def ElementName.setsMark (element : ElementName) : Bool :=
  element.isOneOf ["applet", "marquee", "object", "td", "th", "caption"]

/-- Whether a link is open that a new one would close. -/
def linkIsOpen (path : List ElementName) : Bool :=
  (path.takeWhile fun element => !element.setsMark).contains (.html "a")

/-- The mode inside open elements. -/
def modeAt : List ElementName → Mode
  | [] => .inBody
  | [_] => .inBody
  | element :: outer =>
    if element.isOneOf ["select"] then selectMode outer
    else if element.isCell then .inCell
    else if element.isOneOf ["tr"] then .inRow
    else if element.isOneOf ["tbody", "thead", "tfoot"] then .inTableBody
    else if element.isOneOf ["caption"] then .inCaption
    else if element.isOneOf ["colgroup"] then .inColumnGroup
    else if element.isOneOf ["table"] then .inTable
    else modeAt outer
where
  /-- The mode of a selection list, by the elements around it. -/
  selectMode : List ElementName → Mode
    | [] => .inSelect
    | element :: outer =>
      if element == .html "template" then .inSelect
      else if element == .html "table" then .inSelectInTable
      else selectMode outer

/-- The element whose content is read; at the root it is the body. -/
def hostAt : List ElementName → ElementName
  | [] => .html ""
  | [_] => .html "body"
  | element :: _ => element

/-! ## Start tags -/

/-- Start tags that end a paragraph. -/
def endsParagraph (name : String) : Bool :=
  Builder.isBlock name || (ElementName.html name).isHeading ||
    ["pre", "listing", "form", "li", "dd", "dt", "table", "hr", "xmp"].contains name

/-- Whether a start tag in ordinary content would close an open element, or be ignored, or give an
element of another name. -/
def disturbsBody (path : List ElementName) (name : String) : Bool :=
  Builder.isMisplaced name || name == "plaintext" || name == "image" ||
  (endsParagraph name && scopeHasNamed ElementName.boundsButtonScope "p" path) ||
  ((ElementName.html name).isHeading && (hostAt path).isHeading) ||
  (name == "form" && path.contains (.html "form")) ||
  (name == "li" && itemIsOpen ["li"] path) ||
  ((name == "dd" || name == "dt") && itemIsOpen ["dd", "dt"] path) ||
  (name == "a" && linkIsOpen path) ||
  ((name == "button" || name == "nobr") &&
    scopeHasNamed ElementName.boundsScope name path) ||
  ((name == "option" || name == "optgroup") && hostAt path == .html "option") ||
  ((name == "rb" || name == "rtc") && scopeHasNamed ElementName.boundsScope "ruby" path &&
    (hostAt path).hasImpliedEnd) ||
  ((name == "rp" || name == "rt") && scopeHasNamed ElementName.boundsScope "ruby" path &&
    (hostAt path).hasImpliedEnd && (hostAt path).name != "rtc")

/-- Whether a start tag only opens its element, in ordinary markup. -/
def opensOrdinary (path : List ElementName) (tag : Tag) : Bool :=
  let host := hostAt path
  let inTable := ["script", "style", "template"].contains tag.name ||
    (tag.name == "input" && Builder.isHiddenInput tag)
  match modeAt path with
  | .inBody | .inCell | .inCaption => !disturbsBody path tag.name
  | .inTable =>
    host.isOneOf ["table"] &&
      (["caption", "colgroup", "tbody", "tfoot", "thead"].contains tag.name || inTable)
  | .inTableBody => host.isOneOf ["tbody", "tfoot", "thead"] && (tag.name == "tr" || inTable)
  | .inRow => host.isOneOf ["tr"] && (["td", "th"].contains tag.name || inTable)
  | .inColumnGroup => host.isOneOf ["colgroup"] && ["col", "template"].contains tag.name
  | .inSelect | .inSelectInTable =>
    ["script", "template"].contains tag.name ||
      (host != .html "option" &&
        (tag.name == "option" ||
          (["optgroup", "hr"].contains tag.name && host != .html "optgroup")))
  | _ => false

/-- Whether a start tag is one of foreign content. -/
def opensForeign (path : List ElementName) (name : String) : Bool :=
  let host := hostAt path
  host.vocabulary != .html && !(host.isGraphicsHost
    || (host.isFormulaText && name != "mglyph" && name != "malignmark")
    || (host == ⟨.math, "annotation-xml"⟩ && name == "svg"))

/-- The element that a start tag gives. -/
def elementAt (path : List ElementName) (name : String) : ElementName :=
  if opensForeign path name then
    let vocabulary := (hostAt path).vocabulary
    ⟨vocabulary, if vocabulary = .svg then restoreCase graphicsNames name else name⟩
  else if name == "svg" then ⟨.svg, name⟩
  else if name == "math" then ⟨.math, name⟩
  else .html name

/-- Whether a start tag only opens its element. -/
def opens (path : List ElementName) (tag : Tag) : Bool :=
  if opensForeign path tag.name then !breaksOut tag else opensOrdinary path tag

/-- The attributes of an element, by those of its start tag. -/
def attributesAt (element : ElementName) (attributes : List (String × String)) :
    List (String × String) :=
  if element.vocabulary = .html then attributes
  else adjustAttributes element.vocabulary attributes

/-- What an element can hold. -/
inductive Inside
  | nothing
  | references
  | characters
  | nodes
deriving DecidableEq, Repr

/-- Elements without content; what a template holds is no part of the tree. -/
def emptyNames : List String :=
  ["area", "base", "basefont", "bgsound", "br", "col", "embed", "hr", "img", "input", "keygen",
   "link", "meta", "param", "source", "template", "track", "wbr"]

/-- Elements that hold one text with references. -/
def referenceNames : List String := ["textarea", "title"]

/-- Elements that hold one text, in which ampersands and brackets stand for themselves. -/
def characterNames : List String :=
  ["iframe", "noembed", "noframes", "noscript", "script", "style", "xmp"]

/-- What an element can hold, by its name. -/
def insideOf (element : ElementName) : Inside :=
  if element.isOneOf emptyNames then .nothing
  else if element.isOneOf referenceNames then .references
  else if element.isOneOf characterNames then .characters
  else .nodes

/-- Whether a text stays where it is: between the parts of a table only white space does. -/
def holdsText (path : List ElementName) (data : String) : Bool :=
  match modeAt path with
  | .inTable | .inTableBody | .inRow => (hostAt path).isTablePart && data.toList.all isSpace
  | .inColumnGroup => (hostAt path).isOneOf ["colgroup"] && data.toList.all isSpace
  | _ => true

/-- Whether an end tag would close a foreign element. -/
def endsForeign (path : List ElementName) (name : String) : Bool :=
  (path.takeWhile fun element => element.vocabulary != .html).any
    fun element => lower element.name.toList == name

end Markup

namespace Tree

open Markup

variable {ι : Type}

/-- A text that starts with a given character. -/
def startsWith (c : Char) : Tree ι → Bool
  | text _ data => data.toList.head? == some c
  | _ => false

/-- Whether two nodes can be neighbours: texts would become one, and a byte order mark behind a
script is dropped. -/
def canPrecede : Tree ι → Tree ι → Bool
  | text _ _, text _ _ => false
  | element _ "script" _ _, text _ data => data.toList.head? != some '\ufeff'
  | _, _ => true

/-- No character is read as another one. -/
def isKept (data : String) : Bool := !data.toList.contains '\r' && !data.toList.contains '\x00'

/-- No character is written as a reference. -/
def isUnescaped (data : String) : Bool := data.toList.all fun c => (Text.reference? c).isNone

/-- A node that stays as it is when its markup is read below the given elements. -/
def settled (path : List ElementName) : Tree ι → Bool
  | element _ tag attributes children =>
    let start := readTag tag attributes
    let element := elementAt path start.name
    opens path start && element.name == tag &&
    attributesAt element start.attributes == attributes &&
    attributes.all (fun entry => isKept entry.2) &&
    match insideOf element with
    | .nothing =>
      children.isEmpty && (isVoidTag tag || tag == "template" || !endsForeign path tag)
    | .characters =>
      children.length ≤ 1 && children.all fun child =>
        match child with
        | text _ data => data != "" && isKept data && isUnescaped data
        | _ => false
    | .references =>
      children.length ≤ 1 && children.all fun child =>
        match child with
        | text _ data =>
          data != "" && isKept data && !(tag == "textarea" && child.startsWith '\n')
        | _ => false
    | .nodes =>
      !isVoidTag tag &&
      !(element.isOneOf ["pre", "listing"] && children.head?.any (startsWith '\n')) &&
      settledForest (element :: path) children
  | text _ data => data != "" && isKept data && holdsText path data
  | comment _ data => isKept data
  | document _ _ => false
where
  /-- Several nodes that stay as they are. -/
  settledForest (path : List ElementName) : List (Tree ι) → Bool
    | [] => true
    | tree :: rest =>
      tree.settled path && rest.head?.all tree.canPrecede && settledForest path rest

/-- Trees that stay as they are when their markup is read as the content of a body; a byte order
mark at the front of a text is no content. -/
def settledContent (trees : List (Tree ι)) : Bool :=
  settled.settledForest [.html "html"] trees &&
    (outerChars.forestChars trees).head? != some '\ufeff'

/-- Names and comments that are read as they are written. -/
def Spelled : Tree ι → Prop
  | element _ tag attributes children =>
    SpelledTag tag ∧ (∀ entry ∈ attributes, SpelledName entry.1) ∧
      (attributes.map Prod.fst).Nodup ∧ spelledForest children
  | text _ _ => True
  | comment _ data => SpelledComment data
  | document _ _ => True
where
  /-- Several nodes whose names and comments are read as they are written. -/
  spelledForest : List (Tree ι) → Prop
    | [] => True
    | tree :: rest => tree.Spelled ∧ spelledForest rest

end Tree

end LiveTemplate
