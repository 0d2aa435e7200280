/-!
# Kinds of elements

The sets of element names that the construction of a tree from markup depends on.
-/

namespace LiveTemplate.Markup

/-- The vocabulary an element belongs to. -/
inductive Vocabulary
  | html
  | svg
  | math
deriving DecidableEq, Repr, Inhabited

/-- The name of an element in its vocabulary. -/
structure ElementName where
  vocabulary : Vocabulary
  name : String
deriving DecidableEq, Repr, Inhabited

namespace ElementName

/-- An ordinary element. -/
def html (name : String) : ElementName := ⟨.html, name⟩

/-- An ordinary element whose name is in a list. -/
def isOneOf (element : ElementName) (names : List String) : Bool :=
  element.vocabulary == .html && names.contains element.name

/-- Elements that take part in the layout of the tree; a stray end tag looks no further. -/
def isSpecial (element : ElementName) : Bool :=
  element.isOneOf
    ["address", "applet", "area", "article", "aside", "base", "basefont", "bgsound", "blockquote",
     "body", "br", "button", "caption", "center", "col", "colgroup", "dd", "details", "dir", "div",
     "dl", "dt", "embed", "fieldset", "figcaption", "figure", "footer", "form", "frame",
     "frameset", "h1", "h2", "h3", "h4", "h5", "h6", "head", "header", "hgroup", "hr", "html",
     "iframe", "img", "input", "isindex", "li", "link", "listing", "main", "marquee", "menu",
     "meta", "nav", "noembed", "noframes", "noscript", "object", "ol", "p", "param", "plaintext",
     "pre", "script", "section", "select", "source", "style", "summary", "table", "tbody", "td",
     "template", "textarea", "tfoot", "th", "thead", "title", "tr", "track", "ul", "wbr", "xmp"]

/-- Elements of formulas that hold text. -/
def isFormulaText (element : ElementName) : Bool :=
  element.vocabulary == .math && ["mi", "mo", "mn", "ms", "mtext"].contains element.name

/-- Elements of graphics that hold ordinary elements. -/
def isGraphicsHost (element : ElementName) : Bool :=
  element.vocabulary == .svg && ["foreignObject", "desc", "title"].contains element.name

/-- Elements that bound every scope. -/
def boundsScope (element : ElementName) : Bool :=
  element.isOneOf
      ["applet", "caption", "html", "table", "td", "th", "marquee", "object", "template"]
    || element.isFormulaText || element.isGraphicsHost

/-- Elements that bound the scope of list items. -/
def boundsListScope (element : ElementName) : Bool :=
  element.boundsScope || element.isOneOf ["ol", "ul"]

/-- Elements that bound the scope of buttons, which is that of paragraphs. -/
def boundsButtonScope (element : ElementName) : Bool :=
  element.boundsScope || element.isOneOf ["button"]

/-- Elements that bound the scope of table parts. -/
def boundsTableScope (element : ElementName) : Bool :=
  element.isOneOf ["html", "table", "template"]

/-- Elements that bound the scope of a selection list: all but its groups and options. -/
def boundsSelectScope (element : ElementName) : Bool :=
  !element.isOneOf ["optgroup", "option"]

/-- Elements whose end tag may be left out. -/
def hasImpliedEnd (element : ElementName) : Bool :=
  element.isOneOf ["dd", "dt", "li", "option", "optgroup", "p", "rb", "rp", "rt", "rtc"]

/-- Elements whose end is implied by the end of a template. -/
def hasImpliedEndInTemplate (element : ElementName) : Bool :=
  element.hasImpliedEnd
    || element.isOneOf ["caption", "colgroup", "tbody", "td", "tfoot", "th", "thead", "tr"]

/-- Headings. -/
def isHeading (element : ElementName) : Bool :=
  element.isOneOf ["h1", "h2", "h3", "h4", "h5", "h6"]

/-- Cells of a table. -/
def isCell (element : ElementName) : Bool := element.isOneOf ["td", "th"]

/-- Parts of a table that hold no text of their own. -/
def isTablePart (element : ElementName) : Bool :=
  element.isOneOf ["table", "tbody", "tfoot", "thead", "tr"]

end ElementName

end LiveTemplate.Markup
