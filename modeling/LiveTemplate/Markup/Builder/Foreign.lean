import LiveTemplate.Markup.Builder.Formatting

/-!
# Graphics and formulas

Inside `svg` and `math` elements names keep the case of their vocabulary, and a tag of ordinary
markup closes the foreign elements around it.
-/

namespace LiveTemplate.Markup

/-- Element names of graphics with capital letters. -/
def graphicsNames : List String :=
  ["altGlyph", "altGlyphDef", "altGlyphItem", "animateColor", "animateMotion",
   "animateTransform", "clipPath", "feBlend", "feColorMatrix", "feComponentTransfer",
   "feComposite", "feConvolveMatrix", "feDiffuseLighting", "feDisplacementMap",
   "feDistantLight", "feDropShadow", "feFlood", "feFuncA", "feFuncB", "feFuncG", "feFuncR",
   "feGaussianBlur", "feImage", "feMerge", "feMergeNode", "feMorphology", "feOffset",
   "fePointLight", "feSpecularLighting", "feSpotLight", "feTile", "feTurbulence",
   "foreignObject", "glyphRef", "linearGradient", "radialGradient", "textPath"]

/-- Attribute names of graphics with capital letters. -/
def graphicsAttributes : List String :=
  ["attributeName", "attributeType", "baseFrequency", "baseProfile", "calcMode",
   "clipPathUnits", "diffuseConstant", "edgeMode", "filterUnits", "glyphRef",
   "gradientTransform", "gradientUnits", "kernelMatrix", "kernelUnitLength", "keyPoints",
   "keySplines", "keyTimes", "lengthAdjust", "limitingConeAngle", "markerHeight",
   "markerUnits", "markerWidth", "maskContentUnits", "maskUnits", "numOctaves", "pathLength",
   "patternContentUnits", "patternTransform", "patternUnits", "pointsAtX", "pointsAtY",
   "pointsAtZ", "preserveAlpha", "preserveAspectRatio", "primitiveUnits", "refX", "refY",
   "repeatCount", "repeatDur", "requiredExtensions", "requiredFeatures", "specularConstant",
   "specularExponent", "spreadMethod", "startOffset", "stdDeviation", "stitchTiles",
   "surfaceScale", "systemLanguage", "tableValues", "targetX", "targetY", "textLength",
   "viewBox", "viewTarget", "xChannelSelector", "yChannelSelector", "zoomAndPan"]

/-- Attributes of foreign elements whose name has a part in front of a colon that is dropped. -/
def foreignAttributes : List (String × String) :=
  [("xlink:actuate", "actuate"), ("xlink:arcrole", "arcrole"), ("xlink:href", "href"),
   ("xlink:role", "role"), ("xlink:show", "show"), ("xlink:title", "title"),
   ("xlink:type", "type"), ("xml:lang", "lang"), ("xml:space", "space"),
   ("xmlns:xlink", "xlink")]

/-- The name in a list that differs from the given one at most in case. -/
def restoreCase (names : List String) (name : String) : String :=
  (names.find? fun candidate => lower candidate.toList == name).getD name

/-- The name of an attribute in a vocabulary. -/
def adjustAttribute (vocabulary : Vocabulary) (name : String) : String :=
  let name := match vocabulary with
    | .svg => restoreCase graphicsAttributes name
    | .math => restoreCase ["definitionURL"] name
    | .html => name
  (foreignAttributes.lookup name).getD name

/-- The attributes of a tag in a vocabulary. -/
def adjustAttributes (vocabulary : Vocabulary) (attributes : List (String × String)) :
    List (String × String) :=
  attributes.map fun (name, value) => (adjustAttribute vocabulary name, value)

/-- Start tags of ordinary markup that close foreign elements. -/
def breaksOut (tag : Tag) : Bool :=
  ["b", "big", "blockquote", "body", "br", "center", "code", "dd", "div", "dl", "dt", "em",
   "embed", "h1", "h2", "h3", "h4", "h5", "h6", "head", "hr", "i", "img", "li", "listing",
   "menu", "meta", "nobr", "ol", "p", "pre", "ruby", "s", "small", "span", "strong", "strike",
   "sub", "sup", "table", "tt", "u", "ul", "var"].contains tag.name
  || (tag.name == "font"
    && tag.attributes.any fun (name, _) => ["color", "face", "size"].contains name)

namespace Builder

/-- Add the element of a start tag in a vocabulary, and open it unless the tag closes itself. -/
def openForeign (b : Builder) (name : ElementName) (tag : Tag) : Builder :=
  let attributes := adjustAttributes name.vocabulary tag.attributes
  if tag.selfClosing then (b.addElement name attributes).1 else b.openElement name attributes

/-- Enter graphics or a formula.  Formatting elements are opened again only where text of ordinary
markup follows. -/
def enterForeign (b : Builder) (vocabulary : Vocabulary) (tag : Tag) : Builder :=
  b.openForeign ⟨vocabulary, tag.name⟩ tag

/-- A start tag among foreign elements. -/
def foreignStartTag (b : Builder) (tag : Tag) : Builder :=
  let vocabulary := b.adjustedCurrentName.vocabulary
  let name := if vocabulary = .svg then restoreCase graphicsNames tag.name else tag.name
  b.openForeign ⟨vocabulary, name⟩ tag

/-- Close foreign elements up to one that holds ordinary content. -/
def leaveForeign (b : Builder) : Builder :=
  b.popTo fun name => name.vocabulary == .html || name.isFormulaText || name.isGraphicsHost

/-- Whether a token is handled by the rules for foreign content. -/
def takesForeign (b : Builder) (token : Token) : Bool :=
  let name := b.adjustedCurrentName
  if name.vocabulary == .html then false
  else
    match token with
    | .endOfText => false
    | .characters _ => !(name.isFormulaText || name.isGraphicsHost)
    | .startTag tag =>
      !(name.isGraphicsHost
        || (name.isFormulaText && tag.name != "mglyph" && tag.name != "malignmark")
        || (name == ⟨.math, "annotation-xml"⟩ && tag.name == "svg"))
    | _ => true

/-- The stack behind an end tag among foreign elements: below the innermost foreign element of the
name; `none` when the tag reaches an ordinary element first. -/
def foreignEndStack (b : Builder) (name : String) : List Nat → Bool → Option (List Nat)
  | [], _ => some b.stack
  | [_], _ => some b.stack
  | id :: rest, isFirst =>
    let element := b.nameOf id
    if !isFirst && element.vocabulary == .html then none
    else if lower element.name.toList == name then some rest
    else foreignEndStack b name rest false

end Builder

end LiveTemplate.Markup
