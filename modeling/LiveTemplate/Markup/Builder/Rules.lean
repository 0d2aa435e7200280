import LiveTemplate.Markup.Builder.Foreign

/-!
# The rules of tree construction

Each mode says what a token does: it is used up, or it is looked at again under the rules of
another mode.  Text arrives character by character.
-/

namespace LiveTemplate.Markup.Builder

/-- What became of a token. -/
inductive Outcome
  /-- The token is used up. -/
  | done (b : Builder)
  /-- The token is looked at again. -/
  | again (b : Builder)

/-- Look at the token again in another mode. -/
def retryIn (b : Builder) (mode : Mode) : Outcome := .again { b with mode }

/-! ## Tags that have the same effect everywhere -/

/-- Whether the type of an input element hides it. -/
def isHiddenInput (tag : Tag) : Bool :=
  match tag.attributes.lookup "type" with
  | some value => lower value.toList == "hidden"
  | none => false

/-- Start tags of metadata, which may stand anywhere. -/
def isMetadata (name : String) : Bool :=
  ["base", "basefont", "bgsound", "link", "meta", "noframes", "script", "style", "template",
   "title"].contains name

/-- A start tag of metadata. -/
def metadataStart (b : Builder) (tag : Tag) : Builder :=
  if ["base", "basefont", "bgsound", "link", "meta"].contains tag.name then b.addTag tag
  else if tag.name == "title" then b.openTextElement tag .referenceText
  else if tag.name == "script" then b.openTextElement tag .script
  else if tag.name == "template" then
    { b.pushMark.openTag tag with
      mode := .inTemplate, templateModes := .inTemplate :: b.templateModes }
  else b.openTextElement tag .rawText

/-- The end tag of a template. -/
def templateEnd (b : Builder) : Builder :=
  if b.inTemplate then
    let b := (b.closeImplied ElementName.hasImpliedEndInTemplate).popThroughNamed "template"
    { b.clearToMark with templateModes := b.templateModes.drop 1 }.resetMode
  else b

/-! ## Ordinary content -/

/-- Close list items or definitions that a new one ends. -/
def closeItem (b : Builder) (names : List String) : Builder :=
  match search b.stack with
  | some name => (b.closeImpliedExcept name).popThroughNamed name
  | none => b
where
  /-- The name of the item to close. -/
  search : List Nat → Option String
    | [] => none
    | id :: rest =>
      let element := b.nameOf id
      if element.isOneOf names then some element.name
      else if element.isSpecial && !element.isOneOf ["address", "div", "p"] then none
      else search rest

/-- An element without content. -/
def voidElement (b : Builder) (tag : Tag) : Builder := b.reopenFormatting.addTag tag

/-- A start tag that opens a block and ends a paragraph. -/
def isBlock (name : String) : Bool :=
  ["address", "article", "aside", "blockquote", "center", "details", "dialog", "dir", "div", "dl",
   "fieldset", "figcaption", "figure", "footer", "header", "hgroup", "main", "menu", "nav", "ol",
   "p", "search", "section", "summary", "ul"].contains name

/-- An end tag that closes a block. -/
def closesBlock (name : String) : Bool :=
  name != "p" && (isBlock name || ["button", "listing", "pre"].contains name)

/-- A start tag of an element that formats text. -/
def isFormattingName (name : String) : Bool :=
  ["b", "big", "code", "em", "font", "i", "s", "small", "strike", "strong", "tt", "u"].contains
    name

/-- Start tags that are ignored in ordinary content. -/
def isMisplaced (name : String) : Bool :=
  ["html", "body", "frameset", "caption", "col", "colgroup", "frame", "head", "tbody", "td",
   "tfoot", "th", "thead", "tr"].contains name

/-- A start tag in ordinary content. -/
def bodyStart (b : Builder) (tag : Tag) : Builder :=
  let name := tag.name
  if isMisplaced name then b
  else if isMetadata name then b.metadataStart tag
  else if isBlock name then b.closeParagraphInScope.openTag tag
  else if (ElementName.html name).isHeading then
    let b := b.closeParagraphInScope
    (if b.currentName.isHeading then b.pop else b).openTag tag
  else if name == "pre" || name == "listing" then
    { b.closeParagraphInScope.openTag tag with skipsLineFeed := true }
  else if name == "form" then
    if b.form.isSome && !b.inTemplate then b
    else
      let b := b.closeParagraphInScope.openTag tag
      if b.inTemplate then b else { b with form := some b.current }
  else if name == "li" then ((b.closeItem ["li"]).closeParagraphInScope).openTag tag
  else if name == "dd" || name == "dt" then
    ((b.closeItem ["dd", "dt"]).closeParagraphInScope).openTag tag
  else if name == "plaintext" then
    { b.closeParagraphInScope.openTag tag with textMode := .plainText }
  else if name == "button" then
    let b := if b.hasInScope ElementName.boundsScope "button" then
        (b.closeImplied ElementName.hasImpliedEnd).popThroughNamed "button"
      else b
    b.reopenFormatting.openTag tag
  else if name == "a" then b.closeOpenLink.reopenFormatting.openFormatting tag
  else if isFormattingName name then b.reopenFormatting.openFormatting tag
  else if name == "nobr" then
    let b := b.reopenFormatting
    let b := if b.hasInScope ElementName.boundsScope "nobr" then
        (b.closeFormatting "nobr").reopenFormatting
      else b
    b.openFormatting tag
  else if ["applet", "marquee", "object"].contains name then
    (b.reopenFormatting.openTag tag).pushMark
  else if name == "table" then { b.closeParagraphInScope.openTag tag with mode := .inTable }
  else if ["area", "br", "embed", "img", "keygen", "wbr", "input"].contains name then
    b.voidElement tag
  else if ["param", "source", "track"].contains name then b.addTag tag
  else if name == "hr" then b.closeParagraphInScope.addTag tag
  else if name == "image" then b.voidElement { tag with name := "img" }
  else if name == "textarea" then
    { b.openTextElement tag .referenceText with skipsLineFeed := true }
  else if name == "xmp" then
    b.closeParagraphInScope.reopenFormatting.openTextElement tag .rawText
  else if ["iframe", "noembed", "noscript"].contains name then b.openTextElement tag .rawText
  else if name == "select" then
    let inTable := [Mode.inTable, .inCaption, .inTableBody, .inRow, .inCell].contains b.mode
    { b.reopenFormatting.openTag tag with
      mode := if inTable then .inSelectInTable else .inSelect }
  else if name == "optgroup" || name == "option" then
    (if b.currentIs "option" then b.pop else b).reopenFormatting.openTag tag
  else if name == "rb" || name == "rtc" then
    (if b.hasInScope ElementName.boundsScope "ruby" then b.closeImplied ElementName.hasImpliedEnd
      else b).openTag tag
  else if name == "rp" || name == "rt" then
    (if b.hasInScope ElementName.boundsScope "ruby" then b.closeImpliedExcept "rtc" else b).openTag
      tag
  else if name == "math" then b.enterForeign .math tag
  else if name == "svg" then b.enterForeign .svg tag
  else b.reopenFormatting.openTag tag

/-- The end tag of a form. -/
def formEnd (b : Builder) : Builder :=
  if b.inTemplate then
    if b.hasInScope ElementName.boundsScope "form" then
      (b.closeImplied ElementName.hasImpliedEnd).popThroughNamed "form"
    else b
  else
    match b.form with
    | none => b
    | some form =>
      let b := { b with form := none }
      if b.inScope ElementName.boundsScope (· == form) then
        (b.closeImplied ElementName.hasImpliedEnd).removeFromStack form
      else b

/-- The end tag of a list item or definition, which the given elements bound. -/
def itemEnd (b : Builder) (bounds : ElementName → Bool) (name : String) : Builder :=
  if b.hasInScope bounds name then (b.closeImpliedExcept name).popThroughNamed name else b

/-- The end tag of an element that formats text, or of any other one. -/
def otherEnd (b : Builder) (name : String) : Builder :=
  if name == "a" || name == "nobr" || isFormattingName name then b.closeFormatting name
  else b.closeNamed name

/-- An end tag in ordinary content. -/
def bodyEnd (b : Builder) (name : String) : Builder :=
  if name == "template" then b.templateEnd
  else if name == "body" || name == "html" then b
  else if closesBlock name then
    if b.hasInScope ElementName.boundsScope name then
      (b.closeImplied ElementName.hasImpliedEnd).popThroughNamed name
    else b
  else if name == "form" then b.formEnd
  else if name == "p" then
    (if b.hasInScope ElementName.boundsButtonScope "p" then b
      else b.openImplied "p").closeParagraph
  else if name == "li" then b.itemEnd ElementName.boundsListScope name
  else if name == "dd" || name == "dt" then b.itemEnd ElementName.boundsScope name
  else if (ElementName.html name).isHeading then
    if b.inScope ElementName.boundsScope fun id => (b.nameOf id).isHeading then
      (b.closeImplied ElementName.hasImpliedEnd).popThrough ElementName.isHeading
    else b
  else if ["applet", "marquee", "object"].contains name then
    if b.hasInScope ElementName.boundsScope name then
      ((b.closeImplied ElementName.hasImpliedEnd).popThroughNamed name).clearToMark
    else b
  else if name == "br" then b.voidElement { name := "br" }
  else b.otherEnd name

/-- A character in ordinary content. -/
def bodyCharacter (b : Builder) (c : Char) : Builder :=
  if c == '\x00' then b else b.reopenFormatting.insertText (String.singleton c)

/-- A token in ordinary content. -/
def bodyRule (b : Builder) (token : Token) : Outcome :=
  match token with
  | .startTag tag => .done (b.bodyStart tag)
  | .endTag name => .done (b.bodyEnd name)
  | .comment data => .done (b.insertComment data)
  | .characters cs => .done (cs.foldl bodyCharacter b)
  | .endOfText => .done b

/-! ## Tables -/

/-- Content that may not stand in a table goes before it. -/
def fosterRule (b : Builder) (token : Token) : Outcome :=
  match { b with fostering := true }.bodyRule token with
  | .done b => .done { b with fostering := false }
  | .again b => .again { b with fostering := false }

/-- Parts of a table whose tags are handled apart from other content. -/
def isTableTag (name : String) : Bool :=
  ["caption", "col", "colgroup", "tbody", "td", "tfoot", "th", "thead", "tr"].contains name

/-- End tags that a part of a table ignores unless it handles them. -/
def isIgnoredEnd (name : String) : Bool := isTableTag name || name == "body" || name == "html"

/-- Close elements up to the innermost table, template or root. -/
def clearToTable (b : Builder) : Builder := b.popTo ElementName.boundsTableScope

/-- Close elements up to the innermost group of rows, template or root. -/
def clearToRows (b : Builder) : Builder :=
  b.popTo fun name => name.isOneOf ["tbody", "tfoot", "thead", "template", "html"]

/-- Close elements up to the innermost row, template or root. -/
def clearToRow (b : Builder) : Builder :=
  b.popTo fun name => name.isOneOf ["tr", "template", "html"]

/-- Whether an element of a name is in the scope of the table. -/
def hasInTable (b : Builder) (name : String) : Bool :=
  b.hasInScope ElementName.boundsTableScope name

/-- A token directly inside a table. -/
def tableRule (b : Builder) (token : Token) : Outcome :=
  match token with
  | .characters _ =>
    if b.currentName.isTablePart then { b with returnMode := b.mode }.retryIn .inTableText
    else b.fosterRule token
  | .comment data => .done (b.insertComment data)
  | .startTag tag =>
    let name := tag.name
    if name == "caption" then
      .done { b.clearToTable.pushMark.openTag tag with mode := .inCaption }
    else if name == "colgroup" then .done { b.clearToTable.openTag tag with mode := .inColumnGroup }
    else if name == "col" then (b.clearToTable.openImplied "colgroup").retryIn .inColumnGroup
    else if ["tbody", "tfoot", "thead"].contains name then
      .done { b.clearToTable.openTag tag with mode := .inTableBody }
    else if ["td", "th", "tr"].contains name then
      (b.clearToTable.openImplied "tbody").retryIn .inTableBody
    else if name == "table" then
      if b.hasInTable "table" then .again (b.popThroughNamed "table").resetMode else .done b
    else if ["style", "script", "template"].contains name then .done (b.metadataStart tag)
    else if name == "input" && isHiddenInput tag then .done (b.addTag tag)
    else if name == "form" then
      if b.inTemplate || b.form.isSome then .done b
      else
        let (b, form) := b.addElement (.html "form") tag.attributes
        .done { b with form := some form }
    else b.fosterRule token
  | .endTag name =>
    if name == "table" then
      if b.hasInTable "table" then .done (b.popThroughNamed "table").resetMode else .done b
    else if isIgnoredEnd name then .done b
    else if name == "template" then .done b.templateEnd
    else b.fosterRule token
  | .endOfText => b.bodyRule token

/-- A token behind text in a table.  White space alone stays where it is; other text goes before
the table. -/
def tableTextRule (b : Builder) (token : Token) : Outcome :=
  match token with
  | .characters cs =>
    .done { b with tableText := (cs.filter (· != '\x00')).reverse ++ b.tableText }
  | _ =>
    let text := b.tableText.reverse
    let b := { b with tableText := [] }
    let b :=
      if text.all isSpace then
        if text.isEmpty then b else b.insertText (String.ofList text)
      else { text.foldl bodyCharacter { b with fostering := true } with fostering := false }
    b.retryIn b.returnMode

/-- A token in the caption of a table. -/
def captionRule (b : Builder) (token : Token) : Outcome :=
  let close (next : Builder → Outcome) : Outcome :=
    if b.hasInTable "caption" then
      let b := (b.closeImplied ElementName.hasImpliedEnd).popThroughNamed "caption"
      next { b.clearToMark with mode := .inTable }
    else .done b
  match token with
  | .startTag tag => if isTableTag tag.name then close .again else b.bodyRule token
  | .endTag name =>
    if name == "caption" then close .done
    else if name == "table" then close .again
    else if isIgnoredEnd name then .done b
    else b.bodyRule token
  | _ => b.bodyRule token

/-- Close a group of columns and look at the token again. -/
def leaveColumns (b : Builder) : Outcome :=
  if b.currentIs "colgroup" then b.pop.retryIn .inTable else .done b

/-- A token in a group of columns. -/
def columnsRule (b : Builder) (token : Token) : Outcome :=
  match token with
  | .characters cs =>
    if cs.all isSpace then .done (b.insertText (String.ofList cs)) else b.leaveColumns
  | .comment data => .done (b.insertComment data)
  | .startTag tag =>
    if tag.name == "html" then .done b
    else if tag.name == "col" then .done (b.addTag tag)
    else if tag.name == "template" then .done (b.metadataStart tag)
    else b.leaveColumns
  | .endTag name =>
    if name == "colgroup" then
      .done (if b.currentIs "colgroup" then { b.pop with mode := .inTable } else b)
    else if name == "col" then .done b
    else if name == "template" then .done b.templateEnd
    else b.leaveColumns
  | .endOfText => b.bodyRule token

/-- A token in a group of rows. -/
def rowsRule (b : Builder) (token : Token) : Outcome :=
  let leave : Outcome :=
    if b.inScope ElementName.boundsTableScope
        fun id => (b.nameOf id).isOneOf ["table", "tbody", "tfoot"] then
      b.clearToRows.pop.retryIn .inTable
    else .done b
  match token with
  | .startTag tag =>
    let name := tag.name
    if name == "tr" then .done { b.clearToRows.openTag tag with mode := .inRow }
    else if name == "th" || name == "td" then (b.clearToRows.openImplied "tr").retryIn .inRow
    else if ["caption", "col", "colgroup", "tbody", "tfoot", "thead"].contains name then leave
    else b.tableRule token
  | .endTag name =>
    if ["tbody", "tfoot", "thead"].contains name then
      .done (if b.hasInTable name then { b.clearToRows.pop with mode := .inTable } else b)
    else if name == "table" then leave
    else if isIgnoredEnd name then .done b
    else b.tableRule token
  | _ => b.tableRule token

/-- A token in a row. -/
def rowRule (b : Builder) (token : Token) : Outcome :=
  let leave : Outcome :=
    if b.hasInTable "tr" then b.clearToRow.pop.retryIn .inTableBody else .done b
  match token with
  | .startTag tag =>
    if tag.name == "th" || tag.name == "td" then
      .done { (b.clearToRow.openTag tag).pushMark with mode := .inCell }
    else if isTableTag tag.name then leave
    else b.tableRule token
  | .endTag name =>
    if name == "tr" then
      .done (if b.hasInTable "tr" then { b.clearToRow.pop with mode := .inTableBody } else b)
    else if name == "table" then leave
    else if ["tbody", "tfoot", "thead"].contains name then
      if b.hasInTable name then leave else .done b
    else if isIgnoredEnd name then .done b
    else b.tableRule token
  | _ => b.tableRule token

/-- Close the innermost cell. -/
def closeCell (b : Builder) : Builder :=
  ((b.closeImplied ElementName.hasImpliedEnd).popThrough ElementName.isCell).clearToMark

/-- A token in a cell. -/
def cellRule (b : Builder) (token : Token) : Outcome :=
  match token with
  | .startTag tag =>
    if isTableTag tag.name then
      if b.inScope ElementName.boundsTableScope fun id => (b.nameOf id).isCell then
        b.closeCell.retryIn .inRow
      else .done b
    else b.bodyRule token
  | .endTag name =>
    if name == "td" || name == "th" then
      if b.hasInTable name then
        let b := (b.closeImplied ElementName.hasImpliedEnd).popThroughNamed name
        .done { b.clearToMark with mode := .inRow }
      else .done b
    else if ["table", "tbody", "tfoot", "thead", "tr"].contains name then
      if b.hasInTable name then b.closeCell.retryIn .inRow else .done b
    else if isIgnoredEnd name then .done b
    else b.bodyRule token
  | _ => b.bodyRule token

/-! ## Selection lists and templates -/

/-- Close an option. -/
def closeOption (b : Builder) : Builder := if b.currentIs "option" then b.pop else b

/-- Close a group of options. -/
def closeGroup (b : Builder) : Builder := if b.currentIs "optgroup" then b.pop else b

/-- Whether a selection list is open. -/
def hasSelect (b : Builder) : Bool := b.hasInScope ElementName.boundsSelectScope "select"

/-- Close the selection list. -/
def closeSelect (b : Builder) : Builder := (b.popThroughNamed "select").resetMode

/-- A token in a selection list. -/
def selectRule (b : Builder) (token : Token) : Outcome :=
  match token with
  | .characters cs =>
    let text := cs.filter (· != '\x00')
    .done (if text.isEmpty then b else b.insertText (String.ofList text))
  | .comment data => .done (b.insertComment data)
  | .startTag tag =>
    let name := tag.name
    if name == "option" then .done (b.closeOption.openTag tag)
    else if name == "optgroup" then .done (b.closeOption.closeGroup.openTag tag)
    else if name == "hr" then .done (b.closeOption.closeGroup.addTag tag)
    else if name == "select" then .done (if b.hasSelect then b.closeSelect else b)
    else if ["input", "keygen", "textarea"].contains name then
      if b.hasSelect then .again b.closeSelect else .done b
    else if name == "script" || name == "template" then .done (b.metadataStart tag)
    else .done b
  | .endTag name =>
    if name == "optgroup" then
      let b := match b.stack with
        | option :: group :: _ =>
          if b.isNamed option "option" && b.isNamed group "optgroup" then b.pop else b
        | _ => b
      .done b.closeGroup
    else if name == "option" then .done b.closeOption
    else if name == "select" then .done (if b.hasSelect then b.closeSelect else b)
    else if name == "template" then .done b.templateEnd
    else .done b
  | .endOfText => b.bodyRule token

/-- A token in a selection list inside a table. -/
def selectInTableRule (b : Builder) (token : Token) : Outcome :=
  let isPart (name : String) : Bool :=
    ["caption", "table", "tbody", "tfoot", "thead", "tr", "td", "th"].contains name
  match token with
  | .startTag tag => if isPart tag.name then .again b.closeSelect else b.selectRule token
  | .endTag name =>
    if isPart name then if b.hasInTable name then .again b.closeSelect else .done b
    else b.selectRule token
  | _ => b.selectRule token

/-- Go on in a template under the rules of another mode. -/
def retryInTemplate (b : Builder) (mode : Mode) : Outcome :=
  { b with templateModes := mode :: b.templateModes.drop 1 }.retryIn mode

/-- A token directly inside a template. -/
def templateRule (b : Builder) (token : Token) : Outcome :=
  match token with
  | .startTag tag =>
    let name := tag.name
    if isMetadata name then .done (b.metadataStart tag)
    else if ["caption", "colgroup", "tbody", "tfoot", "thead"].contains name then
      b.retryInTemplate .inTable
    else if name == "col" then b.retryInTemplate .inColumnGroup
    else if name == "tr" then b.retryInTemplate .inTableBody
    else if name == "td" || name == "th" then b.retryInTemplate .inRow
    else b.retryInTemplate .inBody
  | .endTag name => .done (if name == "template" then b.templateEnd else b)
  | _ => b.bodyRule token

/-- A token in an element that holds text alone. -/
def textRule (b : Builder) (token : Token) : Outcome :=
  match token with
  | .characters cs => .done (b.insertText (String.ofList cs))
  | .endOfText => b.pop.retryIn b.returnMode
  | _ => .done { b.pop with mode := b.returnMode }

/-! ## Dispatch -/

/-- A token under the rules of the current mode. -/
def modeRule (b : Builder) (token : Token) : Outcome :=
  match b.mode with
  | .inBody => b.bodyRule token
  | .text => b.textRule token
  | .inTable => b.tableRule token
  | .inTableText => b.tableTextRule token
  | .inCaption => b.captionRule token
  | .inColumnGroup => b.columnsRule token
  | .inTableBody => b.rowsRule token
  | .inRow => b.rowRule token
  | .inCell => b.cellRule token
  | .inSelect => b.selectRule token
  | .inSelectInTable => b.selectInTableRule token
  | .inTemplate => b.templateRule token

/-- A token among foreign elements. -/
def foreignRule (b : Builder) (token : Token) : Outcome :=
  match token with
  | .characters cs =>
    .done (b.insertText (String.ofList (cs.map replaceNull)))
  | .comment data => .done (b.insertComment data)
  | .startTag tag =>
    if breaksOut tag then b.leaveForeign.modeRule token else .done (b.foreignStartTag tag)
  | .endTag name =>
    if name == "br" || name == "p" then b.leaveForeign.modeRule token
    else
      match b.foreignEndStack name b.stack true with
      | some stack => .done { b with stack }
      | none => b.modeRule token
  | .endOfText => .done b

/-- Handle a token, looking at it again at most so often. -/
def handle : Nat → Builder → Token → Builder
  | 0, b, _ => b
  | fuel + 1, b, token =>
    let outcome := if b.takesForeign token then b.foreignRule token else b.modeRule token
    match outcome with
    | .done b => b
    | .again b => handle fuel b token

/-- Handle a token.  Looking at it again closes an element or leads to a mode that goes no further
round, so a few times for each open element are enough. -/
def accept (b : Builder) (token : Token) : Builder :=
  b.handle (4 * b.stack.length + 8) token

end LiveTemplate.Markup.Builder
