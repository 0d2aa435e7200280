import LiveTemplate.Markup.Builder.Rules
import LiveTemplate.Markup.Scanner
import LiveTemplate.Markup.Tree
import LiveTemplate.Table

/-!
# Parsing markup

`parseMarkup` reads a text as the content of a document body and gives the forest of its nodes.
Any text is accepted: what is misplaced is moved, closed or left out by the rules of tree
construction.
-/

namespace LiveTemplate.Markup

namespace Builder

/-- Take in a token.  A line feed right behind the start tag of preformatted text is dropped,
unless it is written as a reference without semicolon. -/
def take (b : Builder) (token : Token) : Builder :=
  let skips := b.skipsLineFeed
  let b := { b with skipsLineFeed := false }
  if skips && token == .characters ['\n'] then b else b.accept token

/-- Take in what was scanned.  Text is taken in character by character. -/
def takeScanned (b : Builder) (token : Token) : Builder :=
  match token with
  | .characters cs => cs.foldl (fun b c => b.take (.characters [c])) b
  | .startTag tag => { b with lastStartTag := tag.name }.take token
  | token => b.take token

/-- Scan a text and take in its tokens; each scan reads at least one character, so `fuel` need
only be their number. -/
def run : Nat → Builder → List Char → Builder
  | 0, b, _ => b
  | fuel + 1, b, cs =>
    if cs.isEmpty then b
    else
      let scanned := scan b.textMode b.isForeign b.lastStartTag cs
      let b := { b with
        textMode := scanned.mode
        skipsLineFeed := b.skipsLineFeed && !scanned.isOpenReference }
      let b := match scanned.token with
        | some token => b.takeScanned token
        | none => { b with skipsLineFeed := false }
      run fuel b scanned.rest

/-- The attributes of an element, under the names that remain of them. -/
def attributesOf (attributes : List (String × String)) : List (String × String) :=
  Table.ofEntries attributes

/-- The tree below a cell; the insides of templates are left out.  No branch is longer than the
number of cells. -/
def treeOf? (b : Builder) : Nat → Nat → Option (Tree Unit)
  | 0, _ => none
  | fuel + 1, id =>
    match b.cells[id]? with
    | some { content := .element name attributes, children, .. } =>
      some (.element () name.name (attributesOf attributes) (children.filterMap (treeOf? b fuel)))
    | some { content := .text data, .. } => some (.text () data)
    | some { content := .comment data, .. } => some (.comment () data)
    | _ => none

end Builder

/-- The nodes that a text gives as the content of a document body. -/
def parseMarkup (text : String) : List (Tree Unit) :=
  let cs := normalize text
  let b := (Builder.start.run cs.length cs).accept .endOfText
  (b.childrenOf 0).filterMap (b.treeOf? b.cells.size)

end LiveTemplate.Markup
