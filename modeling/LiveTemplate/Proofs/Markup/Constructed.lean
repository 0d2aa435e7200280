import LiveTemplate.Markup.Parser
import LiveTemplate.Proofs.Markup.Construction
import LiveTemplate.Proofs.Reactive.Definitions

/-!
# What is parsed can be read back

Under every rule of tree construction the names and comments in the tree stay such that they are
read as they are written, for those of the tokens are.  So this holds of the nodes that any text
gives.
-/

namespace LiveTemplate

theorem Tree.spelledForest_iff {ι : Type} {trees : List (Tree ι)} :
    Tree.Spelled.spelledForest trees ↔ ∀ tree ∈ trees, tree.Spelled := by
  induction trees with
  | nil => simp [Tree.Spelled.spelledForest]
  | cons tree trees ih => simp [Tree.Spelled.spelledForest, ih]

namespace Markup

namespace Builder.Spelled

variable {b : Builder} {tag : Tag}

/-! ## Tags that have the same effect everywhere -/

theorem metadataStart (h : b.Spelled) (htag : SpelledElement tag.name tag.attributes) :
    (b.metadataStart tag).Spelled := by
  have htemplate := h.pushMark.openTag htag
  exact .ite (h.addTag htag) <| .ite (h.openTextElement htag _) <| .ite (h.openTextElement htag _) <|
    .ite ⟨htemplate.cells, htemplate.formatting⟩ (h.openTextElement htag _)

theorem templateEnd (h : b.Spelled) : b.templateEnd.Spelled := by
  have hclosed := (((h.withStack _).withStack _ :
    ((b.closeImplied ElementName.hasImpliedEndInTemplate).popThroughNamed "template").Spelled)).clearToMark
  exact .ite ⟨hclosed.cells, hclosed.formatting⟩ h

/-! ## Ordinary content -/

theorem closeItem (h : b.Spelled) (names : List String) : (b.closeItem names).Spelled := by
  unfold Builder.closeItem
  split
  · exact h.withStack _
  · exact h

theorem voidElement (h : b.Spelled) (htag : SpelledElement tag.name tag.attributes) :
    (b.voidElement tag).Spelled :=
  h.reopenFormatting.addTag htag

theorem enterForeign (h : b.Spelled) (htag : SpelledElement tag.name tag.attributes)
    (vocabulary : Vocabulary) : (b.enterForeign vocabulary tag).Spelled :=
  h.openForeign htag.tag htag

theorem formEnd (h : b.Spelled) : b.formEnd.Spelled := by
  unfold Builder.formEnd
  split
  · exact .ite (h.withStack _) h
  · split
    · exact h
    · exact .ite ⟨h.cells, h.formatting⟩ ⟨h.cells, h.formatting⟩

theorem otherEnd (h : b.Spelled) (name : String) : (b.otherEnd name).Spelled :=
  .ite (h.closeFormatting name) (h.closeNamed name)

/-- A start tag in ordinary content, rule by rule. -/
theorem bodyStart (h : b.Spelled) (htag : SpelledElement tag.name tag.attributes) :
    (b.bodyStart tag).Spelled := by
  have hblock := h.closeParagraphInScope.openTag htag
  have hreopened := h.reopenFormatting
  have hopened := hreopened.openTag htag
  have htext (mode : TextMode) := h.openTextElement htag mode
  unfold Builder.bodyStart
  extract_lets name
  -- The rules in their order, each with what it leaves of the builder.
  refine .ite h <| .ite (h.metadataStart htag) <| .ite hblock <|
    .ite (Spelled.openTag (.ite (h.closeParagraphInScope.withStack _) h.closeParagraphInScope) htag) <|
    .ite ⟨hblock.cells, hblock.formatting⟩ <|
    .ite (.ite h (.ite hblock ⟨hblock.cells, hblock.formatting⟩)) <|
    .ite ((h.closeItem _).closeParagraphInScope.openTag htag) <|
    .ite ((h.closeItem _).closeParagraphInScope.openTag htag) <|
    .ite ⟨hblock.cells, hblock.formatting⟩ ?_
  refine .ite (Spelled.openTag (reopenFormatting (.ite (h.withStack _) h)) htag) <|
    .ite (h.closeOpenLink.reopenFormatting.openFormatting htag) <|
    .ite (hreopened.openFormatting htag) <|
    .ite (Spelled.openFormatting
      (.ite (hreopened.closeFormatting _).reopenFormatting hreopened) htag) <|
    .ite hopened.pushMark <| .ite ⟨hblock.cells, hblock.formatting⟩ <|
    .ite (h.voidElement htag) <| .ite (h.addTag htag) <|
    .ite (h.closeParagraphInScope.addTag htag) ?_
  have himage : SpelledElement "img" tag.attributes := ⟨by decide, htag.names⟩
  refine .ite (hreopened.addTag himage) <| .ite ⟨(htext .referenceText).cells, (htext .referenceText).formatting⟩ <|
    .ite (h.closeParagraphInScope.reopenFormatting.openTextElement htag _) <| .ite (htext _) <|
    .ite ⟨hopened.cells, hopened.formatting⟩ <|
    .ite (Spelled.openTag (reopenFormatting (.ite (h.withStack _) h)) htag) <|
    .ite (Spelled.openTag (.ite (h.withStack _) h) htag) <|
    .ite (Spelled.openTag (.ite (h.withStack _) h) htag) <|
    .ite (h.enterForeign htag _) <| .ite (h.enterForeign htag _) hopened

theorem bodyEnd (h : b.Spelled) (name : String) : (b.bodyEnd name).Spelled := by
  have hclosed (stack : List Nat) : Spelled { b with stack } := h.withStack stack
  unfold Builder.bodyEnd
  refine .ite h.templateEnd <| .ite h <| .ite (.ite (hclosed _) h) <| .ite h.formEnd <|
    .ite ?_ <| .ite (.ite (hclosed _) h) <| .ite (.ite (hclosed _) h) <|
    .ite (.ite (hclosed _) h) <| .ite (.ite ?_ h) <| .ite ?_ (h.otherEnd name)
  · exact withStack (.ite h (h.openImplied (by decide))) _
  · exact ((hclosed _).withStack _ : (Builder.popThroughNamed _ _).Spelled).clearToMark
  · exact h.voidElement ⟨by decide, by simp⟩

theorem bodyCharacter (h : b.Spelled) (c : Char) : (b.bodyCharacter c).Spelled :=
  .ite h (h.reopenFormatting.insertText _)

theorem bodyCharacters (h : b.Spelled) (cs : List Char) : (cs.foldl Builder.bodyCharacter b).Spelled :=
  List.foldlRecOn cs _ h fun _ h c _ => h.bodyCharacter c

end Builder.Spelled

namespace Builder

variable {b : Builder} {token : Token}

theorem Outcome.Spelled.ite {c : Prop} [Decidable c] {o o' : Outcome} (h : o.Spelled)
    (h' : o'.Spelled) : (if c then o else o').Spelled := by
  split
  · exact h
  · exact h'

namespace Spelled

theorem retryIn (h : b.Spelled) (mode : Mode) : (b.retryIn mode).Spelled := h.withMode mode

theorem bodyRule (h : b.Spelled) (htoken : token.Spelled) : (b.bodyRule token).Spelled := by
  cases token with
  | startTag tag => exact h.bodyStart htoken
  | endTag name => exact h.bodyEnd name
  | comment data => exact h.insertComment htoken
  | characters cs => exact h.bodyCharacters cs
  | endOfText => exact h

/-! ## Tables -/

theorem fosterRule (h : b.Spelled) (htoken : token.Spelled) : (b.fosterRule token).Spelled := by
  have hbody : ({ b with fostering := true }.bodyRule token).Spelled :=
    bodyRule ⟨h.cells, h.formatting⟩ htoken
  unfold Builder.fosterRule
  split
  · rename_i heq
    rw [heq] at hbody
    exact ⟨hbody.cells, hbody.formatting⟩
  · rename_i heq
    rw [heq] at hbody
    exact ⟨hbody.cells, hbody.formatting⟩

theorem tableRule (h : b.Spelled) (htoken : token.Spelled) : (b.tableRule token).Spelled := by
  have hcleared : b.clearToTable.Spelled := h.withStack _
  have hreset : Spelled (b.popThroughNamed "table").resetMode := (h.withStack _).withMode _
  cases token with
  | characters cs => exact .ite ⟨h.cells, h.formatting⟩ (h.fosterRule htoken)
  | comment data => exact h.insertComment htoken
  | startTag tag =>
      have htag : SpelledElement tag.name tag.attributes := htoken
      have hform := h.addElement (.html "form") ⟨by decide, htag.names⟩
      exact .ite ((hcleared.pushMark.openTag htag).withMode _) <|
        .ite ((hcleared.openTag htag).withMode _) <|
        .ite ((hcleared.openImplied (by decide)).retryIn _) <|
        .ite ((hcleared.openTag htag).withMode _) <|
        .ite ((hcleared.openImplied (by decide)).retryIn _) <| .ite (.ite hreset h) <|
        .ite (h.metadataStart htag) <| .ite (h.addTag htag) <|
        .ite (.ite h ⟨hform.cells, hform.formatting⟩) (h.fosterRule htoken)
  | endTag name =>
      exact .ite (.ite hreset h) <| .ite h <| .ite h.templateEnd (h.fosterRule htoken)
  | endOfText => exact h.bodyRule htoken

theorem tableTextRule (h : b.Spelled) (token : Token) : (b.tableTextRule token).Spelled := by
  have hemptied : Spelled { b with tableText := [] } := ⟨h.cells, h.formatting⟩
  have hfostered : Spelled { b with tableText := [], fostering := true } := ⟨h.cells, h.formatting⟩
  have hmoved := hfostered.bodyCharacters b.tableText.reverse
  have hflushed : (if b.tableText.reverse.all isSpace then
      if b.tableText.reverse.isEmpty then { b with tableText := [] }
      else { b with tableText := [] }.insertText (String.ofList b.tableText.reverse)
    else { b.tableText.reverse.foldl Builder.bodyCharacter
      { b with tableText := [], fostering := true } with fostering := false }).Spelled :=
    .ite (.ite hemptied (hemptied.insertText _)) ⟨hmoved.cells, hmoved.formatting⟩
  cases token with
  | characters cs => exact ⟨h.cells, h.formatting⟩
  | _ => exact hflushed.retryIn _

/-- A caption is closed and the token is taken in or looked at again. -/
theorem closeCaption (h : b.Spelled) :
    Spelled { ((b.closeImplied ElementName.hasImpliedEnd).popThroughNamed "caption").clearToMark with
      mode := .inTable } :=
  have hpopped : ((b.closeImplied ElementName.hasImpliedEnd).popThroughNamed "caption").Spelled :=
    (h.withStack _).withStack _
  hpopped.clearToMark.withMode _

theorem captionRule (h : b.Spelled) (htoken : token.Spelled) : (b.captionRule token).Spelled := by
  have hbody := h.bodyRule htoken
  cases token with
  | startTag tag =>
      exact .ite (.ite h.closeCaption h) hbody
  | endTag name =>
      exact .ite (.ite h.closeCaption h) <| .ite (.ite h.closeCaption h) <| .ite h hbody
  | _ => exact hbody

theorem leaveColumns (h : b.Spelled) : b.leaveColumns.Spelled :=
  .ite ((h.withStack _).withMode _) h

theorem columnsRule (h : b.Spelled) (htoken : token.Spelled) : (b.columnsRule token).Spelled := by
  cases token with
  | characters cs => exact .ite (h.insertText _) h.leaveColumns
  | comment data => exact h.insertComment htoken
  | startTag tag =>
      exact .ite h <| .ite (h.addTag htoken) <| .ite (h.metadataStart htoken) h.leaveColumns
  | endTag name =>
      exact .ite (Spelled.ite ⟨h.cells, h.formatting⟩ h) <| .ite h <| .ite h.templateEnd h.leaveColumns
  | endOfText => exact h.bodyRule htoken

theorem rowsRule (h : b.Spelled) (htoken : token.Spelled) : (b.rowsRule token).Spelled := by
  have hcleared : b.clearToRows.Spelled := h.withStack _
  have hleft : Spelled { b.clearToRows.pop with mode := .inTable } := ⟨h.cells, h.formatting⟩
  have htable := h.tableRule htoken
  cases token with
  | startTag tag =>
      exact .ite ((hcleared.openTag htoken).withMode _) <|
        .ite ((hcleared.openImplied (by decide)).retryIn _) <| .ite (.ite hleft h) htable
  | endTag name =>
      exact .ite (Spelled.ite hleft h) <| .ite (.ite hleft h) <| .ite h htable
  | _ => exact htable

theorem rowRule (h : b.Spelled) (htoken : token.Spelled) : (b.rowRule token).Spelled := by
  have hcleared : b.clearToRow.Spelled := h.withStack _
  have hleft : Spelled { b.clearToRow.pop with mode := .inTableBody } := ⟨h.cells, h.formatting⟩
  have htable := h.tableRule htoken
  cases token with
  | startTag tag =>
      exact .ite ((hcleared.openTag htoken).pushMark.withMode _) <| .ite (.ite hleft h) htable
  | endTag name =>
      exact .ite (Spelled.ite hleft h) <| .ite (.ite hleft h) <| .ite (.ite (.ite hleft h) h) <|
        .ite h htable
  | _ => exact htable

theorem closeCell (h : b.Spelled) : b.closeCell.Spelled :=
  clearToMark ((h.withStack _).withStack _)

theorem cellRule (h : b.Spelled) (htoken : token.Spelled) : (b.cellRule token).Spelled := by
  have hclosed : (b.closeCell.retryIn .inRow).Spelled := h.closeCell.retryIn _
  have hended (name : String) : Spelled { ((b.closeImplied ElementName.hasImpliedEnd).popThroughNamed
      name).clearToMark with mode := .inRow } :=
    (clearToMark ((h.withStack _).withStack _)).withMode _
  have hbody := h.bodyRule htoken
  cases token with
  | startTag tag =>
      exact .ite (.ite hclosed h) hbody
  | endTag name =>
      exact .ite (.ite (hended _) h) <| .ite (.ite hclosed h) <| .ite h hbody
  | _ => exact hbody

/-! ## Selection lists and templates -/

theorem closeOption (h : b.Spelled) : b.closeOption.Spelled := .ite (h.withStack _) h

theorem closeGroup (h : b.Spelled) : b.closeGroup.Spelled := .ite (h.withStack _) h

theorem closeSelect (h : b.Spelled) : b.closeSelect.Spelled := (h.withStack _).withMode _

theorem selectRule (h : b.Spelled) (htoken : token.Spelled) : (b.selectRule token).Spelled := by
  cases token with
  | characters cs => exact Spelled.ite h (h.insertText _)
  | comment data => exact h.insertComment htoken
  | startTag tag =>
      have htag : SpelledElement tag.name tag.attributes := htoken
      exact .ite (h.closeOption.openTag htag) <| .ite (h.closeOption.closeGroup.openTag htag) <|
        .ite (h.closeOption.closeGroup.addTag htag) <| .ite (Spelled.ite h.closeSelect h) <|
        .ite (.ite h.closeSelect h) <| .ite (h.metadataStart htag) h
  | endTag name =>
      refine .ite ?_ <| .ite h.closeOption <| .ite (Spelled.ite h.closeSelect h) <|
        .ite h.templateEnd h
      refine closeGroup ?_
      split
      · exact .ite (h.withStack _) h
      · exact h
  | endOfText => exact h.bodyRule htoken

theorem selectInTableRule (h : b.Spelled) (htoken : token.Spelled) :
    (b.selectInTableRule token).Spelled := by
  have hselect := h.selectRule htoken
  cases token with
  | startTag tag =>
      exact .ite h.closeSelect hselect
  | endTag name =>
      exact .ite (.ite h.closeSelect h) hselect
  | _ => exact hselect

theorem templateRule (h : b.Spelled) (htoken : token.Spelled) : (b.templateRule token).Spelled := by
  have hretried (mode : Mode) : (b.retryInTemplate mode).Spelled := ⟨h.cells, h.formatting⟩
  cases token with
  | startTag tag =>
      exact .ite (h.metadataStart htoken) <| .ite (hretried _) <| .ite (hretried _) <|
        .ite (hretried _) <| .ite (hretried _) (hretried _)
  | endTag name =>
      exact Spelled.ite h.templateEnd h
  | _ => exact h.bodyRule htoken

theorem textRule (h : b.Spelled) (token : Token) : (b.textRule token).Spelled := by
  cases token with
  | characters cs => exact h.insertText _
  | _ => exact ⟨h.cells, h.formatting⟩

/-! ## Runs -/

theorem modeRule (h : b.Spelled) (htoken : token.Spelled) : (b.modeRule token).Spelled := by
  unfold Builder.modeRule
  cases b.mode with
  | inBody => exact h.bodyRule htoken
  | text => exact h.textRule token
  | inTable => exact h.tableRule htoken
  | inTableText => exact h.tableTextRule token
  | inCaption => exact h.captionRule htoken
  | inColumnGroup => exact h.columnsRule htoken
  | inTableBody => exact h.rowsRule htoken
  | inRow => exact h.rowRule htoken
  | inCell => exact h.cellRule htoken
  | inSelect => exact h.selectRule htoken
  | inSelectInTable => exact h.selectInTableRule htoken
  | inTemplate => exact h.templateRule htoken

theorem foreignRule (h : b.Spelled) (htoken : token.Spelled) : (b.foreignRule token).Spelled := by
  have hleft : b.leaveForeign.Spelled := h.withStack _
  cases token with
  | characters cs => exact h.insertText _
  | comment data => exact h.insertComment htoken
  | startTag tag => exact .ite (hleft.modeRule htoken) (h.foreignStartTag htoken)
  | endTag name =>
      refine .ite (hleft.modeRule htoken) ?_
      split
      · exact h.withStack _
      · exact h.modeRule htoken
  | endOfText => exact h

theorem handle (h : b.Spelled) (htoken : token.Spelled) (fuel : Nat) :
    (b.handle fuel token).Spelled := by
  induction fuel generalizing b with
  | zero => exact h
  | succ fuel ih =>
      have houtcome : Outcome.Spelled
          (if b.takesForeign token then b.foreignRule token else b.modeRule token) :=
        .ite (h.foreignRule htoken) (h.modeRule htoken)
      unfold Builder.handle
      dsimp only
      split
      · rename_i heq
        rwa [heq] at houtcome
      · rename_i heq
        rw [heq] at houtcome
        exact ih houtcome

/-- One token. -/
theorem take (h : b.Spelled) (htoken : token.Spelled) : (b.take token).Spelled :=
  have hsame : Spelled { b with skipsLineFeed := false } := ⟨h.cells, h.formatting⟩
  .ite hsame (hsame.handle htoken _)

theorem takeScanned (h : b.Spelled) (htoken : token.Spelled) : (b.takeScanned token).Spelled := by
  cases token with
  | startTag tag => exact take ⟨h.cells, h.formatting⟩ htoken
  | characters cs => exact List.foldlRecOn cs _ h fun _ h c _ => h.take trivial
  | _ => exact h.take htoken

/-- A whole text. -/
theorem run (h : b.Spelled) (fuel : Nat) (cs : List Char) : (Builder.run fuel b cs).Spelled := by
  induction fuel generalizing b cs with
  | zero => exact h
  | succ fuel ih =>
      unfold Builder.run
      split
      · exact h
      · refine ih ?_ _
        split
        · rename_i htoken
          exact takeScanned ⟨h.cells, h.formatting⟩ (spelled_scan htoken)
        · exact ⟨h.cells, h.formatting⟩

/-- The tree below a cell. -/
theorem tree (h : b.Spelled) {fuel id : Nat} {tree : Tree Unit}
    (htree : b.treeOf? fuel id = some tree) : tree.Spelled := by
  induction fuel generalizing id tree with
  | zero => cases htree
  | succ fuel ih =>
      unfold Builder.treeOf? at htree
      split at htree
      · rename_i name attributes children _ _ hcell
        cases htree
        have hname : SpelledElement name.name attributes := h.cells _ _ hcell
        refine ⟨hname.tag, fun entry hentry => hname.names entry (Table.mem_of_mem_ofEntries hentry),
          Table.nodup_keys_ofEntries attributes, Tree.spelledForest_iff.2 fun child hchild => ?_⟩
        obtain ⟨id, -, hid⟩ := List.mem_filterMap.1 hchild
        exact ih hid
      · cases htree
        exact trivial
      · rename_i hcell
        cases htree
        exact h.cells _ _ hcell
      · cases htree

end Spelled
end Builder

/-- Whatever a text is, the names and comments of its nodes are read as they are written. -/
theorem spelledForest_parseMarkup (text : String) :
    Tree.Spelled.spelledForest (parseMarkup text) := by
  have hrun := Builder.Spelled.start.run (normalize text).length (normalize text)
  refine Tree.spelledForest_iff.2 fun tree htree => ?_
  obtain ⟨id, -, hid⟩ := List.mem_filterMap.1 htree
  exact (hrun.handle (show Token.Spelled .endOfText from trivial) _).tree hid

end Markup
end LiveTemplate
