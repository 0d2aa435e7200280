import LiveTemplate.Proofs.Dom.Planted
import LiveTemplate.Proofs.Markup.Constructed
import LiveTemplate.Proofs.Markup.Plain

/-!
# Installing markup that was serialized

A node writes its children as markup, and a container takes markup for its children.  Where the
children are settled, the one undoes the other: what is installed is what was written, so a node
that is given its own markup keeps its children and its markup.
-/

namespace LiveTemplate

namespace Dom

variable {dom dom' : Dom} {node node' : NodeId} {cell : NodeCell}

/-- A container that is given its own markup keeps its children, down to the last leaf, and its
markup, when they are settled. -/
theorem setMarkup_innerMarkup {markup : String} (hcell : dom.cell? node = some cell)
    (hcontainer : cell.isContainer = true)
    (hsettled : Tree.settledContent (Markup.parseMarkup markup) = true) :
    ∃ own tree tree', (dom.setMarkup node markup).innerMarkup? node = some own ∧
      (dom.setMarkup node markup).tree? node = some tree ∧
      ((dom.setMarkup node markup).setMarkup node own).tree? node = some tree' ∧
      Tree.bare.bareForest tree'.children = Tree.bare.bareForest tree.children ∧
      ((dom.setMarkup node markup).setMarkup node own).innerMarkup? node = some own := by
  obtain ⟨hforest, hmark⟩ : Tree.settled.settledForest [.html "html"] (Markup.parseMarkup markup) =
      true ∧ (Tree.outerChars.forestChars (Markup.parseMarkup markup)).head? ≠ some '\ufeff' := by
    simpa [Tree.settledContent] using hsettled
  have hagain := Markup.parseMarkup_forestMarkup (Markup.spelledForest_parseMarkup markup) hforest
    hmark
  obtain ⟨nodes, hcell', -⟩ := setMarkup_of_container hcell hcontainer markup
  have hcontainer' : (cell.withChildren nodes).isContainer = true := by
    rw [← hcontainer]
    cases cell <;> rfl
  obtain ⟨tree, htree, hbare⟩ := tree?_setMarkup hcell hcontainer markup
  obtain ⟨tree', htree', hbare'⟩ := tree?_setMarkup hcell' hcontainer'
    (Tree.forestMarkup (Markup.parseMarkup markup))
  refine ⟨_, tree, tree', innerMarkup?_setMarkup hcell hcontainer markup, htree, htree', ?_, ?_⟩
  · rw [hbare', hagain, hbare]
  · rw [innerMarkup?_setMarkup hcell' hcontainer', hagain]

/-- A document with nothing but an element without children. -/
def emptyDiv : Dom := ⟨#[.element "div" [] []]⟩

/-- A paragraph that the next one closes, a reference, a table without the tags of its body and row,
a line break and a comment. -/
def looseMarkup : String :=
  "<p title=\"a\">x &amp; y<p><b>z</b><table><td>1</table><br><!--c-->"

/-- What is left out is there from the first time on. -/
theorem setMarkup_innerMarkup_loose :
    Tree.settledContent (Markup.parseMarkup looseMarkup) = true ∧
    ∃ own tree tree', (emptyDiv.setMarkup 0 looseMarkup).innerMarkup? 0 = some own ∧
      (emptyDiv.setMarkup 0 looseMarkup).tree? 0 = some tree ∧
      ((emptyDiv.setMarkup 0 looseMarkup).setMarkup 0 own).tree? 0 = some tree' ∧
      Tree.bare.bareForest tree'.children = Tree.bare.bareForest tree.children ∧
      ((emptyDiv.setMarkup 0 looseMarkup).setMarkup 0 own).innerMarkup? 0 = some own := by
  have hcell : emptyDiv.cell? 0 = some (.element "div" [] []) := rfl
  have hsettled : Tree.settledContent (Markup.parseMarkup looseMarkup) = true := by decide +kernel
  exact ⟨hsettled, setMarkup_innerMarkup hcell rfl hsettled⟩

/-- Content that is not settled changes when a node is given its own markup: a line feed at the
front of preformatted text is dropped each time, a carriage return becomes a line feed, and a form
inside another one loses its element. -/
theorem setMarkup_innerMarkup_drifts :
    ((emptyDiv.setMarkup 0 "<pre>\n\nx</pre>").innerMarkup? 0 = some "<pre>\nx</pre>" ∧
      ((emptyDiv.setMarkup 0 "<pre>\n\nx</pre>").setMarkup 0 "<pre>\nx</pre>").innerMarkup? 0 =
        some "<pre>x</pre>") ∧
    ((emptyDiv.setMarkup 0 "a&#13;b").innerMarkup? 0 = some "a\rb" ∧
      ((emptyDiv.setMarkup 0 "a&#13;b").setMarkup 0 "a\rb").innerMarkup? 0 = some "a\nb") ∧
    ((emptyDiv.setMarkup 0 "<form><div></form><form>x").innerMarkup? 0 =
        some "<form><div><form>x</form></div></form>" ∧
      ((emptyDiv.setMarkup 0 "<form><div></form><form>x").setMarkup 0
        "<form><div><form>x</form></div></form>").innerMarkup? 0 =
        some "<form><div>x</div></form>") := by
  decide +kernel

/-- Plain children, written as markup and installed in another container, give the same children:
tags, attributes in their order and texts. -/
theorem setMarkup_innerMarkup_of_plain {tree : Tree NodeId} (htree : dom.tree? node = some tree)
    (hplain : Tree.Plain.plainForest tree.children) (hseparate : Tree.Separate tree.children)
    (hcell : dom'.cell? node' = some cell) (hcontainer : cell.isContainer = true) :
    ∃ markup tree', dom.innerMarkup? node = some markup ∧
      (dom'.setMarkup node' markup).tree? node' = some tree' ∧
      Tree.bare.bareForest tree'.children = Tree.bare.bareForest tree.children := by
  obtain ⟨tree', htree', hbare⟩ := tree?_setMarkup hcell hcontainer tree.innerMarkup
  refine ⟨tree.innerMarkup, tree', ?_, htree', ?_⟩
  · exact innerMarkup?_of_tree? htree
  · rw [hbare, Tree.innerMarkup, Tree.parseMarkup_of_plain hplain hseparate]

/-- A text with marks, and an element with attributes around a line feed. -/
def greetingTrees : List (Tree NodeId) :=
  [.text 1 "a < \"b\" & 'c'/&amp;",
    .element 2 "span" [("data-x2", "<\"&>"), ("id", "s")] [.text 3 "\n"]]

/-- Two divisions, the first with the greeting in it. -/
def greeting : Dom :=
  ⟨#[.element "div" [] [1, 2], .text "a < \"b\" & 'c'/&amp;",
    .element "span" [("data-x2", "<\"&>"), ("id", "s")] [3], .text "\n", .element "div" [] []]⟩

theorem plain_greetingTrees : Tree.Plain.plainForest greetingTrees := by
  have htext : PlainText "a < \"b\" & 'c'/&amp;" := ⟨by decide, by decide, by decide⟩
  have hbreak : PlainText "\n" := ⟨by decide, by decide, by decide⟩
  have hdata : PlainName "data-x2" :=
    ⟨'d', ['a', 't', 'a', '-', 'x', '2'], rfl, rfl, List.forall_iff_forall_mem.1 (by decide)⟩
  have hid : PlainName "id" := ⟨'i', ['d'], rfl, rfl, List.forall_iff_forall_mem.1 (by decide)⟩
  refine ⟨⟨by decide, htext⟩, ⟨.inr rfl, by decide, ?_, .singleton _, ⟨by decide, hbreak⟩, trivial⟩,
    trivial⟩
  simp only [List.forall_mem_cons, List.not_mem_nil, false_imp_iff, implies_true, and_true]
  exact ⟨⟨hdata, by decide, by decide, by decide⟩, hid, by decide, by decide, by decide⟩

/-- The greeting is copied into the other division by its markup. -/
theorem setMarkup_innerMarkup_greeting :
    ∃ tree markup tree', greeting.tree? 0 = some tree ∧
      Tree.Plain.plainForest tree.children ∧ Tree.Separate tree.children ∧
      greeting.innerMarkup? 0 = some markup ∧ (greeting.setMarkup 4 markup).tree? 4 = some tree' ∧
      Tree.bare.bareForest tree'.children = Tree.bare.bareForest tree.children := by
  have htree : greeting.tree? 0 = some (.element 0 "div" [] greetingTrees) := rfl
  have hcell : greeting.cell? 4 = some (.element "div" [] []) := rfl
  have hseparate : Tree.Separate greetingTrees := by
    simp [greetingTrees, Tree.Separate, Tree.isText]
  obtain ⟨markup, tree', hcopied⟩ :=
    setMarkup_innerMarkup_of_plain htree plain_greetingTrees hseparate hcell rfl
  exact ⟨_, markup, tree', htree, plain_greetingTrees, hseparate, hcopied⟩

end Dom

end LiveTemplate
