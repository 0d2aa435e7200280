import LiveTemplate.Proofs.Acyclic
import LiveTemplate.Proofs.Dom.Planted
import LiveTemplate.Proofs.Selector.Search

/-!
# Graphs of nodes

Nothing stops a program from appending a node to itself, or to what is below it, and then no
traversal of that node comes to an end.  That is the only way to make a node its own descendant:
what markup and texts hang below a node is new.  As long as no append does it, each traversal of
each node ends, however often nodes are shared.
-/

namespace LiveTemplate

open Relation

/-- Only a container takes the children that it is given. -/
theorem NodeCell.withChildren_children_subset (cell : NodeCell) (children : List NodeId) :
    (cell.withChildren children).children ⊆ children := by
  cases cell with
  | element tag attributes others => exact List.Subset.refl _
  | document others => exact List.Subset.refl _
  | text data => exact List.nil_subset _
  | comment data => exact List.nil_subset _

theorem NodeCell.withChildren_children (cell : NodeCell) (children : List NodeId)
    (h : cell.isContainer = true) : (cell.withChildren children).children = children := by
  cases cell with
  | element tag attributes others => rfl
  | document others => rfl
  | text data => cases h
  | comment data => cases h

theorem NodeCell.withAttributes_children (cell : NodeCell) (attributes : Table String) :
    (cell.withAttributes attributes).children = cell.children := by
  cases cell <;> rfl

namespace Dom

variable {dom dom' : Dom} {node : NodeId}

/-! ## Children -/

/-- A node names its children. -/
def Names (dom : Dom) (parent child : NodeId) : Prop := child ∈ dom.childrenOf parent

/-- A node is a descendant of another one. -/
def Below (dom : Dom) (ancestor node : NodeId) : Prop := TransGen dom.Names ancestor node

/-- A node is another one or a descendant of it. -/
def Reaches (dom : Dom) (ancestor node : NodeId) : Prop := ReflTransGen dom.Names ancestor node

theorem names_iff {parent child : NodeId} :
    dom.Names parent child ↔ ∃ cell, dom.cell? parent = some cell ∧ child ∈ cell.children := by
  unfold Names childrenOf
  cases dom.cell? parent <;> simp

theorem childrenOf_alloc (dom : Dom) (cell : NodeCell) (m : NodeId) :
    (dom.alloc cell).1.childrenOf m =
      if m = dom.cells.size then cell.children else dom.childrenOf m := by
  simp only [alloc, childrenOf, cell?, Array.getElem?_push]
  split <;> rfl

theorem childrenOf_modify (dom : Dom) (node : NodeId) (f : NodeCell → NodeCell) (m : NodeId) :
    (dom.modify node f).childrenOf m =
      if m = node then ((dom.cell? node).map fun cell => (f cell).children).getD []
      else dom.childrenOf m := by
  unfold childrenOf
  rw [cell?_modify]
  by_cases hm : m = node
  · subst hm
    rw [if_pos rfl, if_pos rfl, Option.map_map]
    rfl
  · rw [if_neg hm, if_neg (Ne.symm hm)]

theorem exists_depth_mem_footprint {ancestor : NodeId} (h : dom.Reaches ancestor node) :
    ∃ depth, node ∈ dom.footprint depth ancestor := by
  induction h using ReflTransGen.head_induction_on with
  | refl => exact ⟨0, mem_footprint_self dom 0 node⟩
  | head hchild _ ih =>
      obtain ⟨depth, hmem⟩ := ih
      exact ⟨depth + 1, List.mem_cons_of_mem _ (List.mem_flatMap_of_mem hchild hmem)⟩

/-! ## Traversals of nodes that are below themselves -/

/-- A node that has a tree has one for each node below it, and that is not deeper. -/
theorem exists_treeWithin?_of_below {ancestor : NodeId} (h : dom.Below ancestor node) {depth : Nat}
    {tree : Tree NodeId} (htree : dom.treeWithin? (depth + 1) ancestor = some tree) :
    ∃ below, dom.treeWithin? depth node = some below := by
  induction h using TransGen.head_induction_on generalizing depth tree with
  | single hchild =>
      obtain ⟨cell, trees, hcell, htrees, -⟩ := treeWithin?_succ_eq_some.1 htree
      rw [Names, childrenOf_of_cell? hcell] at hchild
      obtain ⟨below, -, hbelow⟩ := exists_mem_of_mapM htrees hchild
      exact ⟨below, hbelow⟩
  | head hchild _ ih =>
      obtain ⟨cell, trees, hcell, htrees, -⟩ := treeWithin?_succ_eq_some.1 htree
      rw [Names, childrenOf_of_cell? hcell] at hchild
      obtain ⟨below, -, hbelow⟩ := exists_mem_of_mapM htrees hchild
      exact ih (treeWithin?_mono hbelow (Nat.le_succ depth))

/-- A node that is below itself has no tree, however deep one looks. -/
theorem treeWithin?_of_below_self (h : dom.Below node node) (depth : Nat) :
    dom.treeWithin? depth node = none := by
  induction depth with
  | zero => rfl
  | succ depth ih =>
      refine Option.eq_none_iff_forall_ne_some.2 fun tree htree => ?_
      obtain ⟨below, hbelow⟩ := exists_treeWithin?_of_below h htree
      exact absurd (ih.symm.trans hbelow) (Option.some_ne_none below).symm

/-! ## Heaps without cycles -/

/-- Every child is there, and no node is below itself. -/
structure Treelike (dom : Dom) : Prop where
  there {parent child : NodeId} (h : dom.Names parent child) : child < dom.cells.size
  acyclic : Acyclic dom.Names

namespace Treelike

theorem empty : Treelike {} where
  there h := absurd h List.not_mem_nil
  acyclic place h := by
    obtain ⟨child, hchild, -⟩ := TransGen.head'_iff.1 h
    exact absurd hchild List.not_mem_nil

theorem lt_of_reaches (h : dom.Treelike) {ancestor : NodeId} (hreach : dom.Reaches ancestor node)
    (hlt : ancestor < dom.cells.size) : node < dom.cells.size := by
  cases hreach with
  | refl => exact hlt
  | tail _ hchild => exact h.there hchild

/-- Where a node has no tree of a depth, a way leads further down than that. -/
theorem exists_way (h : dom.Treelike) {depth : Nat} (hnone : dom.treeWithin? depth node = none)
    (hlt : node < dom.cells.size) : ∃ way : List NodeId, way.length = depth ∧
      (node :: way).IsChain dom.Names ∧ ∀ m ∈ node :: way, m < dom.cells.size := by
  induction depth generalizing node with
  | zero => exact ⟨[], rfl, .singleton node, fun m hm => List.mem_singleton.1 hm ▸ hlt⟩
  | succ depth ih =>
      obtain ⟨cell, hcell⟩ := exists_cell? hlt
      have hchildren : cell.children.mapM (dom.treeWithin? depth) = none := by
        refine Option.eq_none_iff_forall_ne_some.2 fun trees htrees => ?_
        cases hnone.symm.trans (treeWithin?_succ_eq_some.2 ⟨cell, trees, hcell, htrees, rfl⟩)
      obtain ⟨child, hchild, hmissing⟩ := exists_of_mapM_eq_none hchildren
      have hnames : dom.Names node child := names_iff.2 ⟨cell, hcell, hchild⟩
      obtain ⟨way, hlength, hway, hthere⟩ := ih hmissing (h.there hnames)
      refine ⟨child :: way, ?_, .cons_cons hnames hway, List.forall_mem_cons.2 ⟨hlt, hthere⟩⟩
      rw [List.length_cons, hlength]

/-- Every node has a tree. -/
theorem exists_tree? (h : dom.Treelike) (hlt : node < dom.cells.size) :
    ∃ tree, dom.tree? node = some tree := by
  refine Option.ne_none_iff_exists'.1 fun hnone => ?_
  obtain ⟨way, hlength, hway, hthere⟩ := h.exists_way hnone hlt
  have hle := h.acyclic.length_le hway hthere
  rw [List.length_cons, hlength] at hle
  exact Nat.not_succ_le_self _ hle

/-! ## What keeps a heap without cycles -/

/-- A new node is below nothing. -/
theorem alloc (h : dom.Treelike) {cell : NodeCell}
    (hchildren : ∀ child ∈ cell.children, child < dom.cells.size) :
    (dom.alloc cell).1.Treelike := by
  have hnames {parent child : NodeId} (hnew : (dom.alloc cell).1.Names parent child) :
      dom.Names parent child ∨ parent = dom.cells.size ∧ child < dom.cells.size := by
    rw [Names, childrenOf_alloc] at hnew
    split at hnew
    · next hparent => exact .inr ⟨hparent, hchildren child hnew⟩
    · exact .inl hnew
  constructor
  · intro parent child hnew
    rw [size_alloc]
    rcases hnames hnew with hold | ⟨-, hlt⟩
    · exact Nat.lt_succ_of_lt (h.there hold)
    · exact Nat.lt_succ_of_lt hlt
  · refine h.acyclic.of_target dom.cells.size fun parent child hnew => ?_
    refine (hnames hnew).imp_right fun hat => ?_
    exact ⟨hat.1, fun hreach => Nat.lt_irrefl _ (h.lt_of_reaches hreach hat.2)⟩

/-- A node may get new children that it is not reached from. -/
theorem modify (h : dom.Treelike) {f : NodeCell → NodeCell}
    (hchildren : ∀ cell, dom.cell? node = some cell → ∀ child ∈ (f cell).children,
      child ∈ cell.children ∨ child < dom.cells.size ∧ ¬ dom.Reaches child node) :
    (dom.modify node f).Treelike := by
  have hnames {parent child : NodeId} (hnew : (dom.modify node f).Names parent child) :
      dom.Names parent child ∨
        parent = node ∧ child < dom.cells.size ∧ ¬ dom.Reaches child node := by
    rw [Names, childrenOf_modify] at hnew
    split at hnew
    · next hparent =>
        subst hparent
        cases hcell : dom.cell? parent with
        | none =>
            rw [hcell] at hnew
            exact absurd hnew List.not_mem_nil
        | some cell =>
            rw [hcell] at hnew
            rcases hchildren cell hcell child hnew with hold | hadded
            · exact .inl (names_iff.2 ⟨cell, hcell, hold⟩)
            · exact .inr ⟨rfl, hadded⟩
    · exact .inl hnew
  constructor
  · intro parent child hnew
    rw [show (dom.modify node f).cells.size = dom.cells.size from Array.size_modify]
    rcases hnames hnew with hold | ⟨-, hlt, -⟩
    · exact h.there hold
    · exact hlt
  · exact h.acyclic.of_target node fun parent child hnew =>
      (hnames hnew).imp_right fun hat => ⟨hat.1, hat.2.2⟩

/-- A node may lose children. -/
theorem modify_of_subset (h : dom.Treelike) {f : NodeCell → NodeCell}
    (hchildren : ∀ cell, dom.cell? node = some cell → (f cell).children ⊆ cell.children) :
    (dom.modify node f).Treelike :=
  h.modify fun cell hcell _ hchild => .inl (hchildren cell hcell hchild)

/-- Nodes that have been added may be hung below an older one. -/
theorem hang {nodes : List NodeId} {f : NodeCell → NodeCell} (h : dom'.Treelike)
    (hadded : Added dom dom' nodes) (hlt : node < dom.cells.size)
    (hchildren : ∀ cell, (f cell).children ⊆ nodes) : (dom'.modify node f).Treelike := by
  refine h.modify fun cell _ child hchild => .inr ⟨?_, fun hreach => ?_⟩
  · exact (hadded.distinct 0).2 child (List.mem_flatMap_of_mem (hchildren cell hchild)
      (mem_footprint_self dom' 0 child))
  · obtain ⟨depth, hmem⟩ := exists_depth_mem_footprint hreach
    exact Nat.not_le_of_lt hlt
      (hadded.fresh depth node (List.mem_flatMap_of_mem (hchildren cell hchild) hmem))

/-- A node may be put above nodes that have been added. -/
theorem alloc_of_added (h : dom'.Treelike) (cell : NodeCell)
    (hadded : Added dom dom' cell.children) : (dom'.alloc cell).1.Treelike :=
  h.alloc fun child hchild => (hadded.distinct 0).2 child
    (List.mem_flatMap_of_mem hchild (mem_footprint_self dom' 0 child))

theorem addForest {ι : Type} (h : dom.Treelike) (trees : List (Tree ι)) :
    (dom.addForest trees).1.Treelike := by
  refine addForest.induct
    (fun dom (tree : Tree ι) => dom.Treelike → (dom.addTree tree).1.Treelike)
    (fun dom (trees : List (Tree ι)) => dom.Treelike → (dom.addForest trees).1.Treelike)
    ?element ?text ?comment ?document ?nil ?cons dom trees h
  case element =>
    intro dom label tag attributes children dom' nodes hchildren ih h
    have hadded := added_addForest dom children
    rw [hchildren] at ih hadded
    rw [addTree, hchildren]
    exact (ih h).alloc_of_added (.element tag attributes nodes) hadded
  case text => exact fun dom label data h => h.alloc_of_added (.text data) (.nil dom)
  case comment => exact fun dom label data h => h.alloc_of_added (.comment data) (.nil dom)
  case document =>
    intro dom label children dom' nodes hchildren ih h
    have hadded := added_addForest dom children
    rw [hchildren] at ih hadded
    rw [addTree, hchildren]
    exact (ih h).alloc_of_added (.document nodes) hadded
  case nil => exact fun dom h => h
  case cons =>
    intro dom tree rest dom' child htree dom'' nodes hrest ihtree ihrest h
    rw [htree] at ihtree
    rw [hrest] at ihrest
    rw [Dom.addForest, htree]
    simp only [hrest]
    exact ihrest (ihtree h)

theorem setText (h : dom.Treelike) (node : NodeId) (text : String) :
    (dom.setText node text).Treelike := by
  unfold Dom.setText
  split
  · exact h.modify_of_subset fun _ _ => List.nil_subset _
  · exact h.modify_of_subset fun _ _ => List.nil_subset _
  · next hcell =>
      split
      · exact h.modify_of_subset fun cell _ =>
          List.Subset.trans (cell.withChildren_children_subset []) (List.nil_subset _)
      · have hadded : Added dom (dom.alloc (.text text)).1 [dom.cells.size] :=
          Added.alloc (.text text) (.nil dom)
        exact (h.alloc_of_added (.text text) (.nil dom)).hang hadded (lt_size_of_cell? hcell)
          fun cell => cell.withChildren_children_subset _
  · exact h

theorem setMarkup (h : dom.Treelike) (node : NodeId) (markup : String) :
    (dom.setMarkup node markup).Treelike := by
  unfold Dom.setMarkup
  split
  · next hcell =>
      split
      · exact (h.addForest _).hang (added_addForest dom _) (lt_size_of_cell? hcell)
          fun cell => cell.withChildren_children_subset _
      · exact h
  · exact h

/-- A node may be appended to one that it does not reach, and to a leaf. -/
theorem append (h : dom.Treelike) {parent child : NodeId} (hlt : child < dom.cells.size)
    (hopen : ∀ cell, dom.cell? parent = some cell → cell.isContainer = true →
      ¬ dom.Reaches child parent) : (dom.append parent child).Treelike := by
  refine h.modify fun cell hcell other hother => ?_
  cases hcontainer : cell.isContainer with
  | true =>
      rw [cell.withChildren_children _ hcontainer, List.mem_append, List.mem_singleton] at hother
      rcases hother with hold | rfl
      · exact .inl hold
      · exact .inr ⟨hlt, hopen cell hcell hcontainer⟩
  | false =>
      have hnone : (cell.withChildren (cell.children ++ [child])).children = [] := by
        cases cell with
        | text data => rfl
        | comment data => rfl
        | element tag attributes children => cases hcontainer
        | document children => cases hcontainer
      rw [hnone] at hother
      exact absurd hother List.not_mem_nil

theorem setAttributes (h : dom.Treelike) (node : NodeId)
    (attributes : NodeCell → Table String) :
    (dom.modify node fun cell => cell.withAttributes (attributes cell)).Treelike :=
  h.modify_of_subset fun cell _ => by rw [cell.withAttributes_children]; exact List.Subset.refl _

end Treelike

end Dom

/-! ## Operations on nodes -/

/-- What a program does with nodes. -/
inductive NodeOperation
  /-- Make an element without attributes and children. -/
  | element (tag : String)
  /-- Make a text. -/
  | text (data : String)
  /-- Make a comment. -/
  | comment (data : String)
  /-- Make a document without children. -/
  | document
  /-- Append a child, be it used elsewhere or not. -/
  | append (parent child : NodeId)
  /-- Replace the text of a node. -/
  | setText (node : NodeId) (text : String)
  /-- Replace what is below a node by what a markup text gives. -/
  | setMarkup (node : NodeId) (markup : String)
  /-- Set an attribute. -/
  | setAttribute (node : NodeId) (name value : String)
  /-- Remove an attribute. -/
  | removeAttribute (node : NodeId) (name : String)

namespace NodeOperation

/-- The heap behind an operation. -/
def apply : NodeOperation → Dom → Dom
  | element tag, dom => (dom.alloc (.element tag [] [])).1
  | text data, dom => (dom.alloc (.text data)).1
  | comment data, dom => (dom.alloc (.comment data)).1
  | document, dom => (dom.alloc (.document [])).1
  | append parent child, dom => dom.append parent child
  | setText node content, dom => dom.setText node content
  | setMarkup node markup, dom => dom.setMarkup node markup
  | setAttribute node name value, dom => dom.setAttribute node name value
  | removeAttribute node name, dom => dom.removeAttribute node name

/-- The nodes that an operation is given. -/
def operands : NodeOperation → List NodeId
  | append parent child => [parent, child]
  | setText node _ => [node]
  | setMarkup node _ => [node]
  | setAttribute node _ _ => [node]
  | removeAttribute node _ => [node]
  | _ => []

/-- A node would be appended to itself or to a descendant of it.  A leaf takes no children. -/
def ClosesCycle (dom : Dom) : NodeOperation → Prop
  | append parent child =>
    (∃ cell, dom.cell? parent = some cell ∧ cell.isContainer = true) ∧ dom.Reaches child parent
  | _ => False

end NodeOperation

namespace Dom

/-- The heaps that a program gets by operations on nodes that are there, all of them permitted at
their time. -/
inductive Reachable (permitted : Dom → NodeOperation → Prop) : Dom → Prop
  | empty : Reachable permitted {}
  | step {dom : Dom} {operation : NodeOperation} (h : Reachable permitted dom)
      (hthere : ∀ node ∈ operation.operands, node < dom.cells.size)
      (hpermitted : permitted dom operation) : Reachable permitted (operation.apply dom)

variable {dom : Dom}

/-- An operation that does not close a cycle leaves none. -/
theorem Treelike.apply (h : dom.Treelike) {operation : NodeOperation}
    (hthere : ∀ node ∈ operation.operands, node < dom.cells.size)
    (hopen : ¬ operation.ClosesCycle dom) : (operation.apply dom).Treelike := by
  cases operation with
  | element tag => exact h.alloc_of_added (.element tag [] []) (.nil dom)
  | text data => exact h.alloc_of_added (.text data) (.nil dom)
  | comment data => exact h.alloc_of_added (.comment data) (.nil dom)
  | document => exact h.alloc_of_added (.document []) (.nil dom)
  | append parent child =>
      refine h.append (hthere child (by simp [NodeOperation.operands])) ?_
      exact fun cell hcell hcontainer hreach => hopen ⟨⟨cell, hcell, hcontainer⟩, hreach⟩
  | setText node text => exact h.setText node text
  | setMarkup node markup => exact h.setMarkup node markup
  | setAttribute node name value => exact h.setAttributes node _
  | removeAttribute node name => exact h.setAttributes node _

/-- An append that closes a cycle makes the child its own descendant. -/
theorem below_self_of_closesCycle {parent child : NodeId}
    (h : (NodeOperation.append parent child).ClosesCycle dom) :
    (dom.append parent child).Below child child := by
  obtain ⟨⟨cell, hcell, hcontainer⟩, hreach⟩ := h
  have hmore (a b : NodeId) (hnames : dom.Names a b) : (dom.append parent child).Names a b := by
    rw [Names, Dom.append, childrenOf_modify]
    split
    · next hparent =>
        rw [hparent, Names, childrenOf_of_cell? hcell] at hnames
        rw [hcell, Option.map_some, Option.getD_some, cell.withChildren_children _ hcontainer]
        exact List.mem_append_left _ hnames
    · exact hnames
  have hnew : (dom.append parent child).Names parent child := by
    rw [Names, Dom.append, childrenOf_modify, if_pos rfl, hcell, Option.map_some, Option.getD_some,
      cell.withChildren_children _ hcontainer]
    exact List.mem_append_right _ (List.mem_singleton_self child)
  exact .tail' (ReflTransGen.mono hmore _ _ hreach) hnew

/-- As long as no node is appended to itself or to a descendant of it, no node comes to be its own
descendant, and every traversal of every node ends: its markup is written, its text is collected,
and queries below it find what they find. -/
theorem traversals_end (h : dom.Reachable fun dom operation => ¬ operation.ClosesCycle dom) :
    (∀ node, ¬ dom.Below node node) ∧
    ∀ node < dom.cells.size, ∃ tree, dom.tree? node = some tree ∧
      dom.outerMarkup? node = some tree.outerMarkup ∧
      dom.innerMarkup? node = some tree.innerMarkup ∧
      dom.textContent? node = some tree.textContent ∧
      ∀ selector, ∃ nodes, dom.allMatches? node selector = some nodes ∧
        dom.firstMatch? node selector = some nodes.head? := by
  have htreelike : dom.Treelike := by
    induction h with
    | empty => exact .empty
    | step _ hthere hopen ih => exact ih.apply hthere hopen
  refine ⟨htreelike.acyclic, fun node hlt => ?_⟩
  obtain ⟨tree, htree⟩ := htreelike.exists_tree? hlt
  refine ⟨tree, htree, outerMarkup?_of_tree? htree, innerMarkup?_of_tree? htree, ?_, ?_⟩
  · rw [textContent?, htree, Option.map_some]
  · exact fun selector => ⟨_, allMatches?_eq htree selector, firstMatch?_eq htree selector⟩

/-- A list whose one item stands in it twice. -/
def sharedItems : Dom :=
  (NodeOperation.append 0 1).apply ((NodeOperation.append 0 1).apply
    ((NodeOperation.element "li").apply ((NodeOperation.element "ul").apply {})))

/-- The same list with markup in its item. -/
def filledItems : Dom := (NodeOperation.setMarkup 1 "<b>x</b>").apply sharedItems

theorem traversals_end_filledItems :
    ∃ tree, filledItems.tree? 0 = some tree ∧
      filledItems.textContent? 0 = some tree.textContent ∧
      filledItems.outerMarkup? 0 =
        some "<ul><li><b>x</b></li><li><b>x</b></li></ul>" := by
  -- An item without children is only reached from itself.
  have hopen {dom : Dom} (hleaf : dom.childrenOf 1 = []) : ¬ dom.Reaches 1 0 := by
    intro hreach
    rcases hreach.cases_head with heq | ⟨child, hchild, -⟩
    · exact absurd heq (by decide)
    · rw [Names, hleaf] at hchild
      exact absurd hchild List.not_mem_nil
  have hshared : sharedItems.Reachable fun dom operation => ¬ operation.ClosesCycle dom := by
    refine .step (.step (.step (.step .empty ?_ id) ?_ id) ?_ ?_) ?_ ?_
    · decide
    · decide
    · decide
    · exact fun hcloses => hopen rfl hcloses.2
    · decide
    · exact fun hcloses => hopen rfl hcloses.2
  have hfilled : filledItems.Reachable fun dom operation => ¬ operation.ClosesCycle dom :=
    .step hshared (by decide) id
  obtain ⟨tree, htree, -, -, htext, -⟩ := (traversals_end hfilled).2 0 (by decide +kernel)
  exact ⟨tree, htree, htext, by decide +kernel⟩

/-- An element that has been appended to itself. -/
def selfAppended (tag : String) : Dom :=
  (NodeOperation.append 0 0).apply ((NodeOperation.element tag).apply {})

/-- Appending an element to itself makes it its own descendant.  Then its text is not collected at
any depth, no query below it ends, and its markup is not written either, unless its tag stands for
itself. -/
theorem traversals_of_selfAppended :
    (selfAppended "br").Reachable (fun _ _ => True) ∧ (selfAppended "br").Below 0 0 ∧
      (∀ depth, (selfAppended "br").treeWithin? depth 0 = none) ∧
      (∀ depth selector, (selfAppended "br").searchWithin? selector
        (fun node found => (found ++ [node], true)) depth 0 { gathered := [] } = none) ∧
      (selfAppended "div").Reachable (fun _ _ => True) ∧
      ∀ depth, (selfAppended "div").outerWithin? depth 0 = none := by
  have hreachable (tag : String) : (selfAppended tag).Reachable fun _ _ => True := by
    refine .step (.step .empty ?_ trivial) ?_ trivial
    · exact fun node hnode => absurd hnode List.not_mem_nil
    · intro node hnode
      simp only [NodeOperation.operands, List.mem_cons, List.not_mem_nil, or_false, or_self]
        at hnode
      exact hnode ▸ Nat.zero_lt_one
  have hbelow : (selfAppended "br").Below 0 0 :=
    below_self_of_closesCycle ⟨⟨.element "br" [] [], rfl, rfl⟩, .refl⟩
  have hsearch (depth : Nat) (selector : Selector) (search : Search (List NodeId)) :
      (selfAppended "br").searchWithin? selector (fun node found => (found ++ [node], true))
        depth 0 search = none := by
    induction depth generalizing search with
    | zero => rfl
    | succ depth ih =>
        rw [searchWithin?, show (selfAppended "br").childrenOf 0 = [0] from rfl, searchEach]
        split <;> simp [Search.visit, ih]
  have houter (depth : Nat) : (selfAppended "div").outerWithin? depth 0 = none := by
    induction depth with
    | zero => rfl
    | succ depth ih =>
        have hvoid : Tree.isVoidTag "div" = false := by decide +kernel
        rw [outerWithin?, show (selfAppended "div").cell? 0 = some (.element "div" [] [0]) from rfl]
        simp [hvoid, ih]
  exact ⟨hreachable "br", hbelow, treeWithin?_of_below_self hbelow,
    fun depth selector => hsearch depth selector _, hreachable "div", houter⟩

end Dom

end LiveTemplate
