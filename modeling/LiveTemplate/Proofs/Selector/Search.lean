import LiveTemplate.Proofs.Dom.Positions
import LiveTemplate.Proofs.Dom.Trees
import LiveTemplate.Selector.Query

/-!
# Queries in document order

A search leaves behind what its visitor makes of the matching descendants, shown one after another
in document order, until it wants no more; and it comes back with the ancestors that it started
with, wherever it was ended.  So a query for all matches lists them, and a query for one match finds
the first of them.
-/

namespace LiveTemplate

variable {ι α : Type}

namespace Tree

/-- A node without what is below it. -/
def head : Tree ι → Tree ι
  | .element label tag attributes _ => .element label tag attributes []
  | .document label _ => .document label []
  | leaf => leaf

end Tree

/-! ## Nodes as selectors look at them -/

namespace Selector

theorem accepts_head_compound (compound : Compound) (node : Tree ι) :
    compound.accepts node.head = compound.accepts node := by
  cases node <;> rfl

theorem metAlong_map_head (compounds : List Compound) (path : List (Tree ι)) :
    metAlong compounds (path.map Tree.head) = metAlong compounds path := by
  induction path generalizing compounds with
  | nil => rfl
  | cons node path ih =>
      cases compounds with
      | nil => simp [metAlong]
      | cons compound others =>
          rw [List.map_cons, metAlong, metAlong, accepts_head_compound, ih, ih]

/-- What is below a node and below its ancestors does not matter. -/
theorem accepts_head (selector : Selector) (node : Tree ι) (ancestors : List (Tree ι)) :
    selector.accepts node.head (ancestors.map Tree.head) = selector.accepts node ancestors := by
  unfold accepts acceptsOn
  rw [← List.map_reverse]
  simp only [accepts_head_compound, metAlong_map_head]

/-- The matching descendants, given the ancestors of the node. -/
def matchesIn (selector : Selector) (descendants : List (List (Tree ι) × Tree ι)) : List ι :=
  (descendants.filter fun descendant => selector.accepts descendant.2 descendant.1).map
    fun descendant => descendant.2.label

theorem matchesIn_append (selector : Selector) (xs ys : List (List (Tree ι) × Tree ι)) :
    selector.matchesIn (xs ++ ys) = selector.matchesIn xs ++ selector.matchesIn ys := by
  rw [matchesIn, List.filter_append, List.map_append]
  rfl

/-- A node comes before what is below it, and that before the nodes behind it. -/
theorem matchesIn_among (selector : Selector) (ancestors : List (Tree ι)) (tree : Tree ι)
    (rest : List (Tree ι)) :
    selector.matchesIn (Tree.descendants.among ancestors (tree :: rest)) =
      (if selector.accepts tree ancestors then [tree.label] else []) ++
        (selector.matchesIn (tree.descendants ancestors) ++
          selector.matchesIn (Tree.descendants.among ancestors rest)) := by
  rw [Tree.descendants.among, List.cons_append, ← List.singleton_append, matchesIn_append,
    matchesIn_append]
  congr 1
  unfold matchesIn
  rw [List.filter_singleton]
  cases selector.accepts tree ancestors <;> rfl

/-- The matches stand at the positions whose nodes are accepted under their ancestors. -/
theorem map_some_matchesIn (selector : Selector) (tree : Tree ι) :
    (selector.matchesIn (tree.descendants [])).map some =
      (tree.positions.filter fun position => (tree.nodeAt? position).any fun node =>
        selector.accepts node (tree.ancestorsAt position)).map fun position =>
          (tree.nodeAt? position).map Tree.label := by
  have hdescendants := congrArg
    (fun found => (found.filter (Option.any fun descendant : List (Tree ι) × Tree ι =>
      selector.accepts descendant.2 descendant.1)).map (Option.map fun descendant =>
        descendant.2.label))
    (tree.map_some_descendants [])
  simp only [List.filter_map, List.map_map] at hdescendants
  rw [matchesIn, List.map_map]
  refine Eq.trans hdescendants ?_
  have hany (position : List Nat) :
      (tree.descendantAt? [] position).any (fun descendant =>
        selector.accepts descendant.2 descendant.1) =
      (tree.nodeAt? position).any fun node =>
        selector.accepts node (tree.ancestorsAt position) := by
    rw [Tree.descendantAt?, Option.any_map]
    rfl
  have hlabel (position : List Nat) :
      (tree.descendantAt? [] position).map (fun descendant => descendant.2.label) =
      (tree.nodeAt? position).map Tree.label := by
    rw [Tree.descendantAt?, Option.map_map]
    rfl
  simp only [Function.comp_def, hany, hlabel]

end Selector

/-! ## Searching a heap -/

/-- Show nodes to a visitor, one after another, until it wants no more. -/
def showAll (visitor : ι → α → α × Bool) : List ι → α → α × Bool
  | [], gathered => (gathered, true)
  | node :: rest, gathered =>
    if (visitor node gathered).2 then showAll visitor rest (visitor node gathered).1
    else visitor node gathered

theorem showAll_append (visitor : ι → α → α × Bool) (nodes later : List ι) (gathered : α) :
    showAll visitor (nodes ++ later) gathered =
      if (showAll visitor nodes gathered).2 then
        showAll visitor later (showAll visitor nodes gathered).1
      else showAll visitor nodes gathered := by
  induction nodes generalizing gathered with
  | nil => rfl
  | cons node rest ih =>
      rw [List.cons_append, showAll, showAll, ih]
      cases hgoes : (visitor node gathered).2 <;> simp [hgoes]

theorem showAll_collect (nodes found : List ι) :
    showAll (fun node found => (found ++ [node], true)) nodes found = (found ++ nodes, true) := by
  induction nodes generalizing found with
  | nil => rw [List.append_nil]; rfl
  | cons node rest ih => rw [showAll, if_pos rfl, ih, List.append_assoc, List.singleton_append]

theorem showAll_first (nodes : List ι) :
    (showAll (fun node (_ : Option ι) => (some node, false)) nodes none).1 = nodes.head? := by
  cases nodes <;> rfl

namespace Dom

variable {dom : Dom} {selector : Selector} {visitor : NodeId → α → α × Bool} {depth : Nat}
  {node scope : NodeId} {tree : Tree NodeId}

theorem head_of_treeWithin? (h : dom.treeWithin? depth node = some tree) :
    dom.head node = tree.head ∧ tree.label = node := by
  cases depth with
  | zero => cases h
  | succ depth =>
      obtain ⟨cell, trees, hcell, -, rfl⟩ := treeWithin?_succ_eq_some.1 h
      unfold head
      rw [hcell]
      cases cell <;> exact ⟨rfl, rfl⟩

/-- What a search leaves behind that has been shown nodes: the ancestors are those from before. -/
def afterShowing (visitor : NodeId → α → α × Bool) (nodes : List NodeId) (search : Search α) :
    Option (Search α × Bool) :=
  some ({ search with gathered := (showAll visitor nodes search.gathered).1 },
    (showAll visitor nodes search.gathered).2)

theorem afterShowing_cons (nodes : List NodeId) (search : Search α) :
    afterShowing visitor (node :: nodes) search =
      if (visitor node search.gathered).2 then
        afterShowing visitor nodes { search with gathered := (visitor node search.gathered).1 }
      else some ({ search with gathered := (visitor node search.gathered).1 }, false) := by
  unfold afterShowing
  rw [showAll]
  split
  · rfl
  · next hended =>
      rw [Bool.not_eq_true] at hended
      rw [hended]

/-- The children of a node are searched one after another.  A search that is ended leaves the node,
too, so its ancestors are the same in all three cases. -/
theorem searchEach_eq {below : NodeId → Search α → Option (Search α × Bool)}
    {ancestors : List (Tree NodeId)} {children : List NodeId} {trees : List (Tree NodeId)}
    (htrees : children.mapM (dom.treeWithin? depth) = some trees)
    (hbelow : ∀ child tree, dom.treeWithin? depth child = some tree → ∀ search : Search α,
      search.ancestors.map dom.head = ancestors.map Tree.head →
      below child search =
        afterShowing visitor (selector.matchesIn (tree.descendants ancestors)) search)
    (search : Search α) (hancestors : search.ancestors.map dom.head = ancestors.map Tree.head) :
    dom.searchEach selector visitor below children search =
      afterShowing visitor (selector.matchesIn (Tree.descendants.among ancestors trees))
        search.leave := by
  induction children generalizing trees search with
  | nil =>
      obtain rfl := Option.some.inj htrees
      rfl
  | cons child rest ih =>
      obtain ⟨tree, later, htree, hlater, rfl⟩ := mapM_cons_eq_some.1 htrees
      obtain ⟨hhead, hlabel⟩ := head_of_treeWithin? htree
      have hmatch : dom.isMatch selector child search.ancestors =
          selector.accepts tree ancestors := by
        rw [isMatch, hhead, hancestors, selector.accepts_head]
      -- What comes behind the child itself, whatever the visitor has gathered by then.
      have hgoing (gathered : α) :
          ((below child { search with gathered }).bind fun outcome =>
            if outcome.2 then dom.searchEach selector visitor below rest outcome.1
            else some (outcome.1.leave, false)) =
          afterShowing visitor (selector.matchesIn (tree.descendants ancestors) ++
            selector.matchesIn (Tree.descendants.among ancestors later))
            { search.leave with gathered } := by
        rw [hbelow child tree htree { search with gathered } hancestors]
        simp only [afterShowing, showAll_append, Option.bind_some]
        split
        · exact ih hlater { search with gathered := _ } hancestors
        · next hended => rw [Bool.not_eq_true] at hended; rw [hended]; rfl
      rw [searchEach, hmatch, selector.matchesIn_among, hlabel]
      cases selector.accepts tree ancestors with
      | false => exact hgoing search.gathered
      | true =>
          rw [if_pos rfl, if_pos rfl, List.singleton_append, afterShowing_cons]
          change (if (visitor child search.gathered).2 then _ else _) =
            if (visitor child search.gathered).2 then _ else _
          split
          · exact hgoing (visitor child search.gathered).1
          · rfl

/-- A search below a node shows its matching descendants to the visitor. -/
theorem searchWithin?_eq (htree : dom.treeWithin? depth node = some tree)
    {ancestors : List (Tree NodeId)} (search : Search α)
    (hancestors : search.ancestors.map dom.head = ancestors.map Tree.head) :
    dom.searchWithin? selector visitor depth node search =
      afterShowing visitor (selector.matchesIn (tree.descendants ancestors)) search := by
  induction depth generalizing node tree ancestors search with
  | zero => cases htree
  | succ depth ih =>
      have hhead := (head_of_treeWithin? htree).1
      obtain ⟨cell, trees, hcell, htrees, rfl⟩ := treeWithin?_succ_eq_some.1 htree
      have hentered : (search.enter node).ancestors.map dom.head =
          (ancestors ++ [cell.over node trees]).map Tree.head := by
        rw [Search.enter, List.map_append, List.map_append, hancestors, List.map_singleton, hhead]
        rfl
      have hchildren : (cell.over node trees).children = trees := by
        cases cell with
        | element tag attributes children => rfl
        | document children => rfl
        | text data => exact (Option.some.inj htrees).symm ▸ rfl
        | comment data => exact (Option.some.inj htrees).symm ▸ rfl
      have hleave : (search.enter node).leave = search := by
        simp [Search.enter, Search.leave]
      rw [searchWithin?, childrenOf_of_cell? hcell,
        searchEach_eq htrees (fun child tree hchild search => ih hchild search) _ hentered, hleave,
        Tree.descendants_eq, hchildren]

/-- The search for all matches ends, with all of them in document order. -/
theorem allMatches?_eq (htree : dom.tree? scope = some tree) (selector : Selector) :
    dom.allMatches? scope selector = some (selector.matchesIn (tree.descendants [])) := by
  rw [allMatches?, searchWithin?_eq htree { gathered := [] } (List.map_nil.trans List.map_nil.symm),
    afterShowing, Option.map_some, showAll_collect]
  rfl

/-- The search for one match ends, with the first of them. -/
theorem firstMatch?_eq (htree : dom.tree? scope = some tree) (selector : Selector) :
    dom.firstMatch? scope selector =
      some (selector.matchesIn (tree.descendants [])).head? := by
  have hdeeper := treeWithin?_mono htree
    (Nat.le_mul_of_pos_right dom.cells.size (Nat.succ_pos selector.compounds.length))
  rw [firstMatch?,
    searchWithin?_eq hdeeper { gathered := none } (List.map_nil.trans List.map_nil.symm),
    afterShowing, Option.map_some, showAll_first]

/-- A query finds a node of the tree. -/
theorem mem_labels_of_query? {found : NodeId} (htree : dom.tree? scope = some tree)
    (hquery : dom.query? scope selector = some found) : found ∈ tree.labels := by
  rw [query?, firstMatch?_eq htree, Option.getD_some] at hquery
  obtain ⟨descendant, hdescendant, rfl⟩ := List.mem_map.1 (List.mem_of_mem_head? hquery)
  exact Tree.label_mem_of_descendants (List.mem_filter.1 hdescendant).1

/-- Below a node that a query finds in a tree without repeated labels, nothing is reached on two
ways. -/
theorem distinct_of_query? {root : NodeId} (htree : dom.tree? scope = some tree)
    (hlabels : tree.labels.Nodup) (hquery : dom.query? scope selector = some root) (depth : Nat) :
    dom.Distinct (dom.footprint depth root) := by
  obtain ⟨hlisted, -⟩ := listed_tree htree
  have hsublist := hlisted.sublist root (mem_labels_of_query? htree hquery) depth
  exact ⟨hlabels.sublist hsublist, fun m hm => hlisted.there m (hsublist.mem hm)⟩

/-- A query for all matches lists the proper descendants of the scope that match on the way from the
scope down to them, in document order and once for each position where they stand.  A query for one
match finds the first of them, although its search ends there.  Both searches end, and the queries
with a selector that is given as text do the same. -/
theorem queries_in_document_order (htree : dom.tree? scope = some tree) (selector : Selector) :
    ∃ positions : List (List Nat), positions.Pairwise (· < ·) ∧
      (∀ position, position ∈ positions ↔ position ≠ [] ∧
        ∃ node, tree.nodeAt? position = some node ∧
          selector.accepts node (tree.ancestorsAt position) = true) ∧
      ∃ nodes, nodes.map some = positions.map (fun position =>
          (tree.nodeAt? position).map Tree.label) ∧
        dom.allMatches? scope selector = some nodes ∧
        dom.firstMatch? scope selector = some nodes.head? ∧
        ∀ text, Selector.ofText text = .ok selector →
          dom.querySelectorAll scope text = .ok nodes ∧
          dom.querySelector scope text = .ok nodes.head? := by
  have hall := allMatches?_eq htree selector
  have hfirst := firstMatch?_eq htree selector
  refine ⟨tree.positions.filter fun position =>
      (tree.nodeAt? position).any fun node => selector.accepts node (tree.ancestorsAt position),
    tree.pairwise_positions.filter _, fun position => ?_, _, ?_, hall, hfirst, ?_⟩
  · rw [List.mem_filter, Tree.mem_positions]
    constructor
    · rintro ⟨⟨hne, node, hnode⟩, haccepts⟩
      rw [hnode, Option.any_some] at haccepts
      exact ⟨hne, node, hnode, haccepts⟩
    · rintro ⟨hne, node, hnode, haccepts⟩
      exact ⟨⟨hne, node, hnode⟩, by rw [hnode, Option.any_some, haccepts]⟩
  · exact selector.map_some_matchesIn tree
  · intro text htext
    unfold querySelectorAll querySelector
    rw [htext, Except.map, Except.map, queryAll, query?, hall, hfirst]
    exact ⟨rfl, rfl⟩

end Dom

/-- A submenu that is shared by two items of a menu, a third item behind them, and the item of the
submenu once more outside of the menu. -/
def sharedSubmenu : Dom :=
  ⟨#[.document [1, 6], .element "ul" [] [2, 3, 4], .element "li" [] [5], .element "li" [] [5],
    .element "li" [] [], .element "ul" [] [6], .element "li" [] []]⟩

/-- Of the items, only the one in the submenu stands in two lists; it is found twice. -/
theorem Dom.queries_in_document_order_sharedSubmenu :
    ∃ tree, sharedSubmenu.tree? 0 = some tree ∧
      ∃ positions : List (List Nat), positions.Pairwise (· < ·) ∧
        positions.map (fun position => (tree.nodeAt? position).map Tree.label) =
          [some 6, some 6] ∧
        sharedSubmenu.querySelectorAll 0 "ul ul li" = .ok [6, 6] ∧
        sharedSubmenu.querySelector 0 "ul ul li" = .ok (some 6) := by
  have hselector : Selector.ofText "ul ul li" =
      .ok ⟨[{ tag := some "ul" }, { tag := some "ul" }, { tag := some "li" }]⟩ := by decide +kernel
  have hfound : sharedSubmenu.allMatches? 0
      ⟨[{ tag := some "ul" }, { tag := some "ul" }, { tag := some "li" }]⟩ = some [6, 6] := by
    decide +kernel
  obtain ⟨positions, hsorted, -, nodes, hnodes, hall, -, htext⟩ :=
    queries_in_document_order (rfl : sharedSubmenu.tree? 0 = some _)
      ⟨[{ tag := some "ul" }, { tag := some "ul" }, { tag := some "li" }]⟩
  obtain rfl : nodes = [6, 6] := Option.some.inj (hall.symm.trans hfound)
  exact ⟨_, rfl, positions, hsorted, hnodes.symm, htext _ hselector⟩

end LiveTemplate
