import LiveTemplate.Proofs.Dom.Planted

/-!
# Furnished nodes

A node can be given another inside: a text other data, an element other children, which are new
nodes then.  What a document reads like afterwards depends on the inside that each node was given
last, and on nothing else that has happened to it: neither on the order in which nodes were given
theirs, nor on the names of the nodes that were added for it.
-/

namespace LiveTemplate

/-- The characters of a node, given those of its children. -/
def NodeCell.charsAround (cell : NodeCell) (inside : List Char) : List Char :=
  match cell with
  | .element tag attributes _ =>
    if Tree.isVoidTag tag then Tree.startTagChars tag attributes
    else Tree.startTagChars tag attributes ++ inside ++ Tree.endTagChars tag
  | .text data => Text.escapeChars data.toList
  | .comment data => ['<', '!', '-', '-'] ++ data.toList ++ ['-', '-', '>']
  | .document _ => inside

theorem NodeCell.outerChars_over {ι : Type} (cell : NodeCell) (label : ι) (trees : List (Tree ι)) :
    (cell.over label trees).outerChars = cell.charsAround (Tree.outerChars.forestChars trees) := by
  cases cell <;> rfl

/-- The characters of a tree in which some nodes have been given another inside. -/
def Tree.charsWith {ι : Type} (inside? : ι → Option (List Char)) : Tree ι → List Char
  | .element label tag attributes children =>
    (NodeCell.element tag attributes []).charsAround
      ((inside? label).getD (forestWith children))
  | .text label data => (inside? label).getD (Text.escapeChars data.toList)
  | .comment _ data => (NodeCell.comment data).charsAround []
  | .document _ children => forestWith children
where
  /-- The characters of several trees. -/
  forestWith : List (Tree ι) → List Char
    | [] => []
    | tree :: rest => Tree.charsWith inside? tree ++ forestWith rest

namespace Dom

/-! ## New nodes -/

/-- The nodes are the roots of trees with the given characters, all of them at or above a place in
the heap. -/
def HoldsChars (dom : Dom) (limit : Nat) (chars : List Char) (nodes : List NodeId) : Prop :=
  ∃ trees, nodes.mapM (dom.treeWithin? (dom.cells.size - limit)) = some trees ∧
    Tree.outerChars.forestChars trees = chars ∧ ∀ m ∈ Tree.labels.labelsOf trees, limit ≤ m

variable {dom dom' base : Dom} {node : NodeId} {limit : Nat} {chars : List Char}
  {nodes : List NodeId}

namespace HoldsChars

theorem nil (dom : Dom) (limit : Nat) : dom.HoldsChars limit [] [] :=
  ⟨[], rfl, rfl, fun _ h => absurd h List.not_mem_nil⟩

/-- What happens below the place in the heap, and what is added, makes no difference. -/
theorem congr (h : dom.HoldsChars limit chars nodes) (hsize : dom.cells.size ≤ dom'.cells.size)
    (hsame : ∀ m, limit ≤ m → m < dom.cells.size → dom'.cell? m = dom.cell? m) :
    dom'.HoldsChars limit chars nodes := by
  obtain ⟨trees, htrees, hchars, hlabels⟩ := h
  refine ⟨trees, mapM_of_mapM htrees fun child _ tree htree hchild => ?_, hchars, hlabels⟩
  refine treeWithin?_mono (treeWithin?_congr hchild fun m hm => ?_) (Nat.sub_le_sub_right hsize _)
  exact hsame m (hlabels m ((Tree.sublist_labelsOf htree).mem hm))
    ((listed_tree hchild).1.there m hm)

theorem mono {limit' : Nat} (h : dom.HoldsChars limit chars nodes) (hle : limit' ≤ limit) :
    dom.HoldsChars limit' chars nodes := by
  obtain ⟨trees, htrees, hchars, hlabels⟩ := h
  refine ⟨trees, mapM_of_mapM htrees fun child _ tree _ hchild => ?_, hchars, fun m hm =>
    Nat.le_trans hle (hlabels m hm)⟩
  exact treeWithin?_mono hchild (Nat.sub_le_sub_left hle _)

end HoldsChars

theorem HoldsTrees.holdsChars {trees : List (Tree Unit)} (h : dom.HoldsTrees limit trees nodes) :
    dom.HoldsChars limit (Tree.outerChars.forestChars trees) nodes := by
  obtain ⟨found, hfound, rfl, hlabels⟩ := h
  exact ⟨found, hfound, (Tree.forestChars_bareForest found).symm, hlabels⟩

theorem HoldsText.holdsChars {text : String} (h : dom.HoldsText limit text nodes) :
    dom.HoldsChars limit (Text.escapeChars text.toList) nodes := by
  cases h with
  | empty => exact .nil dom limit
  | @filled _ child hfilled hbase hchild =>
      have hlt := lt_size_of_cell? hchild
      obtain ⟨depth, hdepth⟩ : ∃ depth, dom.cells.size - limit = depth + 1 :=
        ⟨_, (Nat.sub_add_cancel (Nat.sub_pos_of_lt (Nat.lt_of_le_of_lt hbase hlt))).symm⟩
      refine ⟨[.text child text], ?_, List.append_nil _, ?_⟩
      · rw [hdepth]
        exact mapM_cons_eq_some.2 ⟨_, [], treeWithin?_succ_eq_some.2 ⟨_, [], hchild, rfl, rfl⟩,
          rfl, rfl⟩
      · exact List.forall_mem_cons.2 ⟨hbase, fun _ h => absurd h List.not_mem_nil⟩

theorem setMarkup_of_element {tag : String} {attributes : Table String} {children : List NodeId}
    (h : dom.cell? node = some (.element tag attributes children)) (markup : String) :
    ∃ nodes, (dom.setMarkup node markup).cell? node = some (.element tag attributes nodes) ∧
      (dom.setMarkup node markup).HoldsChars dom.cells.size
        (Tree.outerChars.forestChars (Markup.parseMarkup markup)) nodes := by
  obtain ⟨nodes, hcell, hholds⟩ := setMarkup_of_container h rfl markup
  exact ⟨nodes, hcell, hholds.holdsChars⟩

/-! ## Furnished nodes -/

/-- A text has other data, or an element has new children, with the given characters. -/
inductive Furnishes (base dom : Dom) (node : NodeId) (chars : List Char) : Prop
  | text {data now : String} (hbase : base.cell? node = some (.text data))
      (hcell : dom.cell? node = some (.text now)) (hchars : Text.escapeChars now.toList = chars)
  | element {tag : String} {attributes : Table String} {children nodes : List NodeId}
      (hbase : base.cell? node = some (.element tag attributes children))
      (hcell : dom.cell? node = some (.element tag attributes nodes))
      (hnodes : dom.HoldsChars base.cells.size chars nodes)

/-- The nodes with another inside have it, and the others are as they were. -/
structure Furnished (base : Dom) (inside? : NodeId → Option (List Char)) (dom : Dom) : Prop where
  size_le : base.cells.size ≤ dom.cells.size
  others : ∀ m < base.cells.size, inside? m = none → dom.cell? m = base.cell? m
  given : ∀ m chars, inside? m = some chars → Furnishes base dom m chars

namespace Furnished

variable {inside? : NodeId → Option (List Char)}

theorem nil (base : Dom) : Furnished base (fun _ => none) base where
  size_le := Nat.le_refl _
  others _ _ _ := rfl
  given _ _ h := nomatch h

/-- A text is still a text, whatever it reads now. -/
theorem cell?_of_text (h : Furnished base inside? dom) {data : String}
    (hbase : base.cell? node = some (.text data)) : ∃ now, dom.cell? node = some (.text now) := by
  cases hinside : inside? node with
  | none => exact ⟨data, (h.others node (lt_size_of_cell? hbase) hinside).trans hbase⟩
  | some chars =>
      cases h.given node chars hinside with
      | text _ hcell => exact ⟨_, hcell⟩
      | element hbase' => cases hbase.symm.trans hbase'

/-- An element keeps its tag and its attributes. -/
theorem cell?_of_element (h : Furnished base inside? dom) {tag : String}
    {attributes : Table String} {children : List NodeId}
    (hbase : base.cell? node = some (.element tag attributes children)) :
    ∃ nodes, dom.cell? node = some (.element tag attributes nodes) := by
  cases hinside : inside? node with
  | none => exact ⟨children, (h.others node (lt_size_of_cell? hbase) hinside).trans hbase⟩
  | some chars =>
      cases h.given node chars hinside with
      | text hbase' => cases hbase.symm.trans hbase'
      | element hbase' hcell =>
          cases hbase.symm.trans hbase'
          exact ⟨_, hcell⟩

/-- A node that is changed, with new nodes below it at most, leaves the others furnished as they
were. -/
theorem reworked (h : Furnished base inside? dom) (hreworked : Reworked node dom dom')
    (hnode : node < base.cells.size) {chars : List Char} (hgiven : Furnishes base dom' node chars) :
    Furnished base (Function.update inside? node (some chars)) dom' := by
  refine ⟨Nat.le_trans h.size_le hreworked.size_le, fun m hm hnone => ?_, fun m own hown => ?_⟩
  · have hne : m ≠ node := by
      rintro rfl
      rw [Function.update_self] at hnone
      cases hnone
    rw [Function.update_of_ne hne] at hnone
    rw [hreworked.others m hne (Nat.lt_of_lt_of_le hm h.size_le)]
    exact h.others m hm hnone
  · by_cases hm : m = node
    · subst hm
      rw [Function.update_self] at hown
      exact Option.some.inj hown ▸ hgiven
    · rw [Function.update_of_ne hm] at hown
      cases h.given m own hown with
      | text hbase hcell hchars =>
          exact .text hbase
            ((hreworked.others m hm (lt_size_of_cell? hcell)).trans hcell) hchars
      | element hbase hcell hnodes =>
          refine .element hbase ((hreworked.others m hm (lt_size_of_cell? hcell)).trans hcell) ?_
          -- What is inside another node is newer than the changed one.
          exact hnodes.congr hreworked.size_le fun k hk hklt =>
            hreworked.others k (Nat.ne_of_gt (Nat.lt_of_lt_of_le hnode hk)) hklt

theorem setText (h : Furnished base inside? dom) {cell : NodeCell}
    (hcell : base.cell? node = some cell) (hkind : cell.kind = "element" ∨ cell.kind = "text")
    (text : String) :
    Furnished base (Function.update inside? node (some (Text.escapeChars text.toList)))
      (dom.setText node text) := by
  refine h.reworked (.setText dom node text) (lt_size_of_cell? hcell) ?_
  cases cell with
  | text data =>
      obtain ⟨now, hnow⟩ := h.cell?_of_text hcell
      exact .text hcell (setText_of_text hnow text) rfl
  | element tag attributes children =>
      obtain ⟨nodes, hnow⟩ := h.cell?_of_element hcell
      obtain ⟨later, hlater, hholds⟩ := setText_of_element hnow text
      exact .element hcell hlater (hholds.holdsChars.mono h.size_le)
  | _ => simp [NodeCell.kind] at hkind

theorem setMarkup (h : Furnished base inside? dom) {cell : NodeCell}
    (hcell : base.cell? node = some cell) (hkind : cell.kind = "element") (markup : String) :
    Furnished base (Function.update inside? node
        (some (Tree.outerChars.forestChars (Markup.parseMarkup markup))))
      (dom.setMarkup node markup) := by
  refine h.reworked (.setMarkup dom node markup) (lt_size_of_cell? hcell) ?_
  cases cell with
  | element tag attributes children =>
      obtain ⟨nodes, hnow⟩ := h.cell?_of_element hcell
      obtain ⟨later, hlater, hholds⟩ := setMarkup_of_element hnow markup
      exact .element hcell hlater (hholds.mono h.size_le)
  | _ => simp [NodeCell.kind] at hkind

/-! ## Reading furnished nodes -/

theorem forestChars_forestWith {trees trees' : List (Tree NodeId)}
    (h : List.Forall₂ (fun tree tree' : Tree NodeId => tree'.outerChars = tree.charsWith inside?)
      trees trees') :
    Tree.outerChars.forestChars trees' = Tree.charsWith.forestWith inside? trees := by
  induction h with
  | nil => rfl
  | cons hfirst _ ih =>
      rw [Tree.outerChars.forestChars, hfirst, ih]
      rfl

/-- The characters are those of the tree with the insides in place.  The inside that a node was
given can be deeper than the one it had, but then nodes have been added. -/
theorem outerChars_charsWith (h : Furnished base inside? dom) {depth : Nat} {node : NodeId}
    {tree : Tree NodeId} (htree : base.treeWithin? depth node = some tree) :
    ∃ tree', dom.treeWithin? (depth + (dom.cells.size - base.cells.size)) node = some tree' ∧
      tree'.outerChars = tree.charsWith inside? := by
  induction depth generalizing node tree with
  | zero => cases htree
  | succ depth ih =>
      obtain ⟨cell, trees, hcell, htrees, rfl⟩ := treeWithin?_succ_eq_some.1 htree
      obtain ⟨trees', htrees', hall⟩ := exists_mapM_of_forall (fun _ _ hchild => ih hchild) htrees
      have hchars := forestChars_forestWith hall
      rw [Nat.succ_add]
      cases hinside : inside? node with
      | none =>
          have hkept := (h.others node (lt_size_of_cell? hcell) hinside).trans hcell
          refine ⟨cell.over node trees',
            treeWithin?_succ_eq_some.2 ⟨cell, trees', hkept, htrees', rfl⟩, ?_⟩
          rw [NodeCell.outerChars_over, hchars]
          cases cell <;> simp [NodeCell.over, Tree.charsWith, NodeCell.charsAround, hinside]
      | some inside =>
          cases h.given node inside hinside with
          | text hbase hnow hread =>
              obtain rfl := Option.some.inj (hcell.symm.trans hbase)
              refine ⟨_, treeWithin?_succ_eq_some.2 ⟨_, [], hnow, rfl, rfl⟩, ?_⟩
              rw [NodeCell.outerChars_over]
              simp [NodeCell.over, Tree.charsWith, NodeCell.charsAround, hinside, hread]
          | element hbase hnow hnodes =>
              obtain rfl := Option.some.inj (hcell.symm.trans hbase)
              obtain ⟨below, hbelow, hread, -⟩ := hnodes
              refine ⟨_, treeWithin?_succ_eq_some.2 ⟨_, below, hnow, mapM_of_mapM hbelow
                fun child _ tree _ hchild => treeWithin?_mono hchild (Nat.le_add_left _ _), rfl⟩,
                ?_⟩
              rw [NodeCell.outerChars_over]
              simp [NodeCell.over, Tree.charsWith, NodeCell.charsAround, hinside, hread]

/-- So are the characters of a whole document. -/
theorem outerMarkup?_charsWith (h : Furnished base inside? dom) {tree : Tree NodeId}
    (htree : base.tree? node = some tree) :
    dom.outerMarkup? node = some (String.ofList (tree.charsWith inside?)) := by
  obtain ⟨tree', htree', hchars⟩ := h.outerChars_charsWith htree
  rw [Nat.add_sub_cancel' h.size_le] at htree'
  rw [outerMarkup?_of_tree? htree']
  exact congrArg (fun chars => some (String.ofList chars)) hchars

end Furnished

end Dom

/-! ## Painted templates -/

/-- To put texts in place is to give nodes the escaped texts inside. -/
theorem Tree.outerChars_shown {ι : Type} (text? : ι → Option String) (tree : Tree ι) :
    (tree.shown text?).outerChars =
      tree.charsWith fun m => (text? m).map fun text => Text.escapeChars text.toList := by
  refine charsWith.induct
    (fun trees : List (Tree ι) => outerChars.forestChars (shown.shownOf text? trees) =
      charsWith.forestWith (fun m => (text? m).map fun text => Text.escapeChars text.toList) trees)
    (fun tree : Tree ι => (tree.shown text?).outerChars =
      tree.charsWith fun m => (text? m).map fun text => Text.escapeChars text.toList)
    ?element ?text ?comment ?document ?nil ?cons tree
  case element =>
    intro label tag attributes children ih
    rw [shown, charsWith]
    cases text? label with
    | none => simp [outerChars, NodeCell.charsAround, ih]
    | some text =>
        by_cases hempty : text = ""
        · simp [outerChars, outerChars.forestChars, NodeCell.charsAround, hempty, Text.escapeChars]
        · simp [outerChars, outerChars.forestChars, NodeCell.charsAround, hempty]
  case text =>
    intro label data
    rw [shown, charsWith, outerChars]
    cases text? label <;> rfl
  case comment => exact fun label data => rfl
  case document => exact fun label children ih => ih
  case nil => rfl
  case cons =>
    intro tree rest ih ihrest
    rw [shown.shownOf, outerChars.forestChars, ih, ihrest]
    rfl

namespace Dom.Painted

variable {base dom : Dom} {node : NodeId} {text? : NodeId → Option String}

theorem furnished (h : Painted base text? dom) :
    Furnished base (fun m => (text? m).map fun text => Text.escapeChars text.toList) dom where
  size_le := h.size_le
  others m hm hnone := h.others m hm (Option.map_eq_none_iff.1 hnone)
  given m chars hchars := by
    obtain ⟨text, htext, rfl⟩ := Option.map_eq_some_iff.1 hchars
    cases h.shown m text htext with
    | text hbase hcell => exact .text hbase hcell rfl
    | element hbase hcell hnodes => exact .element hbase hcell hnodes.holdsChars

/-- The markup of a painted template is that of the template with the texts in place. -/
theorem outerMarkup?_shown (h : Painted base text? dom) {tree : Tree NodeId}
    (htree : base.tree? node = some tree) :
    dom.outerMarkup? node = some (tree.shown text?).outerMarkup := by
  rw [h.furnished.outerMarkup?_charsWith htree, ← Tree.outerChars_shown]
  rfl

end Dom.Painted

end LiveTemplate
