import LiveTemplate.Proofs.Dom.Painted
import LiveTemplate.Proofs.Markup.Bare

/-!
# Trees that are put into the heap

What markup gives is added to the heap node by node, children before their parents.  The trees can
be read back from their new nodes, and the node that they are put below has them as its children.
-/

namespace LiveTemplate

namespace Tree

variable {ι : Type}

theorem bareForest_append (trees later : List (Tree ι)) :
    bare.bareForest (trees ++ later) = bare.bareForest trees ++ bare.bareForest later := by
  induction trees with
  | nil => rfl
  | cons tree rest ih => rw [List.cons_append, bare.bareForest, ih, bare.bareForest, List.cons_append]

theorem forestChars_bareForest (trees : List (Tree ι)) :
    outerChars.forestChars (bare.bareForest trees) = outerChars.forestChars trees := by
  induction trees with
  | nil => rfl
  | cons tree rest ih =>
      rw [bare.bareForest, outerChars.forestChars, outerChars.forestChars, outerChars_bare, ih]

theorem forestMarkup_bareForest (trees : List (Tree ι)) :
    forestMarkup (bare.bareForest trees) = forestMarkup trees :=
  congrArg String.ofList (forestChars_bareForest trees)

/-- Trees without labels are their own bare trees. -/
theorem bareForest_unit (trees : List (Tree Unit)) : bare.bareForest trees = trees := by
  refine bare.bareForest.induct (fun trees : List (Tree Unit) => bare.bareForest trees = trees)
    (fun tree : Tree Unit => tree.bare = tree) ?element ?text ?comment ?document ?nil ?cons trees
  case element =>
    intro label tag attributes children ih
    rw [bare, ih]
  case text => exact fun _ _ => rfl
  case comment => exact fun _ _ => rfl
  case document =>
    intro label children ih
    rw [bare, ih]
  case nil => rfl
  case cons =>
    intro tree rest ih ihrest
    rw [bare.bareForest, ih, ihrest]

end Tree

/-- What a node is over trees depends on these trees without their labels. -/
theorem NodeCell.bare_over {ι : Type} (cell : NodeCell) (label : ι) (trees : List (Tree ι)) :
    (cell.over label trees).bare = cell.over () (Tree.bare.bareForest trees) := by
  cases cell <;> rfl

namespace Dom

variable {dom dom' : Dom} {node : NodeId} {limit : Nat} {trees : List (Tree Unit)}
  {nodes : List NodeId}

/-- The nodes are the roots of the given trees, all of them at or above a place in the heap. -/
def HoldsTrees (dom : Dom) (limit : Nat) (trees : List (Tree Unit)) (nodes : List NodeId) : Prop :=
  ∃ found, nodes.mapM (dom.treeWithin? (dom.cells.size - limit)) = some found ∧
    Tree.bare.bareForest found = trees ∧ ∀ m ∈ Tree.labels.labelsOf found, limit ≤ m

theorem labelsOf_append {ι : Type} (trees later : List (Tree ι)) :
    Tree.labels.labelsOf (trees ++ later) =
      Tree.labels.labelsOf trees ++ Tree.labels.labelsOf later := by
  induction trees with
  | nil => rfl
  | cons tree rest ih =>
      rw [List.cons_append, Tree.labels.labelsOf, ih, ← List.append_assoc]
      rfl

namespace HoldsTrees

theorem nil (dom : Dom) (limit : Nat) : dom.HoldsTrees limit [] [] :=
  ⟨[], rfl, rfl, fun _ h => absurd h List.not_mem_nil⟩

/-- What happens below the place in the heap, and what is added, makes no difference. -/
theorem congr (h : dom.HoldsTrees limit trees nodes) (hsize : dom.cells.size ≤ dom'.cells.size)
    (hsame : ∀ m, limit ≤ m → m < dom.cells.size → dom'.cell? m = dom.cell? m) :
    dom'.HoldsTrees limit trees nodes := by
  obtain ⟨found, hfound, hbare, hlabels⟩ := h
  refine ⟨found, mapM_of_mapM hfound fun child _ tree htree hchild => ?_, hbare, hlabels⟩
  refine treeWithin?_mono (treeWithin?_congr hchild fun m hm => ?_) (Nat.sub_le_sub_right hsize _)
  exact hsame m (hlabels m ((Tree.sublist_labelsOf htree).mem hm))
    ((listed_tree hchild).1.there m hm)

theorem mono {limit' : Nat} (h : dom.HoldsTrees limit trees nodes) (hle : limit' ≤ limit) :
    dom.HoldsTrees limit' trees nodes := by
  obtain ⟨found, hfound, hbare, hlabels⟩ := h
  refine ⟨found, mapM_of_mapM hfound fun child _ tree _ hchild => ?_, hbare, fun m hm =>
    Nat.le_trans hle (hlabels m hm)⟩
  exact treeWithin?_mono hchild (Nat.sub_le_sub_left hle _)

theorem append {later : List (Tree Unit)} {nodes' : List NodeId}
    (h : dom.HoldsTrees limit trees nodes) (h' : dom.HoldsTrees limit later nodes') :
    dom.HoldsTrees limit (trees ++ later) (nodes ++ nodes') := by
  obtain ⟨found, hfound, rfl, hlabels⟩ := h
  obtain ⟨found', hfound', rfl, hlabels'⟩ := h'
  refine ⟨found ++ found', ?_, Tree.bareForest_append found found', ?_⟩
  · rw [List.mapM_append, hfound, hfound']
    rfl
  · rw [labelsOf_append]
    exact List.forall_mem_append.2 ⟨hlabels, hlabels'⟩

/-- A node added above such nodes. -/
theorem alloc (cell : NodeCell) (h : dom.HoldsTrees limit trees cell.children)
    (hle : limit ≤ dom.cells.size) :
    (dom.alloc cell).1.HoldsTrees limit [cell.over () trees] [dom.cells.size] := by
  obtain ⟨found, hfound, rfl, hlabels⟩ := h
  have hdepth : (dom.alloc cell).1.cells.size - limit = dom.cells.size - limit + 1 := by
    rw [size_alloc]
    omega
  refine ⟨[cell.over dom.cells.size found], ?_, ?_, ?_⟩
  · rw [hdepth]
    refine mapM_cons_eq_some.2 ⟨_, [], treeWithin?_succ_eq_some.2 ⟨cell, found,
      cell?_alloc_self dom cell, mapM_of_mapM hfound fun child _ tree _ hchild => ?_, rfl⟩, rfl,
      rfl⟩
    exact treeWithin?_congr hchild fun m hm =>
      cell?_alloc_of_lt dom cell ((listed_tree hchild).1.there m hm)
  · rw [Tree.bare.bareForest, Tree.bare.bareForest, NodeCell.bare_over]
  · rw [Tree.labels.labelsOf, Tree.labels.labelsOf, List.append_nil, labels_over hfound]
    exact List.forall_mem_cons.2 ⟨hle, hlabels⟩

/-- Trees that are added can be read back. -/
theorem addForest {ι : Type} (dom : Dom) (trees : List (Tree ι)) :
    (dom.addForest trees).1.HoldsTrees dom.cells.size (Tree.bare.bareForest trees)
      (dom.addForest trees).2 := by
  refine addForest.induct
    (fun dom (tree : Tree ι) =>
      (dom.addTree tree).1.HoldsTrees dom.cells.size [tree.bare] [(dom.addTree tree).2])
    (fun dom (trees : List (Tree ι)) =>
      (dom.addForest trees).1.HoldsTrees dom.cells.size (Tree.bare.bareForest trees)
        (dom.addForest trees).2)
    ?element ?text ?comment ?document ?nil ?cons dom trees
  case element =>
    intro dom label tag attributes children dom' nodes hchildren ih
    have hsize := (added_addForest dom children).size_le
    rw [hchildren] at ih hsize
    rw [addTree, hchildren]
    exact alloc (.element tag attributes nodes) ih hsize
  case text =>
    intro dom label data
    exact alloc (.text data) (nil dom _) (Nat.le_refl _)
  case comment =>
    intro dom label data
    exact alloc (.comment data) (nil dom _) (Nat.le_refl _)
  case document =>
    intro dom label children dom' nodes hchildren ih
    have hsize := (added_addForest dom children).size_le
    rw [hchildren] at ih hsize
    rw [addTree, hchildren]
    exact alloc (.document nodes) ih hsize
  case nil => exact fun dom => nil dom _
  case cons =>
    intro dom tree rest dom' child htree dom'' nodes hrest ihtree ihrest
    -- Adding the others leaves the nodes of the first tree alone.
    have hadded := added_addForest dom' rest
    have hfirst := (added_addForest dom [tree]).size_le
    simp only [Dom.addForest, htree] at hfirst
    rw [htree] at ihtree
    rw [hrest] at ihrest hadded
    rw [Dom.addForest, htree]
    simp only [hrest]
    refine (ihtree.congr hadded.size_le fun m _ hm => hadded.others m hm).append ?_
    exact ihrest.mono hfirst

end HoldsTrees

/-- A container has the trees that markup gives below it. -/
theorem setMarkup_of_container {cell : NodeCell} (h : dom.cell? node = some cell)
    (hcontainer : cell.isContainer = true) (markup : String) :
    ∃ nodes, (dom.setMarkup node markup).cell? node = some (cell.withChildren nodes) ∧
      (dom.setMarkup node markup).HoldsTrees dom.cells.size (Markup.parseMarkup markup) nodes := by
  have hlt := lt_size_of_cell? h
  unfold setMarkup
  rw [h]
  dsimp only
  generalize Markup.parseMarkup markup = trees
  have hadded := added_addForest dom trees
  have hholds := HoldsTrees.addForest dom trees
  rw [Tree.bareForest_unit] at hholds
  rw [if_pos hcontainer]
  refine ⟨_, ?_, hholds.congr (Nat.le_of_eq Array.size_modify.symm) fun m hm _ => ?_⟩
  · rw [cell?_modify, if_pos rfl, hadded.others node hlt, h]
    rfl
  · rw [cell?_modify, if_neg (Nat.ne_of_lt (Nat.lt_of_lt_of_le hlt hm))]

theorem children_withChildren {cell : NodeCell} (h : cell.isContainer = true)
    (nodes : List NodeId) : (cell.withChildren nodes).children = nodes := by
  cases cell with
  | element => rfl
  | document => rfl
  | text => cases h
  | comment => cases h

/-- The tree of a container is read back with what its markup gives below it. -/
theorem tree?_setMarkup {cell : NodeCell} (h : dom.cell? node = some cell)
    (hcontainer : cell.isContainer = true) (markup : String) :
    ∃ tree, (dom.setMarkup node markup).tree? node = some tree ∧
      Tree.bare.bareForest tree.children = Markup.parseMarkup markup := by
  obtain ⟨nodes, hcell, found, hfound, hbare, hlabels⟩ := setMarkup_of_container h hcontainer markup
  have hpos : 0 < dom.cells.size := Nat.zero_lt_of_lt (lt_size_of_cell? h)
  have hpos' : 0 < (dom.setMarkup node markup).cells.size :=
    Nat.zero_lt_of_lt (lt_size_of_cell? hcell)
  refine ⟨(cell.withChildren nodes).over node found, ?_, ?_⟩
  · have hdepth : (dom.setMarkup node markup).cells.size - dom.cells.size + 1 ≤
        (dom.setMarkup node markup).cells.size := by omega
    refine treeWithin?_mono (treeWithin?_succ_eq_some.2 ⟨_, found, hcell, ?_, rfl⟩) hdepth
    rw [children_withChildren hcontainer]
    exact hfound
  · rw [← hbare]
    cases cell with
    | element => rfl
    | document => rfl
    | text => cases hcontainer
    | comment => cases hcontainer

/-- Its own markup is that of what it was given. -/
theorem innerMarkup?_setMarkup {cell : NodeCell} (h : dom.cell? node = some cell)
    (hcontainer : cell.isContainer = true) (markup : String) :
    (dom.setMarkup node markup).innerMarkup? node =
      some (Tree.forestMarkup (Markup.parseMarkup markup)) := by
  obtain ⟨tree, htree, hbare⟩ := tree?_setMarkup h hcontainer markup
  rw [innerMarkup?_of_tree? htree, Tree.innerMarkup, ← hbare, Tree.forestMarkup_bareForest]

end Dom

end LiveTemplate
