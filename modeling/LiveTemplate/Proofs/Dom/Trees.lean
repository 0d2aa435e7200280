import LiveTemplate.Proofs.Dom.Labels
import Mathlib.Data.List.Perm.Subperm

/-!
# The tree of a node

The tree of a node is its content over the trees of its children.  It depends on the content of the
nodes in it only, and if no node occurs twice in it, then the number of all nodes is depth enough to
find it.
-/

namespace LiveTemplate

/-- A node over the trees of its children; a leaf has none. -/
def NodeCell.over {ι : Type} (cell : NodeCell) (label : ι) (trees : List (Tree ι)) : Tree ι :=
  match cell with
  | .element tag attributes _ => .element label tag attributes trees
  | .text data => .text label data
  | .comment data => .comment label data
  | .document _ => .document label trees

namespace Tree

variable {ι : Type}

theorem labels_eq_cons (tree : Tree ι) :
    tree.labels = tree.label :: labels.labelsOf tree.children := by
  cases tree <;> rfl

theorem sublist_labelsOf {tree : Tree ι} {trees : List (Tree ι)} (h : tree ∈ trees) :
    tree.labels.Sublist (labels.labelsOf trees) := by
  induction h with
  | head rest => exact List.sublist_append_left _ _
  | tail other _ ih => exact ih.trans (List.sublist_append_right _ _)

theorem exists_of_mem_labelsOf {trees : List (Tree ι)} {label : ι}
    (h : label ∈ labels.labelsOf trees) : ∃ tree ∈ trees, label ∈ tree.labels := by
  induction trees with
  | nil => exact absurd h List.not_mem_nil
  | cons tree rest ih =>
      rcases List.mem_append.1 h with h | h
      · exact ⟨tree, List.mem_cons_self, h⟩
      · obtain ⟨other, hother, hlabel⟩ := ih h
        exact ⟨other, List.mem_cons_of_mem _ hother, hlabel⟩

end Tree

namespace Dom

variable {dom dom' : Dom} {node : NodeId} {depth : Nat} {tree : Tree NodeId}

theorem mapM_of_mapM {α β : Type} {f g : α → Option β} {as : List α} {bs : List β}
    (h : as.mapM f = some bs) (hstep : ∀ a ∈ as, ∀ b ∈ bs, f a = some b → g a = some b) :
    as.mapM g = some bs := by
  induction as generalizing bs with
  | nil => exact h
  | cons a rest ih =>
      obtain ⟨b, later, hfirst, hrest, rfl⟩ := mapM_cons_eq_some.1 h
      refine mapM_cons_eq_some.2 ⟨b, later, ?_, ?_, rfl⟩
      · exact hstep a List.mem_cons_self b List.mem_cons_self hfirst
      · exact ih hrest fun a' ha b' hb =>
          hstep a' (List.mem_cons_of_mem a ha) b' (List.mem_cons_of_mem b hb)

theorem exists_of_mapM {α β : Type} {f : α → Option β} {as : List α} {bs : List β}
    (h : as.mapM f = some bs) {b : β} (hb : b ∈ bs) : ∃ a, f a = some b := by
  induction as generalizing bs with
  | nil =>
      obtain rfl := Option.some.inj h
      exact absurd hb List.not_mem_nil
  | cons a rest ih =>
      obtain ⟨first, later, hfirst, hrest, rfl⟩ := mapM_cons_eq_some.1 h
      rcases List.mem_cons.1 hb with rfl | hb
      · exact ⟨a, hfirst⟩
      · exact ih hrest hb

theorem exists_mem_of_mapM {α β : Type} {f : α → Option β} {as : List α} {bs : List β}
    (h : as.mapM f = some bs) {a : α} (ha : a ∈ as) : ∃ b ∈ bs, f a = some b := by
  induction as generalizing bs with
  | nil => exact absurd ha List.not_mem_nil
  | cons other rest ih =>
      obtain ⟨b, later, hfirst, hrest, rfl⟩ := mapM_cons_eq_some.1 h
      rcases List.mem_cons.1 ha with rfl | ha
      · exact ⟨b, List.mem_cons_self, hfirst⟩
      · obtain ⟨found, hfound, hsame⟩ := ih hrest ha
        exact ⟨found, List.mem_cons_of_mem _ hfound, hsame⟩

theorem exists_of_mapM_eq_none {α β : Type} {f : α → Option β} {as : List α}
    (h : as.mapM f = none) : ∃ a ∈ as, f a = none := by
  induction as with
  | nil => cases h
  | cons a rest ih =>
      cases hfirst : f a with
      | none => exact ⟨a, List.mem_cons_self, hfirst⟩
      | some b =>
          cases hrest : rest.mapM f with
          | none =>
              obtain ⟨other, hother, hmissing⟩ := ih hrest
              exact ⟨other, List.mem_cons_of_mem _ hother, hmissing⟩
          | some later =>
              rw [mapM_cons_eq_some.2 ⟨b, later, hfirst, hrest, rfl⟩] at h
              cases h

/-- Where one function finds something, another finds something related. -/
theorem exists_mapM_of_forall {α β γ : Type} {f : α → Option β} {g : α → Option γ}
    {R : β → γ → Prop} (hstep : ∀ a b, f a = some b → ∃ c, g a = some c ∧ R b c) {as : List α}
    {bs : List β} (h : as.mapM f = some bs) :
    ∃ cs, as.mapM g = some cs ∧ List.Forall₂ R bs cs := by
  induction as generalizing bs with
  | nil =>
      obtain rfl := Option.some.inj h
      exact ⟨[], rfl, .nil⟩
  | cons a rest ih =>
      obtain ⟨b, later, hfirst, hrest, rfl⟩ := mapM_cons_eq_some.1 h
      obtain ⟨c, hc, hrelated⟩ := hstep a b hfirst
      obtain ⟨cs, hcs, hall⟩ := ih hrest
      exact ⟨c :: cs, mapM_cons_eq_some.2 ⟨c, cs, hc, hcs, rfl⟩, .cons hrelated hall⟩

/-- The tree of a node, taken apart. -/
theorem treeWithin?_succ_eq_some :
    dom.treeWithin? (depth + 1) node = some tree ↔
      ∃ cell trees, dom.cell? node = some cell ∧
        cell.children.mapM (dom.treeWithin? depth) = some trees ∧ tree = cell.over node trees := by
  rw [treeWithin?]
  cases hcell : dom.cell? node with
  | none => simp
  | some cell =>
      cases cell <;>
        simp [NodeCell.children, NodeCell.over, Option.map_eq_some_iff, @eq_comm _ _ tree]

theorem labels_over {cell : NodeCell} {f : NodeId → Option (Tree NodeId)}
    {trees : List (Tree NodeId)} (h : cell.children.mapM f = some trees) (label : NodeId) :
    (cell.over label trees).labels = label :: Tree.labels.labelsOf trees := by
  cases cell with
  | element tag attributes children => rfl
  | document children => rfl
  | text data =>
      obtain rfl := Option.some.inj h
      rfl
  | comment data =>
      obtain rfl := Option.some.inj h
      rfl

/-- The tree depends on the content of its nodes only. -/
theorem treeWithin?_congr (h : dom.treeWithin? depth node = some tree)
    (hsame : ∀ m ∈ tree.labels, dom'.cell? m = dom.cell? m) :
    dom'.treeWithin? depth node = some tree := by
  induction depth generalizing node tree with
  | zero => cases h
  | succ depth ih =>
      obtain ⟨cell, trees, hcell, htrees, rfl⟩ := treeWithin?_succ_eq_some.1 h
      rw [labels_over htrees] at hsame
      refine treeWithin?_succ_eq_some.2 ⟨cell, trees, ?_, ?_, rfl⟩
      · rw [hsame node List.mem_cons_self, hcell]
      · exact mapM_of_mapM htrees fun child _ tree htree hchild => ih hchild fun m hm =>
          hsame m (List.mem_cons_of_mem _ ((Tree.sublist_labelsOf htree).mem hm))

/-- More depth finds the same tree. -/
theorem treeWithin?_mono {depth' : Nat} (h : dom.treeWithin? depth node = some tree)
    (hle : depth ≤ depth') : dom.treeWithin? depth' node = some tree := by
  induction depth generalizing node tree depth' with
  | zero => cases h
  | succ depth ih =>
      obtain ⟨deeper, rfl⟩ : ∃ deeper, depth' = deeper + 1 := ⟨depth' - 1, by omega⟩
      obtain ⟨cell, trees, hcell, htrees, rfl⟩ := treeWithin?_succ_eq_some.1 h
      exact treeWithin?_succ_eq_some.2 ⟨cell, trees, hcell,
        mapM_of_mapM htrees fun child _ tree _ hchild => ih hchild (by omega), rfl⟩

/-- The nodes of a tree have trees of their own in it. -/
theorem treeWithin?_of_mem_labels (h : dom.treeWithin? depth node = some tree) {m : NodeId}
    (hm : m ∈ tree.labels) :
    ∃ below, dom.treeWithin? depth m = some below ∧ below.labels.Sublist tree.labels := by
  induction depth generalizing node tree with
  | zero => cases h
  | succ depth ih =>
      have hself := h
      obtain ⟨cell, trees, hcell, htrees, rfl⟩ := treeWithin?_succ_eq_some.1 h
      have hlabels := labels_over htrees node
      rw [hlabels] at hm ⊢
      rcases List.mem_cons.1 hm with rfl | hm
      · exact ⟨_, hself, hlabels ▸ List.Sublist.refl _⟩
      · obtain ⟨tree, htree, hmem⟩ := Tree.exists_of_mem_labelsOf hm
        obtain ⟨child, hchild⟩ := exists_of_mapM htrees htree
        obtain ⟨below, hbelow, hsublist⟩ := ih hchild hmem
        exact ⟨below, treeWithin?_mono hbelow (Nat.le_succ depth),
          (hsublist.trans (Tree.sublist_labelsOf htree)).cons node⟩

/-- As many levels as there are nodes in the tree are enough. -/
theorem treeWithin?_length_labels (h : dom.treeWithin? depth node = some tree) :
    dom.treeWithin? tree.labels.length node = some tree := by
  induction depth generalizing node tree with
  | zero => cases h
  | succ depth ih =>
      obtain ⟨cell, trees, hcell, htrees, rfl⟩ := treeWithin?_succ_eq_some.1 h
      rw [labels_over htrees]
      exact treeWithin?_succ_eq_some.2 ⟨cell, trees, hcell,
        mapM_of_mapM htrees fun child _ tree htree hchild =>
          treeWithin?_mono (ih hchild) (Tree.sublist_labelsOf htree).length_le, rfl⟩

/-- A tree in which no node occurs twice is found by looking as deep as there are nodes. -/
theorem tree?_of_treeWithin? (h : dom.treeWithin? depth node = some tree)
    (hlabels : tree.labels.Nodup) : dom.tree? node = some tree := by
  have hsubset : tree.labels ⊆ List.range dom.cells.size := fun m hm =>
    List.mem_range.2 ((listed_tree h).1.there m hm)
  have hlength : tree.labels.length ≤ dom.cells.size := by
    simpa using (List.subperm_of_subset hlabels hsubset).length_le
  exact treeWithin?_mono (treeWithin?_length_labels h) hlength

/-! ## Markup of nodes with trees -/

theorem forestChars_eq_flatten {ι : Type} (trees : List (Tree ι)) :
    Tree.outerChars.forestChars trees = (trees.map Tree.outerChars).flatten := by
  induction trees with
  | nil => rfl
  | cons tree rest ih => rw [Tree.outerChars.forestChars, ih, List.map_cons, List.flatten_cons]

/-- Children are written one after another. -/
theorem outerWithin?_children {children : List NodeId} {trees : List (Tree NodeId)}
    (h : children.mapM (dom.treeWithin? depth) = some trees)
    (hstep : ∀ child tree, dom.treeWithin? depth child = some tree →
      dom.outerWithin? depth child = some tree.outerChars) :
    ∃ inner, children.mapM (dom.outerWithin? depth) = some inner ∧
      inner.flatten = Tree.outerChars.forestChars trees := by
  obtain ⟨inner, hinner, hall⟩ := exists_mapM_of_forall
    (R := fun tree chars => tree.outerChars = chars) (fun child tree h => ⟨_, hstep child tree h, rfl⟩) h
  have hchars : inner = trees.map Tree.outerChars := by
    rw [← List.forall₂_map_left_iff, List.forall₂_eq_eq_eq] at hall
    exact hall.symm
  exact ⟨inner, hinner, by rw [hchars, forestChars_eq_flatten]⟩

/-- A node that has a tree is written as its tree is. -/
theorem outerWithin?_of_treeWithin? (h : dom.treeWithin? depth node = some tree) :
    dom.outerWithin? depth node = some tree.outerChars := by
  induction depth generalizing node tree with
  | zero => cases h
  | succ depth ih =>
      obtain ⟨cell, trees, hcell, htrees, rfl⟩ := treeWithin?_succ_eq_some.1 h
      obtain ⟨inner, hinner, hchars⟩ := outerWithin?_children htrees fun _ _ => ih
      rw [outerWithin?, hcell]
      cases cell with
      | element tag attributes children =>
          have hinner' : children.mapM (dom.outerWithin? depth) = some inner := hinner
          dsimp only
          rw [NodeCell.over, Tree.outerChars, hinner', Option.map_some, hchars]
          split <;> rfl
      | text data => rfl
      | comment data => rfl
      | document children =>
          have hinner' : children.mapM (dom.outerWithin? depth) = some inner := hinner
          dsimp only
          rw [NodeCell.over, Tree.outerChars, hinner', Option.map_some, hchars]

theorem outerMarkup?_of_tree? (h : dom.tree? node = some tree) :
    dom.outerMarkup? node = some tree.outerMarkup := by
  rw [outerMarkup?, outerWithin?_of_treeWithin? h]
  rfl

theorem innerMarkup?_of_tree? (h : dom.tree? node = some tree) :
    dom.innerMarkup? node = some tree.innerMarkup := by
  unfold tree? at h
  obtain ⟨depth, hdepth⟩ : ∃ depth, dom.cells.size = depth + 1 := by
    cases hsize : dom.cells.size with
    | zero =>
        rw [hsize] at h
        cases h
    | succ depth => exact ⟨depth, rfl⟩
  rw [hdepth] at h
  obtain ⟨cell, trees, hcell, htrees, rfl⟩ := treeWithin?_succ_eq_some.1 h
  have htrees' := mapM_of_mapM htrees fun child _ tree _ hchild =>
    treeWithin?_mono hchild (Nat.le_succ depth)
  obtain ⟨inner, hinner, hchars⟩ := outerWithin?_children htrees' fun _ _ =>
    outerWithin?_of_treeWithin?
  rw [innerMarkup?, hcell, Option.bind_some, hdepth, hinner, Option.map_some, hchars]
  cases cell with
  | element tag attributes children => rfl
  | document children => rfl
  | text data =>
      obtain rfl := Option.some.inj htrees
      rfl
  | comment data =>
      obtain rfl := Option.some.inj htrees
      rfl

end Dom

end LiveTemplate
