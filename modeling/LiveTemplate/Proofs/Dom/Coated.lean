import LiveTemplate.Proofs.Dom.Painted
import LiveTemplate.Proofs.Markup.Marks

/-!
# Coated templates

A template is coated where its elements have new texts for children, whatever these read.  Its own
texts may read anything too, and nothing else in it has changed.  The marks of a coated template are
then known from the template and from which elements are coated.
-/

namespace LiveTemplate

/-- The marks of a node, given those of its children. -/
def NodeCell.marksAround (cell : NodeCell) (inside : List Markup.Mark) : List Markup.Mark :=
  match cell with
  | .element tag attributes _ => Markup.Mark.around tag attributes inside
  | .text _ => []
  | .comment data => [.comment data]
  | .document _ => inside

theorem NodeCell.marks_over {ι : Type} (cell : NodeCell) (label : ι) (trees : List (Tree ι)) :
    (cell.over label trees).marks = cell.marksAround (Tree.marks.marksOf trees) := by
  cases cell <;> rfl

/-- The marks of a tree in which there are none inside some elements. -/
def Tree.frame {ι : Type} (coated : ι → Prop) [DecidablePred coated] : Tree ι → List Markup.Mark
  | .element label tag attributes children =>
    Markup.Mark.around tag attributes (if coated label then [] else frameOf children)
  | .text _ _ => []
  | .comment _ data => [.comment data]
  | .document _ children => frameOf children
where
  /-- The marks of several trees. -/
  frameOf : List (Tree ι) → List Markup.Mark
    | [] => []
    | tree :: rest => Tree.frame coated tree ++ frameOf rest

namespace Dom

/-- The coated elements have new texts for children, texts may read anything, and the rest of the
template is as it was. -/
structure Coated (base : Dom) (coated : NodeId → Prop) (dom : Dom) : Prop where
  size_le : base.cells.size ≤ dom.cells.size
  texts : ∀ m data, base.cell? m = some (.text data) → ∃ now, dom.cell? m = some (.text now)
  fresh : ∀ m, base.cells.size ≤ m → m < dom.cells.size → ∃ now, dom.cell? m = some (.text now)
  coats : ∀ m, coated m → ∃ tag attributes children nodes,
    base.cell? m = some (.element tag attributes children) ∧
    dom.cell? m = some (.element tag attributes nodes) ∧
    ∀ n ∈ nodes, base.cells.size ≤ n ∧ n < dom.cells.size
  others : ∀ m cell, ¬coated m → base.cell? m = some cell → cell.kind ≠ "text" →
    dom.cell? m = some cell

variable {base dom : Dom} {node : NodeId} {coated : NodeId → Prop}

/-- Setting the text of a node adds texts only. -/
theorem setText_fresh (dom : Dom) (node : NodeId) (text : String) {m : NodeId}
    (hnew : dom.cells.size ≤ m) (hm : m < (dom.setText node text).cells.size) :
    (dom.setText node text).cell? m = some (.text text) := by
  have hold (hlt : m < dom.cells.size) : False := Nat.not_lt.2 hnew hlt
  unfold setText at hm ⊢
  split
  · next hcell =>
      simp only [hcell, modify, Array.size_modify] at hm
      exact (hold hm).elim
  · next hcell =>
      simp only [hcell, modify, Array.size_modify] at hm
      exact (hold hm).elim
  · next cell htext hcomment hcell =>
      simp only [hcell] at hm
      split
      · next hempty =>
          simp only [hempty, if_pos, modify, Array.size_modify] at hm
          exact (hold hm).elim
      · -- Only here is a node made, and it is a text.
        next hempty =>
          have hsize : m < dom.cells.size + 1 := by
            simpa [hempty, modify, alloc] using hm
          obtain rfl : m = dom.cells.size := Nat.le_antisymm (Nat.le_of_lt_succ hsize) hnew
          have hne : node ≠ dom.cells.size := Nat.ne_of_lt (lt_size_of_cell? hcell)
          rw [cell?_modify, if_neg hne, cell?_alloc_self]
  · next hcell =>
      simp only [hcell] at hm
      exact (hold hm).elim

namespace Coated

theorem refl (base : Dom) : Coated base (fun _ => False) base where
  size_le := Nat.le_refl _
  texts _ data h := ⟨data, h⟩
  fresh _ hle hlt := absurd hlt (Nat.not_lt.2 hle)
  coats _ h := h.elim
  others _ _ _ h _ := h

theorem congr {coated' : NodeId → Prop} (h : Coated base coated dom)
    (hsame : ∀ m, coated m ↔ coated' m) : Coated base coated' dom :=
  (funext fun m => propext (hsame m) : coated = coated') ▸ h

/-- An element keeps its tag and its attributes. -/
theorem cell?_of_element (h : Coated base coated dom) {tag : String} {attributes : Table String}
    {children : List NodeId} (hbase : base.cell? node = some (.element tag attributes children)) :
    ∃ nodes, dom.cell? node = some (.element tag attributes nodes) := by
  by_cases hnode : coated node
  · obtain ⟨_, _, _, nodes, hbase', hcell, -⟩ := h.coats node hnode
    cases hbase.symm.trans hbase'
    exact ⟨nodes, hcell⟩
  · exact ⟨children, h.others node _ hnode hbase (show "element" ≠ "text" by decide)⟩

/-- Painting a text, of the template or a new one, leaves everything coated as it was. -/
theorem setText_of_text (h : Coated base coated dom) {now : String}
    (hcell : dom.cell? node = some (.text now)) (text : String) :
    Coated base coated (dom.setText node text) := by
  have hsize : (dom.setText node text).cells.size = dom.cells.size := by
    unfold Dom.setText
    rw [hcell]
    exact Array.size_modify
  have hself := Dom.setText_of_text hcell text
  have hother (m : NodeId) (hm : m ≠ node) (hlt : m < dom.cells.size) :
      (dom.setText node text).cell? m = dom.cell? m :=
    (Reworked.setText dom node text).others m hm hlt
  have htext (m : NodeId) (h : ∃ now, dom.cell? m = some (.text now)) :
      ∃ now, (dom.setText node text).cell? m = some (.text now) := by
    by_cases hm : m = node
    · exact ⟨text, hm ▸ hself⟩
    · obtain ⟨now, hnow⟩ := h
      exact ⟨now, (hother m hm (lt_size_of_cell? hnow)).trans hnow⟩
  refine ⟨hsize.symm ▸ h.size_le, fun m data hbase => htext m (h.texts m data hbase),
    fun m hle hlt => htext m (h.fresh m hle (hsize ▸ hlt)), fun m hm => ?_,
    fun m cell hm hbase hkind => ?_⟩
  · obtain ⟨tag, attributes, children, nodes, hbase, hnow, hnodes⟩ := h.coats m hm
    refine ⟨tag, attributes, children, nodes, hbase, ?_, fun n hn => hsize.symm ▸ hnodes n hn⟩
    have hne : m ≠ node := by
      rintro rfl
      cases hcell.symm.trans hnow
    exact (hother m hne (lt_size_of_cell? hnow)).trans hnow
  · have hnow := h.others m cell hm hbase hkind
    have hne : m ≠ node := by
      rintro rfl
      obtain rfl := Option.some.inj (hcell.symm.trans hnow)
      exact hkind rfl
    exact (hother m hne (lt_size_of_cell? hnow)).trans hnow

/-- Painting an element of the template coats it. -/
theorem setText_of_element (h : Coated base coated dom) {tag : String}
    {attributes : Table String} {children : List NodeId}
    (hbase : base.cell? node = some (.element tag attributes children)) (text : String) :
    Coated base (fun m => coated m ∨ m = node) (dom.setText node text) := by
  obtain ⟨nodes, hcell⟩ := h.cell?_of_element hbase
  have hreworked := Reworked.setText dom node text
  have hother (m : NodeId) (hm : m ≠ node) (hlt : m < dom.cells.size) :
      (dom.setText node text).cell? m = dom.cell? m := hreworked.others m hm hlt
  obtain ⟨later, hlater, hholds⟩ := Dom.setText_of_element hcell text
  have hkept (m : NodeId) (h : ∃ now, dom.cell? m = some (.text now)) :
      ∃ now, (dom.setText node text).cell? m = some (.text now) := by
    obtain ⟨now, hnow⟩ := h
    have hne : m ≠ node := by
      rintro rfl
      cases hcell.symm.trans hnow
    exact ⟨now, (hother m hne (lt_size_of_cell? hnow)).trans hnow⟩
  -- An element that was coated before and is painted again has the newest text for its child.
  refine ⟨Nat.le_trans h.size_le hreworked.size_le, fun m data hm => hkept m (h.texts m data hm),
    fun m hle hlt => ?_, fun m hm => ?_, fun m cell hm hcell' hkind => ?_⟩
  · by_cases hold : m < dom.cells.size
    · exact hkept m (h.fresh m hle hold)
    · exact ⟨text, setText_fresh dom node text (Nat.le_of_not_lt hold) hlt⟩
  · by_cases hnode : m = node
    · subst hnode
      refine ⟨tag, attributes, children, later, hbase, hlater, fun n hn => ?_⟩
      cases hholds with
      | empty => cases hn
      | filled _ hchild hread =>
          rw [List.mem_singleton.1 hn]
          exact ⟨Nat.le_trans h.size_le hchild, lt_size_of_cell? hread⟩
    · obtain ⟨tag', attributes', children', nodes', hbase', hnow, hnodes⟩ :=
        h.coats m (hm.resolve_right hnode)
      refine ⟨tag', attributes', children', nodes', hbase', ?_, fun n hn => ?_⟩
      · exact (hother m hnode (lt_size_of_cell? hnow)).trans hnow
      · exact ⟨(hnodes n hn).1, Nat.lt_of_lt_of_le (hnodes n hn).2 hreworked.size_le⟩
  · obtain ⟨hm, hnode⟩ := not_or.1 hm
    have hnow := h.others m cell hm hcell' hkind
    exact (hother m hnode (lt_size_of_cell? hnow)).trans hnow

/-! ## Reading coated templates -/

theorem marksOf_frameOf [DecidablePred coated] {trees trees' : List (Tree NodeId)}
    (h : List.Forall₂ (fun tree tree' : Tree NodeId => tree'.marks = tree.frame coated)
      trees trees') :
    Tree.marks.marksOf trees' = Tree.frame.frameOf coated trees := by
  induction h with
  | nil => rfl
  | cons hfirst _ ih =>
      rw [Tree.marks.marksOf, hfirst, ih]
      rfl

/-- New texts are trees without marks. -/
theorem marksOf_fresh (h : Coated base coated dom) (depth : Nat) {nodes : List NodeId}
    (hnodes : ∀ n ∈ nodes, base.cells.size ≤ n ∧ n < dom.cells.size) :
    ∃ trees, nodes.mapM
        (dom.treeWithin? (depth + (dom.cells.size - base.cells.size))) = some trees ∧
      Tree.marks.marksOf trees = [] := by
  induction nodes with
  | nil => exact ⟨[], rfl, rfl⟩
  | cons n rest ih =>
      obtain ⟨hle, hlt⟩ := hnodes n List.mem_cons_self
      obtain ⟨now, hnow⟩ := h.fresh n hle hlt
      obtain ⟨trees, htrees, hmarks⟩ := ih fun m hm => hnodes m (List.mem_cons_of_mem _ hm)
      -- If there are new nodes, then there is room for one more level.
      obtain ⟨room, hroom⟩ : ∃ room, depth + (dom.cells.size - base.cells.size) = room + 1 :=
        ⟨_, (Nat.sub_add_cancel (Nat.le_trans
          (Nat.sub_pos_of_lt (Nat.lt_of_le_of_lt hle hlt)) (Nat.le_add_left _ _))).symm⟩
      refine ⟨.text n now :: trees, mapM_cons_eq_some.2 ⟨_, trees, ?_, htrees, rfl⟩, hmarks⟩
      rw [hroom]
      exact treeWithin?_succ_eq_some.2 ⟨_, [], hnow, rfl, rfl⟩

/-- The marks are those of the template without those inside coated elements. -/
theorem marks_frame [DecidablePred coated] (h : Coated base coated dom) {depth : Nat}
    {node : NodeId} {tree : Tree NodeId} (htree : base.treeWithin? depth node = some tree) :
    ∃ tree', dom.treeWithin? (depth + (dom.cells.size - base.cells.size)) node = some tree' ∧
      tree'.marks = tree.frame coated := by
  induction depth generalizing node tree with
  | zero => cases htree
  | succ depth ih =>
      obtain ⟨cell, trees, hcell, htrees, rfl⟩ := treeWithin?_succ_eq_some.1 htree
      obtain ⟨trees', htrees', hall⟩ := exists_mapM_of_forall (fun _ _ hchild => ih hchild) htrees
      have hmarks := marksOf_frameOf hall
      rw [Nat.succ_add]
      by_cases hcoated : coated node
      · -- What hangs below a coated element now is new, and has no marks.
        obtain ⟨tag, attributes, children, nodes, hbase, hnow, hnodes⟩ := h.coats node hcoated
        obtain rfl := Option.some.inj (hcell.symm.trans hbase)
        obtain ⟨below, hbelow, hnone⟩ := h.marksOf_fresh depth hnodes
        refine ⟨_, treeWithin?_succ_eq_some.2 ⟨_, below, hnow, hbelow, rfl⟩, ?_⟩
        rw [NodeCell.marks_over, hnone, NodeCell.over, Tree.frame, if_pos hcoated]
        rfl
      · by_cases hkind : cell.kind = "text"
        · cases cell with
          | text data =>
              obtain ⟨now, hnow⟩ := h.texts node data hcell
              exact ⟨_, treeWithin?_succ_eq_some.2 ⟨_, [], hnow, rfl, rfl⟩, rfl⟩
          | _ => simp [NodeCell.kind] at hkind
        · -- All else stands as it did, with what is below it.
          have hkept := h.others node cell hcoated hcell hkind
          refine ⟨_, treeWithin?_succ_eq_some.2 ⟨cell, trees', hkept, htrees', rfl⟩, ?_⟩
          rw [NodeCell.marks_over, hmarks]
          cases cell <;> simp [NodeCell.over, Tree.frame, NodeCell.marksAround, hcoated]

/-- So are the marks of a whole document. -/
theorem tree?_marks_frame [DecidablePred coated] (h : Coated base coated dom)
    {tree : Tree NodeId} (htree : base.tree? node = some tree) :
    ∃ tree', dom.tree? node = some tree' ∧ tree'.marks = tree.frame coated := by
  have hread := h.marks_frame htree
  rwa [Nat.add_sub_cancel' h.size_le] at hread

end Coated

end Dom

end LiveTemplate
