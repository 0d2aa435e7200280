import LiveTemplate.Proofs.Dom.Trees

/-!
# Painted templates

Nodes of a template are painted with texts, again and again.  A text node then has the text as its
data, and an element has it as its only child.  Whatever was painted before, only the last text at
each node counts: the markup of the painted template is that of the template with those texts in
place.
-/

namespace LiveTemplate

namespace Dom

/-! ## Setting the text of a node -/

/-- The nodes are one text with the given content, at or above a place in the heap, or none if it is
empty. -/
inductive HoldsText (dom : Dom) (base : Nat) : String → List NodeId → Prop
  | empty : HoldsText dom base "" []
  | filled {text : String} {child : NodeId} (hfilled : text ≠ "") (hbase : base ≤ child)
      (hchild : dom.cell? child = some (.text text)) : HoldsText dom base text [child]

variable {dom dom' base : Dom} {node : NodeId}

theorem HoldsText.congr {limit : Nat} {text : String} {nodes : List NodeId}
    (h : dom.HoldsText limit text nodes)
    (hsame : ∀ m, limit ≤ m → m < dom.cells.size → dom'.cell? m = dom.cell? m) :
    dom'.HoldsText limit text nodes := by
  cases h with
  | empty => exact .empty
  | filled hfilled hbase hchild =>
      exact .filled hfilled hbase ((hsame _ hbase (lt_size_of_cell? hchild)).trans hchild)

theorem HoldsText.mono {limit limit' : Nat} {text : String} {nodes : List NodeId}
    (h : dom.HoldsText limit text nodes) (hle : limit' ≤ limit) :
    dom.HoldsText limit' text nodes := by
  cases h with
  | empty => exact .empty
  | filled hfilled hbase hchild => exact .filled hfilled (Nat.le_trans hle hbase) hchild

theorem cell?_modify (dom : Dom) (node : NodeId) (f : NodeCell → NodeCell) (m : NodeId) :
    (dom.modify node f).cell? m = if node = m then (dom.cell? m).map f else dom.cell? m :=
  Array.getElem?_modify

theorem setText_of_text {data : String} (h : dom.cell? node = some (.text data)) (text : String) :
    (dom.setText node text).cell? node = some (.text text) := by
  unfold setText
  rw [h]
  dsimp only
  rw [cell?_modify, if_pos rfl, h]
  rfl

theorem setText_of_element {tag : String} {attributes : Table String} {children : List NodeId}
    (h : dom.cell? node = some (.element tag attributes children)) (text : String) :
    ∃ nodes, (dom.setText node text).cell? node = some (.element tag attributes nodes) ∧
      (dom.setText node text).HoldsText dom.cells.size text nodes := by
  have hlt := lt_size_of_cell? h
  unfold setText
  rw [h]
  dsimp only
  by_cases hempty : text.isEmpty
  · rw [if_pos hempty]
    obtain rfl : text = "" := by simpa using hempty
    refine ⟨[], ?_, .empty⟩
    rw [cell?_modify, if_pos rfl, h]
    rfl
  · rw [if_neg hempty]
    refine ⟨[dom.cells.size], ?_, .filled (by simpa using hempty) (Nat.le_refl _) ?_⟩
    · rw [cell?_modify, if_pos rfl, cell?_alloc_of_lt dom _ hlt, h]
      rfl
    · rw [cell?_modify, if_neg (Nat.ne_of_lt hlt), cell?_alloc_self]

/-! ## Painted nodes -/

/-- A text or an element shows a text in place of what it had. -/
inductive Shows (base dom : Dom) (node : NodeId) (text : String) : Prop
  | text {data : String} (hbase : base.cell? node = some (.text data))
      (hcell : dom.cell? node = some (.text text))
  | element {tag : String} {attributes : Table String} {children nodes : List NodeId}
      (hbase : base.cell? node = some (.element tag attributes children))
      (hcell : dom.cell? node = some (.element tag attributes nodes))
      (hnodes : dom.HoldsText base.cells.size text nodes)

/-- The nodes with a text show it, and the others are as they were in the template. -/
structure Painted (base : Dom) (text? : NodeId → Option String) (dom : Dom) : Prop where
  size_le : base.cells.size ≤ dom.cells.size
  others : ∀ m < base.cells.size, text? m = none → dom.cell? m = base.cell? m
  shown : ∀ m text, text? m = some text → Shows base dom m text

namespace Painted

variable {text? : NodeId → Option String}

theorem nil (base : Dom) : Painted base (fun _ => none) base where
  size_le := Nat.le_refl _
  others _ _ _ := rfl
  shown _ _ h := nomatch h

/-- A node that can show a text still can, whatever it shows now. -/
theorem kind_of_node (h : Painted base text? dom) {cell : NodeCell}
    (hcell : base.cell? node = some cell) :
    ∃ now, dom.cell? node = some now ∧ now.kind = cell.kind ∧ now.tag? = cell.tag? ∧
      now.attributes = cell.attributes := by
  cases htext : text? node with
  | none =>
      have hkept := h.others node (lt_size_of_cell? hcell) htext
      exact ⟨cell, hkept.trans hcell, rfl, rfl, rfl⟩
  | some text =>
      cases h.shown node text htext with
      | text hbase hnow =>
          obtain rfl := Option.some.inj (hcell.symm.trans hbase)
          exact ⟨_, hnow, rfl, rfl, rfl⟩
      | element hbase hnow =>
          obtain rfl := Option.some.inj (hcell.symm.trans hbase)
          exact ⟨_, hnow, rfl, rfl, rfl⟩

/-- Painting a node changes what it shows and nothing else. -/
theorem setText (h : Painted base text? dom) {cell : NodeCell}
    (hcell : base.cell? node = some cell) (hkind : cell.kind = "text" ∨ cell.kind = "element")
    (text : String) :
    Painted base (Function.update text? node (some text)) (dom.setText node text) := by
  have hreworked := Reworked.setText dom node text
  have hlt := lt_size_of_cell? hcell
  have hkept (m : NodeId) (hm : m ≠ node) (hmlt : m < dom.cells.size) :
      (dom.setText node text).cell? m = dom.cell? m := hreworked.others m hm hmlt
  refine ⟨Nat.le_trans h.size_le hreworked.size_le, fun m hm hnone => ?_, fun m shown hshown => ?_⟩
  · have hne : m ≠ node := by
      rintro rfl
      rw [Function.update_self] at hnone
      cases hnone
    rw [Function.update_of_ne hne] at hnone
    rw [hkept m hne (Nat.lt_of_lt_of_le hm h.size_le)]
    exact h.others m hm hnone
  · by_cases hsame : m = node
    · subst hsame
      rw [Function.update_self] at hshown
      obtain rfl := Option.some.inj hshown
      obtain ⟨now, hnow, hnowKind, htag, hattributes⟩ := h.kind_of_node hcell
      cases cell with
      | text data =>
          cases now with
          | text data' => exact .text hcell (setText_of_text hnow text)
          | _ => simp [NodeCell.kind] at hnowKind
      | element tag attributes children =>
          cases now with
          | element tag' attributes' children' =>
              obtain rfl := Option.some.inj htag
              obtain rfl : attributes' = attributes := hattributes
              obtain ⟨nodes, hlast, hholds⟩ := setText_of_element hnow text
              exact .element hcell hlast (hholds.mono h.size_le)
          | _ => simp [NodeCell.kind] at hnowKind
      | _ => simp [NodeCell.kind] at hkind
    · rw [Function.update_of_ne hsame] at hshown
      cases h.shown m shown hshown with
      | text hbase hnow =>
          exact .text hbase ((hkept m hsame (lt_size_of_cell? hnow)).trans hnow)
      | element hbase hnow hnodes =>
          refine .element hbase ((hkept m hsame (lt_size_of_cell? hnow)).trans hnow) ?_
          -- The text below another node is newer than the template.
          exact hnodes.congr fun k hk hklt =>
            hkept k (Nat.ne_of_gt (Nat.lt_of_lt_of_le hlt hk)) hklt

end Painted

end Dom

/-! ## Templates with texts in place -/

/-- A template with texts in place: as data of a text, or as the only child of an element. -/
def Tree.shown {ι : Type} (text? : ι → Option String) : Tree ι → Tree ι
  | .element label tag attributes children =>
    match text? label with
    | some content =>
      .element label tag attributes (if content = "" then [] else [.text label content])
    | none => .element label tag attributes (shownOf children)
  | .text label data => .text label ((text? label).getD data)
  | .comment label data => .comment label data
  | .document label children => .document label (shownOf children)
where
  /-- Several templates with texts in place. -/
  shownOf : List (Tree ι) → List (Tree ι)
    | [] => []
    | tree :: rest => Tree.shown text? tree :: shownOf rest

end LiveTemplate
