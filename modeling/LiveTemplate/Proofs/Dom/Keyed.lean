import LiveTemplate.Proofs.NodeGraphs
import LiveTemplate.Proofs.Reactive.Definitions

/-!
# Distinct attribute names

No element of a program has two attributes of one name: neither the calls on attributes nor the
reading of a markup text lets a second one in.
-/

namespace LiveTemplate

theorem Table.keys_erase {α : Type} (table : Table α) (key : String) :
    keys (erase table key) = (keys table).erase key := by
  induction table with
  | nil => rfl
  | cons entry rest ih =>
      obtain ⟨k, v⟩ := entry
      rw [erase, show keys ((k, v) :: rest) = k :: keys rest from rfl, List.erase_cons]
      by_cases hk : k = key
      · rw [if_pos hk, if_pos (beq_iff_eq.2 hk)]
      · rw [if_neg hk, if_neg (mt beq_iff_eq.1 hk), ← ih]
        rfl

namespace NodeCell

variable (cell : NodeCell)

theorem withChildren_attributes (children : List NodeId) :
    (cell.withChildren children).attributes = cell.attributes := by
  cases cell <;> rfl

/-- Only an element takes the attributes that it is given. -/
theorem withAttributes_attributes (attributes : Table String) :
    (cell.withAttributes attributes).attributes = attributes ∨
      (cell.withAttributes attributes).attributes = [] := by
  cases cell with
  | element tag others children => exact .inl rfl
  | _ => exact .inr rfl

end NodeCell

/-! ## Trees -/

namespace Tree

variable {ι : Type}

/-- No element of a tree has an attribute name twice. -/
def Keyed : Tree ι → Prop
  | element _ _ attributes children => (Table.keys attributes).Nodup ∧ keyedForest children
  | document _ children => keyedForest children
  | _ => True
where
  /-- No element of the trees has an attribute name twice. -/
  keyedForest : List (Tree ι) → Prop
    | [] => True
    | tree :: rest => tree.Keyed ∧ keyedForest rest

theorem Keyed.keyedForest_iff {trees : List (Tree ι)} :
    keyedForest trees ↔ ∀ tree ∈ trees, tree.Keyed := by
  induction trees with
  | nil => exact ⟨fun _ _ htree => absurd htree List.not_mem_nil, fun _ => trivial⟩
  | cons tree rest ih => rw [keyedForest, ih, List.forall_mem_cons]

end Tree

/-- The attributes of an element are collected in a table when its tree is made. -/
theorem Markup.Builder.keyed_treeOf? {b : Builder} {fuel id : Nat} {tree : Tree Unit}
    (h : b.treeOf? fuel id = some tree) : tree.Keyed := by
  induction fuel generalizing id tree with
  | zero => cases h
  | succ fuel ih =>
      unfold Builder.treeOf? at h
      split at h
      · cases h
        refine ⟨Table.nodup_keys_ofEntries _, Tree.Keyed.keyedForest_iff.2 fun child hchild => ?_⟩
        obtain ⟨id, -, hid⟩ := List.mem_filterMap.1 hchild
        exact ih hid
      · cases h
        exact trivial
      · cases h
        exact trivial
      · cases h

theorem Markup.keyed_of_mem_parseMarkup {text : String} {tree : Tree Unit}
    (h : tree ∈ parseMarkup text) : tree.Keyed := by
  obtain ⟨id, -, hid⟩ := List.mem_filterMap.1 h
  exact Builder.keyed_treeOf? hid

/-! ## Heaps -/

namespace Dom

variable {dom : Dom} {node : NodeId}

/-- No element has an attribute name twice. -/
def Keyed (dom : Dom) : Prop :=
  ∀ node cell, dom.cell? node = some cell → (Table.keys cell.attributes).Nodup

namespace Keyed

theorem empty : ({} : Dom).Keyed := by
  intro node cell hcell
  exact absurd hcell (by simp [cell?])

theorem alloc (h : dom.Keyed) {cell : NodeCell} (hcell : (Table.keys cell.attributes).Nodup) :
    (dom.alloc cell).1.Keyed := by
  intro m other hother
  rcases Nat.lt_trichotomy m dom.cells.size with hlt | rfl | hgt
  · rw [cell?_alloc_of_lt dom cell hlt] at hother
    exact h m other hother
  · rw [cell?_alloc_self] at hother
    exact Option.some.inj hother ▸ hcell
  · have hlt := lt_size_of_cell? hother
    rw [size_alloc] at hlt
    exact absurd (Nat.le_of_lt_succ hlt) (Nat.not_le_of_lt hgt)

theorem modify (h : dom.Keyed) {f : NodeCell → NodeCell}
    (hf : ∀ cell, (Table.keys cell.attributes).Nodup → (Table.keys (f cell).attributes).Nodup) :
    (dom.modify node f).Keyed := by
  intro m other hother
  rw [cell?_modify] at hother
  split at hother
  · obtain ⟨cell, hcell, rfl⟩ := Option.map_eq_some_iff.1 hother
    exact hf cell (h m cell hcell)
  · exact h m other hother

theorem withChildren (h : dom.Keyed) (children : NodeCell → List NodeId) :
    (dom.modify node fun cell => cell.withChildren (children cell)).Keyed :=
  h.modify fun cell hcell => by rwa [cell.withChildren_attributes]

theorem withAttributes (h : dom.Keyed) (node : NodeId) {attributes : Table String → Table String}
    (hkeys : ∀ table, (Table.keys table).Nodup → (Table.keys (attributes table)).Nodup) :
    (dom.modify node fun cell => cell.withAttributes (attributes cell.attributes)).Keyed := by
  refine h.modify fun cell hcell => ?_
  rcases cell.withAttributes_attributes (attributes cell.attributes) with hnew | hnone
  · rw [hnew]
    exact hkeys _ hcell
  · rw [hnone]
    exact List.nodup_nil

/-- The elements of a markup text have no attribute name twice. -/
theorem addForest {ι : Type} (h : dom.Keyed) {trees : List (Tree ι)}
    (htrees : ∀ tree ∈ trees, tree.Keyed) : (dom.addForest trees).1.Keyed := by
  refine addForest.induct
    (fun dom (tree : Tree ι) => dom.Keyed → tree.Keyed → (dom.addTree tree).1.Keyed)
    (fun dom (trees : List (Tree ι)) => dom.Keyed → Tree.Keyed.keyedForest trees →
      (dom.addForest trees).1.Keyed)
    ?element ?text ?comment ?document ?nil ?cons dom trees h (Tree.Keyed.keyedForest_iff.2 htrees)
  case element =>
    intro dom label tag attributes children dom' nodes hchildren ih h htree
    rw [hchildren] at ih
    rw [addTree, hchildren]
    exact (ih h htree.2).alloc htree.1
  case text => exact fun dom label data h _ => h.alloc List.nodup_nil
  case comment => exact fun dom label data h _ => h.alloc List.nodup_nil
  case document =>
    intro dom label children dom' nodes hchildren ih h htree
    rw [hchildren] at ih
    rw [addTree, hchildren]
    exact (ih h htree).alloc List.nodup_nil
  case nil => exact fun dom h _ => h
  case cons =>
    intro dom tree rest dom' child htree dom'' nodes hrest ihtree ihrest h htrees
    rw [htree] at ihtree
    rw [hrest] at ihrest
    rw [Dom.addForest, htree]
    simp only [hrest]
    exact ihrest (ihtree h htrees.1) htrees.2

theorem setText (h : dom.Keyed) (node : NodeId) (text : String) : (dom.setText node text).Keyed := by
  unfold Dom.setText
  split
  · exact h.modify fun _ _ => List.nodup_nil
  · exact h.modify fun _ _ => List.nodup_nil
  · split
    · exact h.withChildren _
    · have htext : (Table.keys (NodeCell.text text).attributes).Nodup := List.nodup_nil
      exact (h.alloc htext).withChildren _
  · exact h

theorem setMarkup (h : dom.Keyed) (node : NodeId) (markup : String) :
    (dom.setMarkup node markup).Keyed := by
  unfold Dom.setMarkup
  split
  · split
    · exact (h.addForest fun _ => Markup.keyed_of_mem_parseMarkup).withChildren _
    · exact h
  · exact h

/-- One operation on nodes. -/
theorem apply (h : dom.Keyed) (operation : NodeOperation) : (operation.apply dom).Keyed := by
  cases operation with
  | element tag => exact h.alloc List.nodup_nil
  | text data => exact h.alloc List.nodup_nil
  | comment data => exact h.alloc List.nodup_nil
  | document => exact h.alloc List.nodup_nil
  | append parent child => exact h.withChildren _
  | setText node text => exact h.setText node text
  | setMarkup node markup => exact h.setMarkup node markup
  | setAttribute node name value =>
      have hinsert : ∀ table : Table String, (Table.keys table).Nodup →
          (Table.keys (Table.insert table name value)).Nodup :=
        fun _ hkeys => Table.nodup_keys_insert hkeys name value
      have hkeyed := h.withAttributes node hinsert
      exact hkeyed
  | removeAttribute node name =>
      have herase : ∀ table : Table String, (Table.keys table).Nodup →
          (Table.keys (Table.erase table name)).Nodup := by
        intro table hkeys
        rw [Table.keys_erase]
        exact hkeys.erase name
      have hkeyed := h.withAttributes node herase
      exact hkeyed

/-- Whatever a program does with nodes, no element comes to have an attribute name twice. -/
theorem of_reachable {permitted : Dom → NodeOperation → Prop} (h : dom.Reachable permitted) :
    dom.Keyed := by
  induction h with
  | empty => exact .empty
  | step _ _ _ ih => exact ih.apply _

end Keyed

end Dom

end LiveTemplate
