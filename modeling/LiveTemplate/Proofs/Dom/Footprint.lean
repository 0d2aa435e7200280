import LiveTemplate.Dom.Basic
import Mathlib.Data.List.Nodup

/-!
# Footprints

The footprint of a node is the list of the nodes at and below it.  A change of a node that leaves
all other nodes alone and hangs only new nodes below it cannot make two ways lead to one node where
there was one way before, and it leaves footprints apart from the node as they were.
-/

namespace LiveTemplate.Dom

variable {dom dom' dom'' : Dom} {node : NodeId}

/-- The nodes at and below a node, down to `depth` levels below it, in document order.  A node that
is reached on several ways is listed for each. -/
def footprint (dom : Dom) : Nat → NodeId → List NodeId
  | 0, node => [node]
  | depth + 1, node => node :: (dom.childrenOf node).flatMap (dom.footprint depth)

/-- The nodes are there, and none is listed twice. -/
def Distinct (dom : Dom) (nodes : List NodeId) : Prop :=
  nodes.Nodup ∧ ∀ node ∈ nodes, node < dom.cells.size

theorem Distinct.of_cons {nodes : List NodeId} (h : dom.Distinct (node :: nodes)) :
    node < dom.cells.size ∧ node ∉ nodes ∧ dom.Distinct nodes := by
  obtain ⟨hlt, hthere⟩ := List.forall_mem_cons.1 h.2
  obtain ⟨hnode, hnodup⟩ := List.nodup_cons.1 h.1
  exact ⟨hlt, hnode, hnodup, hthere⟩

theorem Distinct.of_append {front back : List NodeId} (h : dom.Distinct (front ++ back)) :
    dom.Distinct front ∧ dom.Distinct back ∧ ∀ m ∈ back, m ∉ front := by
  obtain ⟨hfront, hback⟩ := List.forall_mem_append.1 h.2
  obtain ⟨hnodup, hnodup', hapart⟩ := List.nodup_append.1 h.1
  exact ⟨⟨hnodup, hfront⟩, ⟨hnodup', hback⟩, fun m hm hin => hapart m hin m hm rfl⟩

theorem mem_footprint_self (dom : Dom) (depth : Nat) (node : NodeId) :
    node ∈ dom.footprint depth node := by
  cases depth with
  | zero => exact List.mem_singleton.2 rfl
  | succ depth => exact List.mem_cons_self

theorem exists_footprint_eq_cons (dom : Dom) (depth : Nat) (node : NodeId) :
    ∃ below, dom.footprint depth node = node :: below := by
  cases depth <;> exact ⟨_, rfl⟩

/-- What happens outside a footprint does not change it. -/
theorem footprint_congr {depth : Nat}
    (h : ∀ m ∈ dom.footprint depth node, dom'.cell? m = dom.cell? m) :
    dom'.footprint depth node = dom.footprint depth node := by
  induction depth generalizing node with
  | zero => rfl
  | succ depth ih =>
      have hchildren : dom'.childrenOf node = dom.childrenOf node := by
        unfold childrenOf
        rw [h node (mem_footprint_self dom _ node)]
      rw [footprint, footprint, hchildren]
      congr 1
      refine List.flatMap_congr fun child hchild => ih fun m hm => h m ?_
      exact List.mem_cons_of_mem _ (List.mem_flatMap_of_mem hchild hm)

theorem footprints_congr {depth : Nat} {nodes : List NodeId}
    (h : ∀ m ∈ nodes.flatMap (dom.footprint depth), dom'.cell? m = dom.cell? m) :
    nodes.flatMap (dom'.footprint depth) = nodes.flatMap (dom.footprint depth) :=
  List.flatMap_congr fun _ hchild => footprint_congr fun m hm =>
    h m (List.mem_flatMap_of_mem hchild hm)

theorem lt_size_of_cell? {cell : NodeCell} (h : dom.cell? node = some cell) :
    node < dom.cells.size :=
  (Array.getElem?_eq_some_iff.1 h).1

theorem exists_cell? (h : node < dom.cells.size) : ∃ cell, dom.cell? node = some cell :=
  ⟨_, Array.getElem?_eq_getElem h⟩

theorem childrenOf_of_cell? {cell : NodeCell} (h : dom.cell? node = some cell) :
    dom.childrenOf node = cell.children := by
  unfold childrenOf
  rw [h]
  rfl

theorem attributesOf_of_cell? {cell : NodeCell} (h : dom.cell? node = some cell) :
    dom.attributesOf node = cell.attributes := by
  unfold attributesOf
  rw [h]
  rfl

/-! ## Adding nodes -/

/-- Nodes have been added, the given ones among them, and no two ways from these lead to one
node. -/
structure Added (dom dom' : Dom) (nodes : List NodeId) : Prop where
  size_le : dom.cells.size ≤ dom'.cells.size
  others : ∀ m < dom.cells.size, dom'.cell? m = dom.cell? m
  distinct : ∀ depth, dom'.Distinct (nodes.flatMap (dom'.footprint depth))
  fresh : ∀ depth, ∀ m ∈ nodes.flatMap (dom'.footprint depth), dom.cells.size ≤ m

theorem cell?_alloc_self (dom : Dom) (cell : NodeCell) :
    (dom.alloc cell).1.cell? dom.cells.size = some cell :=
  Array.getElem?_push_size

theorem cell?_alloc_of_lt (dom : Dom) (cell : NodeCell) {m : NodeId} (h : m < dom.cells.size) :
    (dom.alloc cell).1.cell? m = dom.cell? m := by
  simp only [alloc, cell?]
  rw [Array.getElem?_push_lt h, Array.getElem?_eq_getElem h]

theorem size_alloc (dom : Dom) (cell : NodeCell) :
    (dom.alloc cell).1.cells.size = dom.cells.size + 1 :=
  Array.size_push _

theorem Added.nil (dom : Dom) : Added dom dom [] where
  size_le := Nat.le_refl _
  others _ _ := rfl
  distinct _ := ⟨List.nodup_nil, fun _ h => absurd h List.not_mem_nil⟩
  fresh _ _ h := absurd h List.not_mem_nil

/-- A node added above added nodes. -/
theorem Added.alloc (cell : NodeCell) (h : Added dom dom' cell.children) :
    Added dom (dom'.alloc cell).1 [dom'.cells.size] := by
  have hsame (m : NodeId) (hm : m < dom'.cells.size) :
      (dom'.alloc cell).1.cell? m = dom'.cell? m := cell?_alloc_of_lt dom' cell hm
  have hchildren : (dom'.alloc cell).1.childrenOf dom'.cells.size = cell.children :=
    childrenOf_of_cell? (cell?_alloc_self dom' cell)
  have hbelow (depth : Nat) : cell.children.flatMap ((dom'.alloc cell).1.footprint depth) =
      cell.children.flatMap (dom'.footprint depth) :=
    footprints_congr fun m hm => hsame m ((h.distinct depth).2 m hm)
  refine ⟨?_, ?_, fun depth => ?_, fun depth m hm => ?_⟩
  · rw [size_alloc]
    exact Nat.le_succ_of_le h.size_le
  · intro m hm
    exact (hsame m (Nat.lt_of_lt_of_le hm h.size_le)).trans (h.others m hm)
  · rw [List.flatMap_singleton]
    cases depth with
    | zero =>
        refine ⟨List.nodup_singleton _, fun m hm => ?_⟩
        rw [List.mem_singleton.1 hm, size_alloc]
        exact Nat.lt_succ_self _
    | succ depth =>
        rw [footprint, hchildren, hbelow]
        obtain ⟨hnodup, hlt⟩ := h.distinct depth
        -- The nodes below the new one were there before it.
        refine ⟨List.nodup_cons.2 ⟨fun hmem => Nat.lt_irrefl _ (hlt _ hmem), hnodup⟩, ?_⟩
        intro m hm
        rw [size_alloc]
        rcases List.mem_cons.1 hm with rfl | hm
        · exact Nat.lt_succ_self _
        · exact Nat.lt_succ_of_lt (hlt m hm)
  · rw [List.flatMap_singleton] at hm
    cases depth with
    | zero =>
        rw [List.mem_singleton.1 hm]
        exact h.size_le
    | succ depth =>
        rw [footprint, hchildren, hbelow] at hm
        rcases List.mem_cons.1 hm with rfl | hm
        · exact h.size_le
        · exact h.fresh depth m hm

theorem Added.append {nodes later : List NodeId} (hfirst : Added dom dom' nodes)
    (hlast : Added dom' dom'' later) : Added dom dom'' (nodes ++ later) := by
  have hsame (depth : Nat) : nodes.flatMap (dom''.footprint depth) =
      nodes.flatMap (dom'.footprint depth) :=
    footprints_congr fun m hm => hlast.others m ((hfirst.distinct depth).2 m hm)
  refine ⟨Nat.le_trans hfirst.size_le hlast.size_le, fun m hm => ?_, fun depth => ?_,
    fun depth m hm => ?_⟩
  · exact (hlast.others m (Nat.lt_of_lt_of_le hm hfirst.size_le)).trans (hfirst.others m hm)
  · obtain ⟨hnodup, hlt⟩ := hfirst.distinct depth
    obtain ⟨hnodup', hlt'⟩ := hlast.distinct depth
    rw [List.flatMap_append, hsame]
    constructor
    · refine List.nodup_append.2 ⟨hnodup, hnodup', fun a ha b hb hab => ?_⟩
      subst hab
      exact Nat.lt_irrefl a (Nat.lt_of_lt_of_le (hlt a ha) (hlast.fresh depth a hb))
    · intro m hm
      rcases List.mem_append.1 hm with hm | hm
      · exact Nat.lt_of_lt_of_le (hlt m hm) hlast.size_le
      · exact hlt' m hm
  · rw [List.flatMap_append, hsame] at hm
    rcases List.mem_append.1 hm with hm | hm
    · exact hfirst.fresh depth m hm
    · exact Nat.le_trans hfirst.size_le (hlast.fresh depth m hm)

/-- The nodes of trees are added. -/
theorem added_addForest {ι : Type} (dom : Dom) (trees : List (Tree ι)) :
    Added dom (dom.addForest trees).1 (dom.addForest trees).2 := by
  refine addForest.induct
    (fun dom (tree : Tree ι) => Added dom (dom.addTree tree).1 [(dom.addTree tree).2])
    (fun dom (trees : List (Tree ι)) => Added dom (dom.addForest trees).1 (dom.addForest trees).2)
    ?element ?text ?comment ?document ?nil ?cons dom trees
  case element =>
    intro dom label tag attributes children dom' nodes hchildren ih
    rw [hchildren] at ih
    rw [addTree, hchildren]
    exact Added.alloc (.element tag attributes nodes) ih
  case text =>
    intro dom label data
    exact Added.alloc (.text data) (.nil dom)
  case comment =>
    intro dom label data
    exact Added.alloc (.comment data) (.nil dom)
  case document =>
    intro dom label children dom' nodes hchildren ih
    rw [hchildren] at ih
    rw [addTree, hchildren]
    exact Added.alloc (.document nodes) ih
  case nil => exact fun dom => .nil dom
  case cons =>
    intro dom tree rest dom' child htree dom'' nodes hrest ihtree ihrest
    rw [htree] at ihtree
    rw [hrest] at ihrest
    rw [addForest, htree]
    simp only [hrest]
    exact ihtree.append ihrest

/-! ## Changing a node -/

/-- A node is as it was, or it has been changed and added nodes hang below it in place of its
children. -/
inductive Rehung (node : NodeId) (dom : Dom) : Dom → Prop
  | refl : Rehung node dom dom
  | hung {dom' : Dom} {nodes : List NodeId} {f : NodeCell → NodeCell} {cell : NodeCell}
      (hcell : dom.cell? node = some cell) (hadded : Added dom dom' nodes)
      (hchildren : (f cell).children = nodes) : Rehung node dom (dom'.modify node f)

namespace Rehung

theorem setText (dom : Dom) (node : NodeId) (text : String) :
    Rehung node dom (dom.setText node text) := by
  unfold Dom.setText
  split
  · next hcell => exact .hung hcell (.nil dom) rfl
  · next hcell => exact .hung hcell (.nil dom) rfl
  · next cell hleaf hleaf' hcell =>
      have hcontainer (nodes : List NodeId) : (cell.withChildren nodes).children = nodes := by
        cases cell with
        | text data => exact absurd rfl (hleaf data)
        | comment data => exact absurd rfl (hleaf' data)
        | _ => rfl
      split
      · exact .hung hcell (.nil dom) (hcontainer [])
      · exact .hung hcell (Added.alloc (.text text) (.nil dom)) (hcontainer _)
  · exact .refl

theorem setMarkup (dom : Dom) (node : NodeId) (markup : String) :
    Rehung node dom (dom.setMarkup node markup) := by
  unfold Dom.setMarkup
  split
  · next cell hcell =>
      split
      · next hcontainer =>
          refine .hung hcell (added_addForest dom _) ?_
          cases cell with
          | element tag attributes children => rfl
          | document children => rfl
          | text data => cases hcontainer
          | comment data => cases hcontainer
      · exact .refl
  · exact .refl

end Rehung

theorem cell?_modify_of_ne (dom : Dom) (f : NodeCell → NodeCell) {m : NodeId} (h : m ≠ node) :
    (dom.modify node f).cell? m = dom.cell? m := by
  simp only [modify, cell?, Array.getElem?_modify]
  rw [if_neg fun heq => h heq.symm]

/-- What is below a node that added nodes have been hung below. -/
theorem Added.footprint_modify {nodes : List NodeId} {f : NodeCell → NodeCell} {cell : NodeCell}
    (hcell : dom.cell? node = some cell) (h : Added dom dom' nodes)
    (hchildren : (f cell).children = nodes) (depth : Nat) :
    (dom'.modify node f).footprint (depth + 1) node =
      node :: nodes.flatMap (dom'.footprint depth) := by
  have hlt : node < dom.cells.size := lt_size_of_cell? hcell
  have hbelow : (dom'.modify node f).childrenOf node = nodes := by
    have hsame := (h.others node hlt).trans hcell
    unfold childrenOf
    simp only [modify, cell?, Array.getElem?_modify, if_pos]
    unfold cell? at hsame
    rw [hsame]
    exact hchildren
  rw [footprint, hbelow]
  congr 1
  refine footprints_congr fun m hm => cell?_modify_of_ne dom' f fun heq => ?_
  subst heq
  exact Nat.lt_irrefl _ (Nat.lt_of_lt_of_le hlt (h.fresh depth m hm))

/-- A node has been changed, with new nodes below it at most, and every other node is as it was. -/
structure Reworked (node : NodeId) (dom dom' : Dom) : Prop where
  size_le : dom.cells.size ≤ dom'.cells.size
  others : ∀ m, m ≠ node → m < dom.cells.size → dom'.cell? m = dom.cell? m
  distinct : ∀ depth, dom.Distinct (dom.footprint depth node) →
    dom'.Distinct (dom'.footprint depth node)
  within : ∀ depth, dom.Distinct (dom.footprint depth node) →
    ∀ m ∈ dom'.footprint depth node, m ∈ dom.footprint depth node ∨ dom.cells.size ≤ m

namespace Reworked

theorem refl (node : NodeId) (dom : Dom) : Reworked node dom dom :=
  ⟨Nat.le_refl _, fun _ _ _ => rfl, fun _ h => h, fun _ _ _ h => .inl h⟩

theorem trans (hfirst : Reworked node dom dom') (hlast : Reworked node dom' dom'') :
    Reworked node dom dom'' where
  size_le := Nat.le_trans hfirst.size_le hlast.size_le
  others m hm hlt :=
    (hlast.others m hm (Nat.lt_of_lt_of_le hlt hfirst.size_le)).trans (hfirst.others m hm hlt)
  distinct depth h := hlast.distinct depth (hfirst.distinct depth h)
  within depth h m hm := by
    rcases hlast.within depth (hfirst.distinct depth h) m hm with hmid | hnew
    · exact hfirst.within depth h m hmid
    · exact .inr (Nat.le_trans hfirst.size_le hnew)

/-- Nodes have been added and hung below a node in place of its children. -/
theorem of_added {nodes : List NodeId} {f : NodeCell → NodeCell} {cell : NodeCell}
    (hcell : dom.cell? node = some cell) (h : Added dom dom' nodes)
    (hchildren : (f cell).children = nodes) : Reworked node dom (dom'.modify node f) := by
  have hlt : node < dom.cells.size := lt_size_of_cell? hcell
  have hsize : (dom'.modify node f).cells.size = dom'.cells.size := Array.size_modify
  have hfootprint := Added.footprint_modify hcell h hchildren
  refine ⟨?_, fun m hm hmlt => (cell?_modify_of_ne dom' f hm).trans (h.others m hmlt),
    fun depth _ => ?_, fun depth _ m hm => ?_⟩
  · rw [hsize]
    exact h.size_le
  · cases depth with
    | zero =>
        refine ⟨List.nodup_singleton _, fun m hm => ?_⟩
        rw [List.mem_singleton.1 hm, hsize]
        exact Nat.lt_of_lt_of_le hlt h.size_le
    | succ depth =>
        obtain ⟨hnodup, hthere⟩ := h.distinct depth
        rw [hfootprint]
        constructor
        · -- The node is older than what hangs below it now.
          refine List.nodup_cons.2 ⟨fun hmem => ?_, hnodup⟩
          exact Nat.lt_irrefl _ (Nat.lt_of_lt_of_le hlt (h.fresh depth node hmem))
        · intro m hm
          rw [hsize]
          rcases List.mem_cons.1 hm with rfl | hm
          · exact Nat.lt_of_lt_of_le hlt h.size_le
          · exact hthere m hm
  · cases depth with
    | zero => exact .inl hm
    | succ depth =>
        rw [hfootprint] at hm
        rcases List.mem_cons.1 hm with rfl | hm
        · exact .inl (mem_footprint_self dom _ m)
        · exact .inr (h.fresh depth m hm)

theorem of_rehung (h : Rehung node dom dom') : Reworked node dom dom' := by
  cases h with
  | refl => exact refl node dom
  | hung hcell hadded hchildren => exact of_added hcell hadded hchildren

theorem setText (dom : Dom) (node : NodeId) (text : String) :
    Reworked node dom (dom.setText node text) := .of_rehung (.setText dom node text)

theorem setMarkup (dom : Dom) (node : NodeId) (markup : String) :
    Reworked node dom (dom.setMarkup node markup) := .of_rehung (.setMarkup dom node markup)

end Reworked

/-! ## The order of nodes -/

/-- Those of the nodes at and below a node that were there before are in their old order. -/
structure Ordered (node : NodeId) (dom dom' : Dom) : Prop where
  size_le : dom.cells.size ≤ dom'.cells.size
  sublist : ∀ depth, ((dom'.footprint depth node).filter (· < dom.cells.size)).Sublist
    (dom.footprint depth node)

namespace Ordered

theorem refl (node : NodeId) (dom : Dom) : Ordered node dom dom :=
  ⟨Nat.le_refl _, fun _ => List.filter_sublist⟩

/-- What is left of a list of nodes that were there at a time can be taken from what is left of
later ones. -/
theorem filter_of_size_le {nodes later : List NodeId} (hle : dom.cells.size ≤ dom'.cells.size)
    (h : (later.filter (· < dom'.cells.size)).Sublist nodes) :
    (later.filter (· < dom.cells.size)).Sublist (nodes.filter (· < dom.cells.size)) := by
  have hboth : later.filter (· < dom.cells.size) =
      (later.filter (· < dom'.cells.size)).filter (· < dom.cells.size) := by
    rw [List.filter_filter]
    refine List.filter_congr fun m _ => ?_
    by_cases hm : m < dom.cells.size
    · simp [hm, Nat.lt_of_lt_of_le hm hle]
    · simp [hm]
  rw [hboth]
  exact h.filter _

theorem trans (hfirst : Ordered node dom dom') (hlast : Ordered node dom' dom'') :
    Ordered node dom dom'' where
  size_le := Nat.le_trans hfirst.size_le hlast.size_le
  sublist depth :=
    (filter_of_size_le hfirst.size_le (hlast.sublist depth)).trans (hfirst.sublist depth)

theorem of_rehung (h : Rehung node dom dom') : Ordered node dom dom' := by
  cases h with
  | refl => exact refl node dom
  | @hung dom' nodes f cell hcell hadded hchildren =>
      refine ⟨(Reworked.of_added hcell hadded hchildren).size_le, fun depth => ?_⟩
      cases depth with
      | zero => exact List.filter_sublist
      | succ depth =>
          rw [Added.footprint_modify hcell hadded hchildren,
            List.filter_cons_of_pos (by simpa using lt_size_of_cell? hcell)]
          -- Everything below the node is new.
          have hnew : (nodes.flatMap (dom'.footprint depth)).filter (· < dom.cells.size) = [] := by
            refine List.filter_eq_nil_iff.2 fun m hm => ?_
            simpa using hadded.fresh depth m hm
          rw [hnew]
          exact (List.nil_sublist _).cons_cons node

end Ordered

end LiveTemplate.Dom
