import LiveTemplate.Proofs.Dom.Trees

/-!
# Overhauled parts of a tree

A part of a tree is worked on when nodes in it are changed one after another, each with new nodes
below it at most.  Nodes outside of the part stay as they are.  What is in the part afterwards is
still reached on one way each, and nodes that were there before are still in their old order.
-/

namespace LiveTemplate.Dom

variable {dom dom' dom'' : Dom} {node : NodeId}

/-- A part of a tree has been worked on, with other nodes in it than before. -/
structure Overhauled (old new : List NodeId) (dom dom' : Dom) : Prop where
  size_le : dom.cells.size ≤ dom'.cells.size
  others : ∀ m < dom.cells.size, m ∉ old → dom'.cell? m = dom.cell? m
  distinct : dom'.Distinct new
  sublist : (new.filter (· < dom.cells.size)).Sublist old

namespace Overhauled

variable {old new old' new' mid : List NodeId}

theorem within (h : Overhauled old new dom dom') {m : NodeId} (hm : m ∈ new) :
    m ∈ old ∨ dom.cells.size ≤ m := by
  by_cases hlt : m < dom.cells.size
  · exact .inl (h.sublist.mem (List.mem_filter.2 ⟨hm, decide_eq_true hlt⟩))
  · exact .inr (Nat.le_of_not_lt hlt)

theorem refl (h : dom.Distinct old) : Overhauled old old dom dom where
  size_le := Nat.le_refl _
  others _ _ _ := rfl
  distinct := h
  sublist := List.filter_sublist

theorem trans (h : Overhauled old mid dom dom') (h' : Overhauled mid new dom' dom'') :
    Overhauled old new dom dom'' where
  size_le := Nat.le_trans h.size_le h'.size_le
  others m hlt hm := by
    rw [h'.others m (Nat.lt_of_lt_of_le hlt h.size_le) fun hmid => ?_]
    · exact h.others m hlt hm
    · exact (h.within hmid).elim hm (Nat.not_le_of_lt hlt)
  distinct := h'.distinct
  sublist := (Ordered.filter_of_size_le h.size_le h'.sublist).trans h.sublist

/-- Footprints apart from the part are as they were. -/
theorem apart (h : Overhauled old new dom dom') {nodes : List NodeId} {depth : Nat}
    (hdistinct : dom.Distinct (old ++ nodes.flatMap (dom.footprint depth))) :
    nodes.flatMap (dom'.footprint depth) = nodes.flatMap (dom.footprint depth) ∧
      dom'.Distinct (nodes.flatMap (dom.footprint depth)) := by
  obtain ⟨-, ⟨hnodup, hlt⟩, hapart⟩ := hdistinct.of_append
  exact ⟨footprints_congr fun m hm => h.others m (hlt m hm) (hapart m hm), hnodup, fun m hm =>
    Nat.lt_of_lt_of_le (hlt m hm) h.size_le⟩

/-- What one part has become is left alone when a part apart from it is worked on, and the two are
one part that has been worked on. -/
theorem append (h : Overhauled old new dom dom') (h' : Overhauled old' new' dom' dom'')
    (hdistinct : dom.Distinct (old ++ old')) :
    (∀ m ∈ new, dom''.cell? m = dom'.cell? m) ∧
      Overhauled (old ++ old') (new ++ new') dom dom'' := by
  obtain ⟨-, ⟨-, hlt⟩, hapart⟩ := hdistinct.of_append
  have hout (m : NodeId) (hm : m ∈ new) : m ∉ old' := by
    intro hold
    rcases h.within hm with hin | hnew
    · exact hapart m hold hin
    · exact Nat.not_le_of_lt (hlt m hold) hnew
  have hkept (m : NodeId) (hm : m ∈ new) : dom''.cell? m = dom'.cell? m :=
    h'.others m (h.distinct.2 m hm) (hout m hm)
  refine ⟨hkept, ⟨Nat.le_trans h.size_le h'.size_le, fun m hm hnot => ?_, ⟨?_, fun m hm => ?_⟩, ?_⟩⟩
  · rw [h'.others m (Nat.lt_of_lt_of_le hm h.size_le) fun hold =>
      hnot (List.mem_append_right _ hold)]
    exact h.others m hm fun hold => hnot (List.mem_append_left _ hold)
  · refine List.nodup_append.2 ⟨h.distinct.1, h'.distinct.1, fun m hm m' hm' hsame => ?_⟩
    subst hsame
    -- The later nodes are of the other part, or newer than the earlier ones.
    rcases h'.within hm' with hold | hnew
    · exact hout m hm hold
    · exact Nat.not_le_of_lt (h.distinct.2 m hm) hnew
  · rcases List.mem_append.1 hm with hm | hm
    · exact Nat.lt_of_lt_of_le (h.distinct.2 m hm) h'.size_le
    · exact h'.distinct.2 m hm
  · rw [List.filter_append]
    exact h.sublist.append
      ((Ordered.filter_of_size_le h.size_le h'.sublist).trans List.filter_sublist)

/-- So is a node with the part below it, and the node itself is left alone. -/
theorem cons (h : Overhauled old new dom dom') (hdistinct : dom.Distinct (node :: old)) :
    dom'.cell? node = dom.cell? node ∧ Overhauled (node :: old) (node :: new) dom dom' := by
  obtain ⟨hlt, hnode, -⟩ := hdistinct.of_cons
  have hnew : node ∉ new := fun hm => (h.within hm).elim hnode (Nat.not_le_of_lt hlt)
  refine ⟨h.others node hlt hnode, ⟨h.size_le, fun m hm hout => ?_,
    ⟨List.nodup_cons.2 ⟨hnew, h.distinct.1⟩, fun m hm => ?_⟩, ?_⟩⟩
  · exact h.others m hm fun hold => hout (List.mem_cons_of_mem _ hold)
  · rcases List.mem_cons.1 hm with rfl | hm
    · exact Nat.lt_of_lt_of_le hlt h.size_le
    · exact h.distinct.2 m hm
  · rw [List.filter_cons_of_pos (by simpa using hlt)]
    exact h.sublist.cons_cons node

/-- A node that is changed in order overhauls what is at and below it. -/
theorem of_reworked (h : Reworked node dom dom') (hordered : Ordered node dom dom') {depth : Nat}
    (hdistinct : dom.Distinct (dom.footprint depth node)) :
    Overhauled (dom.footprint depth node) (dom'.footprint depth node) dom dom' where
  size_le := h.size_le
  others m hlt hm := h.others m (fun heq => hm (heq ▸ dom.mem_footprint_self depth node)) hlt
  distinct := h.distinct depth hdistinct
  sublist := hordered.sublist depth

end Overhauled

/-! ## Footprints and trees -/

/-- The nodes of a tree are those at and below its root. -/
theorem footprint_of_treeWithin? {depth deeper : Nat} {tree : Tree NodeId}
    (h : dom.treeWithin? depth node = some tree) (hle : depth ≤ deeper) :
    dom.footprint deeper node = tree.labels := by
  induction depth generalizing node tree deeper with
  | zero => cases h
  | succ depth ih =>
      obtain ⟨deeper, rfl⟩ : ∃ less, deeper = less + 1 := ⟨deeper - 1, by omega⟩
      obtain ⟨cell, trees, hcell, htrees, rfl⟩ := treeWithin?_succ_eq_some.1 h
      rw [footprint, childrenOf_of_cell? hcell, labels_over htrees]
      congr 1
      clear hcell h
      generalize cell.children = nodes at htrees
      induction nodes generalizing trees with
      | nil =>
          obtain rfl := Option.some.inj htrees
          rfl
      | cons child rest ihrest =>
          obtain ⟨tree, later, hfirst, hrest, rfl⟩ := mapM_cons_eq_some.1 htrees
          rw [List.flatMap_cons, ih hfirst (Nat.le_of_succ_le_succ hle), ihrest later hrest]
          rfl

/-- Without a tree within some depth, there are more nodes than that on the way down. -/
theorem lt_length_footprint {depth : Nat}
    (hthere : ∀ m ∈ dom.footprint depth node, m < dom.cells.size)
    (hnone : dom.treeWithin? depth node = none) : depth < (dom.footprint depth node).length := by
  induction depth generalizing node with
  | zero => exact Nat.zero_lt_one
  | succ depth ih =>
      obtain ⟨cell, hcell⟩ := exists_cell? (hthere node (dom.mem_footprint_self _ node))
      have hbelow : cell.children.mapM (dom.treeWithin? depth) = none := by
        cases htrees : cell.children.mapM (dom.treeWithin? depth) with
        | none => rfl
        | some trees =>
            rw [treeWithin?_succ_eq_some.2 ⟨cell, trees, hcell, htrees, rfl⟩] at hnone
            cases hnone
      rw [footprint, childrenOf_of_cell? hcell] at hthere ⊢
      -- Some child has no tree within the depth that is left.
      obtain ⟨child, hchild, hmissing⟩ := exists_of_mapM_eq_none hbelow
      have hlonger := ih (fun m hm => hthere m
        (List.mem_cons_of_mem _ (List.mem_flatMap_of_mem hchild hm))) hmissing
      obtain ⟨before, behind, hsplit⟩ := List.append_of_mem hchild
      rw [hsplit, List.flatMap_append, List.flatMap_cons, List.length_cons, List.length_append,
        List.length_append]
      omega

/-- A node below which nothing is reached on two ways has a tree of what is there. -/
theorem exists_tree_of_distinct {depth : Nat} (hle : dom.cells.size ≤ depth)
    (h : dom.Distinct (dom.footprint depth node)) :
    ∃ tree, dom.tree? node = some tree ∧ tree.labels = dom.footprint depth node := by
  cases htree : dom.treeWithin? depth node with
  | some tree =>
      have hlabels := footprint_of_treeWithin? htree (Nat.le_refl depth)
      exact ⟨tree, tree?_of_treeWithin? htree (hlabels ▸ h.1), hlabels.symm⟩
  | none =>
      have hsubset : dom.footprint depth node ⊆ List.range dom.cells.size :=
        fun m hm => List.mem_range.2 (h.2 m hm)
      have hlength := (List.subperm_of_subset h.1 hsubset).length_le
      rw [List.length_range] at hlength
      exact absurd (lt_length_footprint h.2 htree) (Nat.not_lt_of_le (Nat.le_trans hlength hle))

end LiveTemplate.Dom
