import LiveTemplate.Proofs.Dom.Footprint

/-!
# Labels and footprints

The tree of a node lists every node of every footprint in it.  If no label occurs twice in the
tree, then nothing in it is reached on two ways.
-/

namespace LiveTemplate

/-- The labels of a tree, in document order. -/
def Tree.labels {ι : Type} : Tree ι → List ι
  | .element label _ _ children => label :: labelsOf children
  | .text label _ => [label]
  | .comment label _ => [label]
  | .document label children => label :: labelsOf children
where
  /-- The labels of several trees. -/
  labelsOf : List (Tree ι) → List ι
    | [] => []
    | tree :: rest => labels tree ++ labelsOf rest

namespace Dom

variable {dom : Dom}

/-- What the tree of a node says about the footprints of its nodes. -/
structure Listed (dom : Dom) (labels : List NodeId) : Prop where
  there : ∀ m ∈ labels, m < dom.cells.size
  sublist : ∀ m ∈ labels, ∀ depth, (dom.footprint depth m).Sublist labels

theorem Listed.append {labels labels' : List NodeId} (h : dom.Listed labels)
    (h' : dom.Listed labels') : dom.Listed (labels ++ labels') where
  there m hm := by
    rcases List.mem_append.1 hm with hm | hm
    · exact h.there m hm
    · exact h'.there m hm
  sublist m hm depth := by
    rcases List.mem_append.1 hm with hm | hm
    · exact (h.sublist m hm depth).trans (List.sublist_append_left labels labels')
    · exact (h'.sublist m hm depth).trans (List.sublist_append_right labels labels')

/-- A node over listed children. -/
theorem Listed.cons {node : NodeId} {cell : NodeCell} {labels : List NodeId}
    (hcell : dom.cell? node = some cell) (h : dom.Listed labels)
    (hchildren : ∀ depth, (cell.children.flatMap (dom.footprint depth)).Sublist labels) :
    dom.Listed (node :: labels) ∧ ∀ depth, (dom.footprint depth node).Sublist (node :: labels) := by
  -- A footprint that is cut off at the node lists the node alone.
  have hnode (depth : Nat) : (dom.footprint depth node).Sublist (node :: labels) := by
    cases depth with
    | zero => exact (List.nil_sublist labels).cons_cons node
    | succ depth =>
        rw [footprint, childrenOf_of_cell? hcell]
        exact (hchildren depth).cons_cons node
  refine ⟨⟨?_, ?_⟩, hnode⟩
  · intro m hm
    rcases List.mem_cons.1 hm with rfl | hm
    · exact lt_size_of_cell? hcell
    · exact h.there m hm
  · intro m hm depth
    rcases List.mem_cons.1 hm with rfl | hm
    · exact hnode depth
    · exact (h.sublist m hm depth).cons node

theorem mapM_cons_eq_some {α β : Type} {f : α → Option β} {a : α} {rest : List α} {bs : List β} :
    (a :: rest).mapM f = some bs ↔ ∃ b later, f a = some b ∧ rest.mapM f = some later ∧
      bs = b :: later := by
  rw [List.mapM_cons]
  cases hfirst : f a with
  | none => simp
  | some b =>
      cases hrest : rest.mapM f with
      | none => simp
      | some later => simp [eq_comm]

/-- The children of a node are listed if each tree lists its node. -/
theorem listed_forest {limit : Nat} {children : List NodeId} {trees : List (Tree NodeId)}
    (htree : ∀ node tree, dom.treeWithin? limit node = some tree →
      dom.Listed tree.labels ∧ ∀ depth, (dom.footprint depth node).Sublist tree.labels)
    (h : children.mapM (dom.treeWithin? limit) = some trees) :
    dom.Listed (Tree.labels.labelsOf trees) ∧
      ∀ depth, (children.flatMap (dom.footprint depth)).Sublist (Tree.labels.labelsOf trees) := by
  induction children generalizing trees with
  | nil =>
      obtain rfl := Option.some.inj h
      exact ⟨⟨fun _ hm => absurd hm List.not_mem_nil, fun _ hm => absurd hm List.not_mem_nil⟩,
        fun _ => List.Sublist.refl _⟩
  | cons child rest ih =>
      obtain ⟨tree, later, hfirst, hrest, rfl⟩ := mapM_cons_eq_some.1 h
      obtain ⟨hlisted, hsublist⟩ := htree child tree hfirst
      obtain ⟨hlisted', hsublist'⟩ := ih hrest
      refine ⟨hlisted.append hlisted', fun depth => ?_⟩
      rw [List.flatMap_cons]
      exact (hsublist depth).append (hsublist' depth)

theorem listed_tree {limit : Nat} {node : NodeId} {tree : Tree NodeId}
    (h : dom.treeWithin? limit node = some tree) :
    dom.Listed tree.labels ∧ ∀ depth, (dom.footprint depth node).Sublist tree.labels := by
  have hnone : dom.Listed [] :=
    ⟨fun _ hm => absurd hm List.not_mem_nil, fun _ hm => absurd hm List.not_mem_nil⟩
  induction limit generalizing node tree with
  | zero => cases h
  | succ limit ih =>
      rw [treeWithin?] at h
      cases hcell : dom.cell? node with
      | none => simp [hcell] at h
      | some cell =>
          cases cell with
          | element tag attributes children =>
              simp only [hcell, Option.map_eq_some_iff] at h
              obtain ⟨trees, htrees, rfl⟩ := h
              obtain ⟨hlisted, hsublist⟩ := listed_forest (fun _ _ => ih) htrees
              exact hlisted.cons hcell hsublist
          | text data =>
              simp only [hcell, Option.some.injEq] at h
              subst h
              exact hnone.cons hcell fun _ => List.Sublist.refl _
          | comment data =>
              simp only [hcell, Option.some.injEq] at h
              subst h
              exact hnone.cons hcell fun _ => List.Sublist.refl _
          | document children =>
              simp only [hcell, Option.map_eq_some_iff] at h
              obtain ⟨trees, htrees, rfl⟩ := h
              obtain ⟨hlisted, hsublist⟩ := listed_forest (fun _ _ => ih) htrees
              exact hlisted.cons hcell hsublist

/-- Below the root of a tree without repeated labels, nothing is reached on two ways. -/
theorem distinct_of_treeWithin? {limit : Nat} {node : NodeId} {tree : Tree NodeId}
    (htree : dom.treeWithin? limit node = some tree) (hlabels : tree.labels.Nodup) (depth : Nat) :
    dom.Distinct (dom.footprint depth node) := by
  obtain ⟨hlisted, hsublist⟩ := listed_tree htree
  exact ⟨hlabels.sublist (hsublist depth), fun m hm => hlisted.there m ((hsublist depth).mem hm)⟩

end Dom

theorem Tree.label_mem_labels {ι : Type} (tree : Tree ι) : tree.label ∈ tree.labels := by
  cases tree with
  | element label tag attributes children => exact List.mem_cons_self
  | text label data => exact List.mem_singleton.2 rfl
  | comment label data => exact List.mem_singleton.2 rfl
  | document label children => exact List.mem_cons_self

end LiveTemplate
