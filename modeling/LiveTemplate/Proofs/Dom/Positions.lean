import LiveTemplate.Proofs.Dom.Labels

/-!
# Positions in a tree

A descendant stands where child positions lead to, one for each level.  Document order is the order
of these positions as words.  A node that is shared stands at several positions, and is a descendant
once for each of them.
-/

namespace LiveTemplate

variable {ι : Type}

namespace Tree

/-- The node that child positions lead to. -/
def nodeAt? : Tree ι → List Nat → Option (Tree ι)
  | tree, [] => some tree
  | tree, i :: rest => tree.children[i]?.bind fun child => child.nodeAt? rest

/-- The nodes that child positions lead through, outermost first. -/
def ancestorsAt : Tree ι → List Nat → List (Tree ι)
  | _, [] => []
  | tree, i :: rest => tree :: (tree.children[i]?.map fun child => child.ancestorsAt rest).getD []

/-- The positions of the proper descendants, in document order. -/
def positions : Tree ι → List (List Nat)
  | .element _ _ _ children => positionsFrom 0 children
  | .document _ children => positionsFrom 0 children
  | _ => []
where
  /-- The positions of nodes that stand side by side, and of what is below them. -/
  positionsFrom (i : Nat) : List (Tree ι) → List (List Nat)
    | [] => []
    | tree :: rest => ([i] :: tree.positions.map (i :: ·)) ++ positionsFrom (i + 1) rest

theorem positions_eq (tree : Tree ι) :
    tree.positions = positions.positionsFrom 0 tree.children := by
  cases tree <;> rfl

theorem mem_positionsFrom {i : Nat} {trees : List (Tree ι)} {position : List Nat} :
    position ∈ positions.positionsFrom i trees ↔ ∃ j rest tree, position = (i + j) :: rest ∧
      trees[j]? = some tree ∧ (rest = [] ∨ rest ∈ tree.positions) := by
  induction trees generalizing i with
  | nil => simp [positions.positionsFrom]
  | cons first others ih =>
      rw [positions.positionsFrom, List.mem_append, ih]
      constructor
      · rintro (hfirst | ⟨j, rest, tree, rfl, htree, hrest⟩)
        · rcases List.mem_cons.1 hfirst with rfl | hbelow
          · exact ⟨0, [], first, rfl, rfl, .inl rfl⟩
          · obtain ⟨rest, hrest, rfl⟩ := List.mem_map.1 hbelow
            exact ⟨0, rest, first, rfl, rfl, .inr hrest⟩
        · exact ⟨j + 1, rest, tree, by rw [Nat.add_right_comm, Nat.add_assoc], htree, hrest⟩
      · rintro ⟨j, rest, tree, rfl, htree, hrest⟩
        cases j with
        | zero =>
            obtain rfl := Option.some.inj htree
            refine .inl ?_
            rcases hrest with rfl | hrest
            · exact List.mem_cons_self
            · exact List.mem_cons_of_mem _ (List.mem_map_of_mem hrest)
        | succ j =>
            exact .inr ⟨j, rest, tree, by rw [Nat.add_right_comm, Nat.add_assoc], htree, hrest⟩

/-- There is a position for each proper descendant, and for nothing else. -/
theorem mem_positions {tree : Tree ι} {position : List Nat} :
    position ∈ tree.positions ↔ position ≠ [] ∧ ∃ node, tree.nodeAt? position = some node := by
  induction position generalizing tree with
  | nil =>
      rw [positions_eq, mem_positionsFrom]
      simp
  | cons i rest ih =>
      rw [positions_eq, mem_positionsFrom]
      simp only [Nat.zero_add, List.cons.injEq, nodeAt?, Option.bind_eq_some_iff]
      constructor
      · rintro ⟨_, _, child, ⟨rfl, rfl⟩, hchild, rfl | hrest⟩
        · exact ⟨by simp, child, child, hchild, rfl⟩
        · obtain ⟨-, node, hnode⟩ := ih.1 hrest
          exact ⟨by simp, node, child, hchild, hnode⟩
      · rintro ⟨-, node, child, hchild, hnode⟩
        refine ⟨i, rest, child, ⟨rfl, rfl⟩, hchild, ?_⟩
        cases rest with
        | nil => exact .inl rfl
        | cons j later => exact .inr (ih.2 ⟨by simp, node, hnode⟩)

/-- The positions stand in document order.  Induction on the tree: what is below a node comes behind
it and before the nodes behind it. -/
theorem pairwise_positions (tree : Tree ι) : tree.positions.Pairwise (· < ·) := by
  refine positions.induct
    (fun i trees => (positions.positionsFrom i trees).Pairwise (· < ·))
    (fun tree : Tree ι => tree.positions.Pairwise (· < ·)) ?element ?document ?leaf ?nil ?cons tree
  case element => exact fun label tag attributes children ih => ih
  case document => exact fun label children ih => ih
  case leaf =>
    intro tree helement hdocument
    cases tree with
    | element label tag attributes children => exact absurd rfl (helement _ _ _ _)
    | document label children => exact absurd rfl (hdocument _ _)
    | text label data => exact .nil
    | comment label data => exact .nil
  case nil => exact fun i => .nil
  case cons =>
    intro i tree rest ihtree ihrest
    rw [positions.positionsFrom, List.pairwise_append, List.pairwise_cons, List.pairwise_map]
    refine ⟨⟨?_, ihtree.imp List.cons_lt_cons_self.2⟩, ihrest, ?_⟩
    · -- The first node stands before what is below it.
      intro position hposition
      obtain ⟨below, hbelow, rfl⟩ := List.mem_map.1 hposition
      obtain ⟨j, others, rfl⟩ := List.exists_cons_of_ne_nil (mem_positions.1 hbelow).1
      exact List.cons_lt_cons_self.2 (List.nil_lt_cons j others)
    · -- Both stand before what has a later index.
      intro position hposition later hlater
      obtain ⟨j, others, _, rfl, -, -⟩ := mem_positionsFrom.1 hlater
      have hfront : ∃ front, position = i :: front := by
        rcases List.mem_cons.1 hposition with rfl | hposition
        · exact ⟨[], rfl⟩
        · obtain ⟨front, -, rfl⟩ := List.mem_map.1 hposition
          exact ⟨front, rfl⟩
      obtain ⟨front, rfl⟩ := hfront
      exact List.Lex.rel (by omega)

/-! ## Descendants with their ancestors -/

/-- The proper descendants in document order, each with its ancestors, outermost first, if the node
itself has the given ones. -/
def descendants (ancestors : List (Tree ι)) : Tree ι → List (List (Tree ι) × Tree ι)
  | .element label tag attributes children =>
    among (ancestors ++ [.element label tag attributes children]) children
  | .document label children => among (ancestors ++ [.document label children]) children
  | _ => []
where
  /-- Nodes that stand side by side, and what is below them. -/
  among (ancestors : List (Tree ι)) : List (Tree ι) → List (List (Tree ι) × Tree ι)
    | [] => []
    | tree :: rest => ((ancestors, tree) :: tree.descendants ancestors) ++ among ancestors rest

theorem descendants_eq (ancestors : List (Tree ι)) (tree : Tree ι) :
    tree.descendants ancestors = descendants.among (ancestors ++ [tree]) tree.children := by
  cases tree <;> rfl

/-- The descendant at a position, with its ancestors. -/
def descendantAt? (ancestors : List (Tree ι)) (tree : Tree ι) (position : List Nat) :
    Option (List (Tree ι) × Tree ι) :=
  (tree.nodeAt? position).map fun node => (ancestors ++ tree.ancestorsAt position, node)

theorem descendantAt?_cons (ancestors : List (Tree ι)) (tree : Tree ι) (i : Nat)
    (rest : List Nat) :
    tree.descendantAt? ancestors (i :: rest) = tree.children[i]?.bind fun child =>
      child.descendantAt? (ancestors ++ [tree]) rest := by
  rw [descendantAt?, nodeAt?, ancestorsAt]
  cases tree.children[i]? with
  | none => rfl
  | some child => simp [descendantAt?]

/-- The descendants are those at the positions.  Induction on the tree; for children, those before
them have been passed. -/
theorem map_some_descendants (ancestors : List (Tree ι)) (tree : Tree ι) :
    (tree.descendants ancestors).map some =
      tree.positions.map (tree.descendantAt? ancestors) := by
  refine descendants.induct
    (fun below trees => ∀ (parent : Tree ι) (ancestors : List (Tree ι)) (i : Nat),
      below = ancestors ++ [parent] → parent.children.drop i = trees →
      (descendants.among below trees).map some =
        (positions.positionsFrom i trees).map (parent.descendantAt? ancestors))
    (fun ancestors tree => (tree.descendants ancestors).map some =
      tree.positions.map (tree.descendantAt? ancestors))
    ?element ?document ?leaf ?nil ?cons ancestors tree
  case element => exact fun ancestors label tag attributes children ih => ih _ ancestors 0 rfl rfl
  case document => exact fun ancestors label children ih => ih _ ancestors 0 rfl rfl
  case leaf =>
    intro tree ancestors helement hdocument
    cases tree with
    | element label tag attributes children => exact absurd rfl (helement _ _ _ _)
    | document label children => exact absurd rfl (hdocument _ _)
    | text label data => rfl
    | comment label data => rfl
  case nil => exact fun below parent ancestors i _ _ => rfl
  case cons =>
    intro below tree rest ihtree ihrest parent ancestors i hbelow hdrop
    -- The first of the children that are left has the index that they are counted from.
    have hchild : parent.children[i]? = some tree := by
      rw [← List.head?_drop, hdrop, List.head?_cons]
    have hothers : parent.children.drop (i + 1) = rest := by
      rw [← List.tail_drop, hdrop, List.tail_cons]
    have hself : parent.descendantAt? ancestors [i] = some (below, tree) := by
      rw [descendantAt?_cons, hchild, Option.bind_some, hbelow, descendantAt?, nodeAt?, ancestorsAt,
        Option.map_some, List.append_nil]
    have hinside (position : List Nat) :
        parent.descendantAt? ancestors (i :: position) = tree.descendantAt? below position := by
      rw [descendantAt?_cons, hchild, Option.bind_some, hbelow]
    rw [descendants.among, positions.positionsFrom, List.map_append, List.map_append,
      ihrest parent ancestors (i + 1) hbelow hothers, List.map_cons, List.map_cons, hself, ihtree,
      List.map_map]
    congr 2
    exact List.map_congr_left fun position _ => (hinside position).symm

/-- A descendant has its label in the tree. -/
theorem label_mem_of_descendants {ancestors : List (Tree ι)} {tree : Tree ι}
    {descendant : List (Tree ι) × Tree ι} (h : descendant ∈ tree.descendants ancestors) :
    descendant.2.label ∈ tree.labels := by
  revert h
  refine descendants.induct
    (fun ancestors trees => descendant ∈ descendants.among ancestors trees →
      descendant.2.label ∈ labels.labelsOf trees)
    (fun ancestors tree => descendant ∈ tree.descendants ancestors →
      descendant.2.label ∈ tree.labels) ?element ?document ?leaf ?nil ?cons ancestors tree
  case element =>
    exact fun ancestors label tag attributes children ih h => List.mem_cons_of_mem _ (ih h)
  case document => exact fun ancestors label children ih h => List.mem_cons_of_mem _ (ih h)
  case leaf =>
    intro tree ancestors helement hdocument h
    cases tree with
    | element label tag attributes children => exact absurd rfl (helement _ _ _ _)
    | document label children => exact absurd rfl (hdocument _ _)
    | text label data => exact absurd h List.not_mem_nil
    | comment label data => exact absurd h List.not_mem_nil
  case nil => exact fun ancestors h => absurd h List.not_mem_nil
  case cons =>
    intro ancestors tree rest ihtree ihrest h
    rw [descendants.among, List.mem_append, List.mem_cons] at h
    rw [labels.labelsOf, List.mem_append]
    rcases h with (rfl | hbelow) | hlater
    · exact .inl tree.label_mem_labels
    · exact .inl (ihtree hbelow)
    · exact .inr (ihrest hlater)

end Tree

end LiveTemplate
