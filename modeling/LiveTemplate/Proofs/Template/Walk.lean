import LiveTemplate.Proofs.Dom.Footprint
import LiveTemplate.Proofs.Session
import LiveTemplate.Template.Compiler

/-!
# Walking over a tree

A walk reads the children of a node after it has visited the node, and a visit may have replaced
them.  If a visit changes its own node only and hangs only new nodes below it, and if below the
root nothing is reached on two ways, then no node is visited twice.  So a property that a visit of
an unvisited node keeps is kept by the whole walk.
-/

namespace LiveTemplate.Compiler

variable {σ α : Type}

open Session

/-- The visit of a node with the walk below it. -/
def descend (visit : NodeId → Session σ CompileError (List α)) (levels : Nat) (node : NodeId) :
    Session σ CompileError (List α) := do
  let own ← visit node
  let below ← walk visit levels node
  pure (own ++ below)

/-- The children that a walk goes to are those that the node has when the walk starts. -/
theorem walk_succ (visit : NodeId → Session σ CompileError (List α)) (levels : Nat) (node : NodeId)
    (s : Store σ) :
    walk visit (levels + 1) node s = forEach (descend visit levels) (s.dom.childrenOf node) s := by
  rw [walk, inspect_bind]
  rfl

/-- Walking over several nodes without an error is to visit the first one, to walk below it, and to
walk over the others. -/
theorem forEach_descend_cons_ok {visit : NodeId → Session σ CompileError (List α)} {levels : Nat}
    {node : NodeId} {rest : List NodeId} {found : List α} {s t : Store σ} :
    forEach (descend visit levels) (node :: rest) s = some (.ok found, t) ↔
      ∃ own below others u v, visit node s = some (.ok own, u) ∧
        walk visit levels node u = some (.ok below, v) ∧
        forEach (descend visit levels) rest v = some (.ok others, t) ∧
        found = own ++ below ++ others := by
  rw [forEach, bind_append_ok]
  constructor
  · rintro ⟨first, v, others, hfirst, hrest, rfl⟩
    obtain ⟨own, u, below, hown, hbelow, rfl⟩ := bind_append_ok.1 hfirst
    exact ⟨own, below, others, u, v, hown, hbelow, hrest, rfl⟩
  · rintro ⟨own, below, others, u, v, hown, hbelow, hrest, rfl⟩
    exact ⟨_, v, others, bind_append_ok.2 ⟨own, u, below, hown, hbelow, rfl⟩, hrest, rfl⟩

/-- What a part of a walk has done: cells that are not listed are as they were, and the nodes
visited meanwhile are listed ones or new. -/
structure Toured (nodes visited visited' : List NodeId) (dom dom' : Dom) : Prop where
  size_le : dom.cells.size ≤ dom'.cells.size
  others : ∀ m < dom.cells.size, m ∉ nodes → dom'.cell? m = dom.cell? m
  visits : ∀ m ∈ visited', m ∈ visited ∨ m ∈ nodes ∨ dom.cells.size ≤ m
  there : ∀ m ∈ visited', m < dom'.cells.size

theorem Toured.append {nodes nodes' visited visited' visited'' : List NodeId}
    {dom dom' dom'' : Dom} (hfirst : Toured nodes visited visited' dom dom')
    (hlast : Toured nodes' visited' visited'' dom' dom'') :
    Toured (nodes ++ nodes') visited visited'' dom dom'' where
  size_le := Nat.le_trans hfirst.size_le hlast.size_le
  others m hlt hm := by
    have hlt' := Nat.lt_of_lt_of_le hlt hfirst.size_le
    rw [hlast.others m hlt' fun h => hm (List.mem_append_right _ h)]
    exact hfirst.others m hlt fun h => hm (List.mem_append_left _ h)
  visits m hm := by
    rcases hlast.visits m hm with hmid | hlisted | hnew
    · rcases hfirst.visits m hmid with hold | hlisted | hnew
      · exact .inl hold
      · exact .inr (.inl (List.mem_append_left _ hlisted))
      · exact .inr (.inr hnew)
    · exact .inr (.inl (List.mem_append_right _ hlisted))
    · exact .inr (.inr (Nat.le_trans hfirst.size_le hnew))
  there := hlast.there

/-- Footprints apart from the listed nodes are as they were, and none of their nodes has been
visited meanwhile. -/
theorem Toured.apart {nodes visited visited' later : List NodeId} {dom dom' : Dom} {depth : Nat}
    (h : Toured nodes visited visited' dom dom')
    (hdistinct : dom.Distinct (later.flatMap (dom.footprint depth)))
    (hapart : ∀ m ∈ later.flatMap (dom.footprint depth), m ∉ nodes ∧ m ∉ visited) :
    later.flatMap (dom'.footprint depth) = later.flatMap (dom.footprint depth) ∧
      dom'.Distinct (later.flatMap (dom.footprint depth)) ∧
      ∀ m ∈ later.flatMap (dom.footprint depth), m ∉ visited' := by
  obtain ⟨hnodup, hlt⟩ := hdistinct
  refine ⟨Dom.footprints_congr fun m hm => h.others m (hlt m hm) (hapart m hm).1,
    ⟨hnodup, fun m hm => Nat.lt_of_lt_of_le (hlt m hm) h.size_le⟩, fun m hm hvisited => ?_⟩
  rcases h.visits m hvisited with hold | hlisted | hnew
  · exact (hapart m hm).2 hold
  · exact (hapart m hm).1 hlisted
  · exact Nat.lt_irrefl m (Nat.lt_of_lt_of_le (hlt m hm) hnew)

/-- A property of the store, with the nodes visited and what was found so far, that the visit of an
unvisited node keeps; the visit changes its own node only. -/
def KeptByVisits (visit : NodeId → Session σ CompileError (List α))
    (I : List NodeId → List α → Store σ → Prop) : Prop :=
  ∀ node visited done s out t, node ∉ visited → node < s.dom.cells.size → I visited done s →
    visit node s = some (.ok out, t) →
    I (node :: visited) (done ++ out) t ∧ s.dom.Reworked node t.dom

/-- The property is kept by walks below a visited node. -/
def KeptBelow (visit : NodeId → Session σ CompileError (List α))
    (I : List NodeId → List α → Store σ → Prop) (depth : Nat) : Prop :=
  ∀ node visited done s out t, s.dom.Distinct (s.dom.footprint depth node) →
    (∀ m ∈ s.dom.footprint depth node, m ≠ node → m ∉ visited) →
    (∀ m ∈ visited, m < s.dom.cells.size) → I visited done s →
    walk visit depth node s = some (.ok out, t) →
    ∃ visited', I visited' (done ++ out) t ∧
      Toured (s.dom.footprint depth node) visited visited' s.dom t.dom

variable {visit : NodeId → Session σ CompileError (List α)}
  {I : List NodeId → List α → Store σ → Prop}

/-- The visit of a node with the walk below it. -/
theorem descend_keeps (hvisit : KeptByVisits visit I) {depth : Nat}
    (hwalk : KeptBelow visit I depth) {node : NodeId} {visited : List NodeId}
    {done own below : List α} {s t u : Store σ}
    (hdistinct : s.dom.Distinct (s.dom.footprint depth node))
    (hunvisited : ∀ m ∈ s.dom.footprint depth node, m ∉ visited)
    (hthere : ∀ m ∈ visited, m < s.dom.cells.size) (hI : I visited done s)
    (hown : visit node s = some (.ok own, t))
    (hbelow : walk visit depth node t = some (.ok below, u)) :
    ∃ visited', I visited' (done ++ (own ++ below)) u ∧
      Toured (s.dom.footprint depth node) visited visited' s.dom u.dom := by
  have hself := Dom.mem_footprint_self s.dom depth node
  obtain ⟨hI₁, hreworked⟩ := hvisit node visited done s own t (hunvisited node hself)
    (hdistinct.2 node hself) hI hown
  have hthere₁ : ∀ m ∈ node :: visited, m < t.dom.cells.size := by
    intro m hm
    rcases List.mem_cons.1 hm with rfl | hm
    · exact Nat.lt_of_lt_of_le (hdistinct.2 m hself) hreworked.size_le
    · exact Nat.lt_of_lt_of_le (hthere m hm) hreworked.size_le
  -- What is below the node after the visit was there before, unvisited, or is new.
  have hunvisited₁ : ∀ m ∈ t.dom.footprint depth node, m ≠ node → m ∉ node :: visited := by
    intro m hm hne hmem
    have hold := (List.mem_cons.1 hmem).resolve_left hne
    rcases hreworked.within depth hdistinct m hm with hin | hnew
    · exact hunvisited m hin hold
    · exact Nat.lt_irrefl m (Nat.lt_of_lt_of_le (hthere m hold) hnew)
  obtain ⟨visited', hI₂, htoured⟩ := hwalk node (node :: visited) (done ++ own) t below u
    (hreworked.distinct depth hdistinct) hunvisited₁ hthere₁ hI₁ hbelow
  refine ⟨visited', by rwa [← List.append_assoc],
    ⟨Nat.le_trans hreworked.size_le htoured.size_le, ?_, ?_, htoured.there⟩⟩
  · intro m hlt hm
    have hne : m ≠ node := fun h => hm (h ▸ hself)
    have hout : m ∉ t.dom.footprint depth node := by
      intro hin
      rcases hreworked.within depth hdistinct m hin with hin | hnew
      · exact hm hin
      · exact Nat.lt_irrefl m (Nat.lt_of_lt_of_le hlt hnew)
    rw [htoured.others m (Nat.lt_of_lt_of_le hlt hreworked.size_le) hout]
    exact hreworked.others m hne hlt
  · intro m hm
    rcases htoured.visits m hm with hmid | hin | hnew
    · rcases List.mem_cons.1 hmid with rfl | hold
      · exact .inr (.inl hself)
      · exact .inl hold
    · exact .inr (hreworked.within depth hdistinct m hin)
    · exact .inr (.inr (Nat.le_trans hreworked.size_le hnew))

/-- Induction on the nodes: what is below the first one stays apart from the others. -/
theorem forEach_keeps (hvisit : KeptByVisits visit I) {depth : Nat}
    (hwalk : KeptBelow visit I depth) {nodes visited : List NodeId} {done out : List α}
    {s t : Store σ} (hdistinct : s.dom.Distinct (nodes.flatMap (s.dom.footprint depth)))
    (hunvisited : ∀ m ∈ nodes.flatMap (s.dom.footprint depth), m ∉ visited)
    (hthere : ∀ m ∈ visited, m < s.dom.cells.size) (hI : I visited done s)
    (hrun : forEach (descend visit depth) nodes s = some (.ok out, t)) :
    ∃ visited', I visited' (done ++ out) t ∧
      Toured (nodes.flatMap (s.dom.footprint depth)) visited visited' s.dom t.dom := by
  induction nodes generalizing visited done out s with
  | nil =>
      obtain ⟨rfl, rfl⟩ := pure_ok.1 hrun
      refine ⟨visited, by rwa [List.append_nil], ⟨Nat.le_refl _, fun _ _ _ => rfl, ?_, hthere⟩⟩
      exact fun m hm => .inl hm
  | cons node rest ih =>
      obtain ⟨own, below, others, u, v, hown, hbelow, hrest, rfl⟩ := forEach_descend_cons_ok.1 hrun
      rw [List.flatMap_cons] at hdistinct hunvisited ⊢
      obtain ⟨hfirst, hothers, hapart⟩ := hdistinct.of_append
      obtain ⟨visited₁, hI₁, htoured⟩ := descend_keeps hvisit hwalk hfirst
        (fun m hm => hunvisited m (List.mem_append_left _ hm)) hthere hI hown hbelow
      -- The walk below the first node has left the footprints of the others as they were.
      obtain ⟨hsame, hdistinct₁, hunvisited₁⟩ := htoured.apart hothers fun m hm =>
        ⟨hapart m hm, hunvisited m (List.mem_append_right _ hm)⟩
      rw [← hsame] at hdistinct₁ hunvisited₁
      obtain ⟨visited₂, hI₂, htoured'⟩ :=
        ih hdistinct₁ hunvisited₁ htoured.there hI₁ hrest
      rw [hsame] at htoured'
      exact ⟨visited₂, by rwa [← List.append_assoc], htoured.append htoured'⟩

/-- Induction on the depth. -/
theorem walk_keeps (hvisit : KeptByVisits visit I) (depth : Nat) : KeptBelow visit I depth := by
  induction depth with
  | zero =>
      intro node visited done s out t _ _ _ _ hrun
      cases hrun
  | succ depth ih =>
      intro node visited done s out t hdistinct hunvisited hthere hI hrun
      rw [walk_succ] at hrun
      rw [Dom.footprint] at hdistinct hunvisited ⊢
      -- The node itself is visited already, so only its children's footprints matter.
      obtain ⟨-, hnode, hbelow⟩ := hdistinct.of_cons
      obtain ⟨visited', hI', htoured⟩ := forEach_keeps hvisit ih hbelow
        (fun m hm => hunvisited m (List.mem_cons_of_mem _ hm) fun h => hnode (h ▸ hm)) hthere hI
        hrun
      refine ⟨visited', hI', ⟨htoured.size_le, ?_, ?_, htoured.there⟩⟩
      · exact fun m hlt hm => htoured.others m hlt fun h => hm (List.mem_cons_of_mem _ h)
      · intro m hm
        rcases htoured.visits m hm with hold | hin | hnew
        · exact .inl hold
        · exact .inr (.inl (List.mem_cons_of_mem _ hin))
        · exact .inr (.inr hnew)

end LiveTemplate.Compiler
