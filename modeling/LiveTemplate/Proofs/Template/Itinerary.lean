import LiveTemplate.Proofs.Dom.Overhaul
import LiveTemplate.Proofs.Template.Walk

/-!
# The itinerary of a walk

A walk visits one node after another, up to the first visit that fails.  A visit may put other
children below its node, and the walk goes on into these.  So the nodes that are visited are the
first ones, in document order, of those that are below the root in the end.  They are all of them if
no visit fails; if one does, then nothing behind its node has been visited.
-/

namespace LiveTemplate.Compiler

open Session

variable {σ α : Type}

/-- Nodes have been visited one after another, up to the first visit that fails. -/
inductive Itinerary (visit : NodeId → Session σ CompileError (List α)) :
    List NodeId → Store σ → Except CompileError (List α) → Store σ → Prop
  | done (s : Store σ) : Itinerary visit [] s (.ok []) s
  | fails {node : NodeId} {s t : Store σ} {e : CompileError} (hthere : node < s.dom.cells.size)
      (hvisit : visit node s = some (.error e, t)) : Itinerary visit [node] s (.error e) t
  | visits {node : NodeId} {rest : List NodeId} {s t u : Store σ} {own : List α}
      {outcome : Except CompileError (List α)} (hthere : node < s.dom.cells.size)
      (hvisit : visit node s = some (.ok own, t)) (hrest : Itinerary visit rest t outcome u) :
    Itinerary visit (node :: rest) s (outcome.map (own ++ ·)) u

variable {visit : NodeId → Session σ CompileError (List α)} {nodes later : List NodeId}
  {s t u : Store σ} {found : List α} {outcome : Except CompileError (List α)}

theorem Itinerary.append (h : Itinerary visit nodes s (.ok found) t)
    (hlater : Itinerary visit later t outcome u) :
    Itinerary visit (nodes ++ later) s (outcome.map (found ++ ·)) u := by
  generalize hfirst : (.ok found : Except CompileError (List α)) = first at h
  induction h generalizing found with
  | done =>
      obtain rfl := Except.ok.inj hfirst
      cases outcome <;> exact hlater
  | fails => cases hfirst
  | @visits node rest s t v own outcome' hthere hvisit _ ih =>
      cases outcome' with
      | error e => cases hfirst
      | ok others =>
          obtain rfl := Except.ok.inj hfirst
          have hrest := Itinerary.visits hthere hvisit (ih hlater rfl)
          cases outcome with
          | error e => exact hrest
          | ok more =>
              rw [List.cons_append]
              simpa [Except.map] using hrest

/-! ## Walking over a part of a tree -/

/-- A part of a tree has been walked over: what it has become begins with the nodes visited, and
that is all of it if no visit has failed. -/
structure Walked (visit : NodeId → Session σ CompileError (List α)) (old new nodes : List NodeId)
    (s : Store σ) (outcome : Except CompileError (List α)) (t : Store σ) : Prop where
  itinerary : Itinerary visit nodes s outcome t
  overhauled : Dom.Overhauled old new s.dom t.dom
  isPrefix : nodes <+: new
  complete : ∀ found, outcome = .ok found → nodes = new

namespace Walked

variable {old new old' new' : List NodeId} {node : NodeId}

/-- What stands behind a failure is left alone. -/
theorem stop {e : CompileError} (h : Walked visit old new nodes s (.error e) t)
    {behind : List NodeId} {depth : Nat}
    (hdistinct : s.dom.Distinct (old ++ behind.flatMap (s.dom.footprint depth))) :
    Walked visit (old ++ behind.flatMap (s.dom.footprint depth))
      (new ++ behind.flatMap (t.dom.footprint depth)) nodes s (.error e) t where
  itinerary := h.itinerary
  overhauled := by
    obtain ⟨hsame, hdistinct'⟩ := h.overhauled.apart hdistinct
    rw [hsame]
    exact (h.overhauled.append (.refl hdistinct') hdistinct).2
  isPrefix := h.isPrefix.trans (List.prefix_append _ _)
  complete := nofun

theorem append (h : Walked visit old new nodes s (.ok found) t)
    (hlater : Walked visit old' new' later t outcome u) (hdistinct : s.dom.Distinct (old ++ old')) :
    Walked visit (old ++ old') (new ++ new') (nodes ++ later) s (outcome.map (found ++ ·)) u where
  itinerary := h.itinerary.append hlater.itinerary
  overhauled := (h.overhauled.append hlater.overhauled hdistinct).2
  isPrefix := by
    rw [h.complete found rfl]
    exact (List.prefix_append_right_inj new).2 hlater.isPrefix
  complete := by
    intro all hall
    cases outcome with
    | error e => cases hall
    | ok more => rw [h.complete found rfl, hlater.complete more rfl]

/-- A node that is visited before what is below it then. -/
theorem cons {own : List α} (hthere : node < s.dom.cells.size)
    (hvisit : visit node s = some (.ok own, t))
    (hoverhauled : Dom.Overhauled old (node :: old') s.dom t.dom)
    (h : Walked visit old' new' nodes t outcome u) :
    Walked visit old (node :: new') (node :: nodes) s (outcome.map (own ++ ·)) u where
  itinerary := .visits hthere hvisit h.itinerary
  overhauled := hoverhauled.trans (h.overhauled.cons hoverhauled.distinct).2
  isPrefix := List.cons_prefix_cons.2 ⟨rfl, h.isPrefix⟩
  complete := by
    intro all hall
    cases outcome with
    | error e => cases hall
    | ok more => rw [h.complete more rfl]

end Walked

/-! ## Walks -/

/-- A visit changes its own node only, and leaves what was there before in order. -/
def Orderly (visit : NodeId → Session σ CompileError (List α)) : Prop :=
  ∀ node s outcome t, node < s.dom.cells.size → visit node s = some (outcome, t) →
    s.dom.Reworked node t.dom ∧ s.dom.Ordered node t.dom

/-- Walks below a node walk over the part of the tree below it. -/
def WalksBelow (visit : NodeId → Session σ CompileError (List α)) (depth : Nat) : Prop :=
  ∀ deeper node s outcome t, depth ≤ deeper → s.dom.Distinct (s.dom.footprint deeper node) →
    walk visit depth node s = some (outcome, t) →
    ∃ old new nodes, s.dom.footprint deeper node = node :: old ∧
      t.dom.footprint deeper node = node :: new ∧ Walked visit old new nodes s outcome t

/-- The visit of a node with the walk below it. -/
theorem descend_walked (hvisit : Orderly visit) {depth deeper : Nat}
    (hwalk : WalksBelow visit depth) (hle : depth ≤ deeper) {node : NodeId}
    (hdistinct : s.dom.Distinct (s.dom.footprint deeper node))
    (hrun : descend visit depth node s = some (outcome, t)) :
    ∃ nodes, Walked visit (s.dom.footprint deeper node) (t.dom.footprint deeper node) nodes s
      outcome t := by
  have hthere := hdistinct.2 node (s.dom.mem_footprint_self deeper node)
  have hoverhauled {first : Except CompileError (List α)} {u : Store σ}
      (hfirst : visit node s = some (first, u)) := by
    obtain ⟨hreworked, hordered⟩ := hvisit node s first u hthere hfirst
    exact Dom.Overhauled.of_reworked hreworked hordered hdistinct
  rcases bind_append_eq_some.1 hrun with ⟨e, hfirst, rfl⟩ | ⟨own, u, others, hfirst, hbelow, rfl⟩
  · obtain ⟨below, hbelow⟩ := t.dom.exists_footprint_eq_cons deeper node
    refine ⟨[node], .fails hthere hfirst, hoverhauled hfirst, ?_, nofun⟩
    rw [hbelow]
    exact ⟨below, rfl⟩
  · obtain ⟨old, new, nodes, hold, hnew, hwalked⟩ :=
      hwalk deeper node u others t hle (hoverhauled hfirst).distinct hbelow
    rw [hnew]
    exact ⟨node :: nodes, .cons hthere hfirst (hold ▸ hoverhauled hfirst) hwalked⟩

/-- Induction on the nodes: what the first one has become is left alone by the walk over the
others, and they are left alone if it fails. -/
theorem forEach_walked (hvisit : Orderly visit) {depth deeper : Nat}
    (hwalk : WalksBelow visit depth) (hle : depth ≤ deeper) {children : List NodeId}
    (hdistinct : s.dom.Distinct (children.flatMap (s.dom.footprint deeper)))
    (hrun : forEach (descend visit depth) children s = some (outcome, t)) :
    ∃ nodes, Walked visit (children.flatMap (s.dom.footprint deeper))
      (children.flatMap (t.dom.footprint deeper)) nodes s outcome t := by
  induction children generalizing outcome s with
  | nil =>
      obtain ⟨rfl, rfl⟩ := Prod.mk.inj (pure_eq_some.1 hrun)
      exact ⟨[], .done s, .refl hdistinct, List.prefix_rfl, fun _ _ => rfl⟩
  | cons child rest ih =>
      rw [List.flatMap_cons] at hdistinct ⊢
      rw [List.flatMap_cons]
      have hdistinct₁ : s.dom.Distinct (s.dom.footprint deeper child) := hdistinct.of_append.1
      rcases bind_append_eq_some.1 hrun with
        ⟨e, hfirst, rfl⟩ | ⟨own, u, others, hfirst, hrest, rfl⟩
      · obtain ⟨nodes, hwalked⟩ := descend_walked hvisit hwalk hle hdistinct₁ hfirst
        exact ⟨nodes, hwalked.stop hdistinct⟩
      · obtain ⟨nodes, hwalked⟩ := descend_walked hvisit hwalk hle hdistinct₁ hfirst
        obtain ⟨hsame, hdistinct₂⟩ := hwalked.overhauled.apart hdistinct
        rw [← hsame] at hdistinct hdistinct₂ ⊢
        obtain ⟨later, hlater⟩ := ih hdistinct₂ hrest
        obtain ⟨hkept, -⟩ := hwalked.overhauled.append hlater.overhauled hdistinct
        rw [← Dom.footprint_congr hkept] at hwalked
        exact ⟨nodes ++ later, hwalked.append hlater hdistinct⟩

/-- Induction on the depth. -/
theorem walk_walked (hvisit : Orderly visit) (depth : Nat) : WalksBelow visit depth := by
  induction depth with
  | zero =>
      intro deeper node s outcome t _ _ hrun
      cases hrun
  | succ depth ih =>
      intro deeper node s outcome t hle hdistinct hrun
      obtain ⟨deeper, rfl⟩ : ∃ less, deeper = less + 1 := ⟨deeper - 1, by omega⟩
      rw [walk_succ] at hrun
      rw [Dom.footprint] at hdistinct
      have hchildren : s.dom.Distinct
          ((s.dom.childrenOf node).flatMap (s.dom.footprint deeper)) := hdistinct.of_cons.2.2
      obtain ⟨nodes, hwalked⟩ :=
        forEach_walked hvisit ih (Nat.le_of_succ_le_succ hle) hchildren hrun
      have hkept := (hwalked.overhauled.cons hdistinct).1
      refine ⟨_, _, nodes, rfl, ?_, hwalked⟩
      rw [Dom.footprint, Dom.childrenOf, Dom.childrenOf, hkept]

/-- The nodes that a walk visits are the first ones below the root in the tree that stands there in
the end, all of them if it succeeds.  The nodes of that tree that were there before are still in
the order of the tree before. -/
theorem walk_itinerary (hvisit : Orderly visit) {depth : Nat} {root : NodeId}
    {before : Tree NodeId} (htree : s.dom.tree? root = some before) (hlabels : before.labels.Nodup)
    (hrun : walk visit depth root s = some (outcome, t)) :
    ∃ tree nodes later, t.dom.tree? root = some tree ∧ tree.labels.Nodup ∧
      Tree.labels.labelsOf tree.children = nodes ++ later ∧
      ((Tree.labels.labelsOf tree.children).filter (· < s.dom.cells.size)).Sublist
        (Tree.labels.labelsOf before.children) ∧
      (∀ found, outcome = .ok found → later = []) ∧ Itinerary visit nodes s outcome t := by
  -- Footprints that are deep enough list the whole trees.
  let deeper := depth + s.dom.cells.size + t.dom.cells.size
  have hdistinct : s.dom.Distinct (s.dom.footprint deeper root) :=
    Dom.distinct_of_treeWithin? htree hlabels deeper
  obtain ⟨old, new, nodes, hold, hnew, hwalked⟩ :=
    walk_walked hvisit depth deeper root s outcome t (by omega) hdistinct hrun
  have hoverhauled := (hwalked.overhauled.cons (hold ▸ hdistinct)).2
  rw [← hnew] at hoverhauled
  obtain ⟨tree, htree', hlabels'⟩ :=
    Dom.exists_tree_of_distinct (show t.dom.cells.size ≤ deeper by omega) hoverhauled.distinct
  have hbelow : Tree.labels.labelsOf tree.children = new := by
    rw [hnew, Tree.labels_eq_cons] at hlabels'
    exact (List.cons.inj hlabels').2
  have hbefore : Tree.labels.labelsOf before.children = old := by
    have hfootprint := Dom.footprint_of_treeWithin? htree (show s.dom.cells.size ≤ deeper by omega)
    rw [hold, Tree.labels_eq_cons] at hfootprint
    exact (List.cons.inj hfootprint).2.symm
  obtain ⟨later, hlater⟩ := hwalked.isPrefix
  refine ⟨tree, nodes, later, htree', hlabels' ▸ hoverhauled.distinct.1, hbelow.trans hlater.symm,
    ?_, fun found hfound => ?_, hwalked.itinerary⟩
  · rw [hbelow, hbefore]
    exact hwalked.overhauled.sublist
  · rw [← hwalked.complete found hfound] at hlater
    exact List.append_right_eq_self.1 hlater

end LiveTemplate.Compiler
