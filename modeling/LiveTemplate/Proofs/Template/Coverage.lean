import LiveTemplate.Proofs.Dom.Trees
import LiveTemplate.Proofs.Template.Places
import LiveTemplate.Proofs.Template.Walk

/-!
# What a walk covers

The walk reads the children of a node after it has visited the node, and no later visit changes
them.  So the nodes that are visited below a root are those of the tree that stands there in the
end, in document order, and what the walk finds is what the visits found in that order.  A visit of
a node binds each of its places once, and leaves the attributes from which the places of an element
are read.  Together: every directive and every interpolation of the final tree is bound, and
nothing is bound twice.
-/

namespace LiveTemplate

/-! ## Heads of nodes -/

namespace Dom

/-- Every node is still there, of the same kind and with the same attributes. -/
def SameHeads (dom dom' : Dom) : Prop :=
  ∀ (m : NodeId) (cell : NodeCell), dom.cell? m = some cell →
    ∃ cell', dom'.cell? m = some cell' ∧ cell'.kind = cell.kind ∧
      cell'.attributes = cell.attributes

namespace SameHeads

variable {dom dom' dom'' : Dom}

theorem refl (dom : Dom) : dom.SameHeads dom := fun _ cell hcell => ⟨cell, hcell, rfl, rfl⟩

theorem trans (h : dom.SameHeads dom') (h' : dom'.SameHeads dom'') : dom.SameHeads dom'' := by
  intro m cell hcell
  obtain ⟨mid, hmid, hkind, hattributes⟩ := h m cell hcell
  obtain ⟨last, hlast, hkind', hattributes'⟩ := h' m mid hmid
  exact ⟨last, hlast, hkind'.trans hkind, hattributes'.trans hattributes⟩

theorem of_added {nodes : List NodeId} (h : Added dom dom' nodes) : dom.SameHeads dom' :=
  fun m cell hcell => ⟨cell, (h.others m (lt_size_of_cell? hcell)).trans hcell, rfl, rfl⟩

theorem modify {node : NodeId} {f : NodeCell → NodeCell}
    (hf : ∀ cell, dom.cell? node = some cell →
      (f cell).kind = cell.kind ∧ (f cell).attributes = cell.attributes) :
    dom.SameHeads (dom.modify node f) := by
  intro m cell hcell
  by_cases hm : node = m
  · subst hm
    obtain ⟨hkind, hattributes⟩ := hf cell hcell
    refine ⟨f cell, ?_, hkind, hattributes⟩
    unfold cell? at hcell
    simp [Dom.modify, cell?, Array.getElem?_modify, hcell]
  · refine ⟨cell, ?_, rfl, rfl⟩
    simpa [Dom.modify, cell?, Array.getElem?_modify, hm] using hcell

theorem withChildren (node : NodeId) (children : List NodeId) :
    dom.SameHeads (dom.modify node fun cell => cell.withChildren children) := by
  refine modify fun cell _ => ?_
  cases cell <;> exact ⟨rfl, rfl⟩

theorem setText (dom : Dom) (node : NodeId) (text : String) :
    dom.SameHeads (dom.setText node text) := by
  unfold Dom.setText
  split
  · next hcell =>
      refine modify fun cell h => ?_
      obtain rfl := Option.some.inj (hcell.symm.trans h)
      exact ⟨rfl, rfl⟩
  · next hcell =>
      refine modify fun cell h => ?_
      obtain rfl := Option.some.inj (hcell.symm.trans h)
      exact ⟨rfl, rfl⟩
  · split
    · exact withChildren node []
    · exact (of_added (Added.alloc (.text text) (.nil dom))).trans (withChildren node _)
  · exact refl dom

theorem setMarkup (dom : Dom) (node : NodeId) (markup : String) :
    dom.SameHeads (dom.setMarkup node markup) := by
  unfold Dom.setMarkup
  split
  · split
    · exact (of_added (added_addForest dom _)).trans (withChildren node _)
    · exact refl dom
  · exact refl dom

end SameHeads

end Dom

theorem Place.sameHeads_paint (place : Place) (value : Value) (dom : Dom) :
    dom.SameHeads (place.paint value dom) := by
  unfold paint
  split
  · exact .setMarkup dom place.node _
  · exact .setText dom place.node _

namespace Compiler

open Session

variable {σ α : Type}

/-! ## Nodes and what is found on them -/

/-- What is found on nodes, in their order: on each, what its content accounts for. -/
inductive Accounted (Q : NodeId → NodeCell → List α → Prop) (dom : Dom) :
    List NodeId → List α → Prop
  | nil : Accounted Q dom [] []
  | cons {node : NodeId} {cell : NodeCell} {own found : List α} {rest : List NodeId}
      (hcell : dom.cell? node = some cell) (hown : Q node cell own)
      (hrest : Accounted Q dom rest found) : Accounted Q dom (node :: rest) (own ++ found)

variable {Q : NodeId → NodeCell → List α → Prop}

namespace Accounted

variable {dom dom' : Dom} {nodes later : List NodeId} {found more : List α}

theorem append (h : Accounted Q dom nodes found) (h' : Accounted Q dom later more) :
    Accounted Q dom (nodes ++ later) (found ++ more) := by
  induction h with
  | nil => exact h'
  | cons hcell hown _ ih =>
      rw [List.append_assoc]
      exact .cons hcell hown ih

theorem congr (h : Accounted Q dom nodes found)
    (hsame : ∀ m ∈ nodes, dom'.cell? m = dom.cell? m) : Accounted Q dom' nodes found := by
  induction h with
  | nil => exact .nil
  | @cons node _ _ _ _ hcell hown _ ih =>
      refine .cons ((hsame node List.mem_cons_self).trans hcell) hown (ih fun m hm => ?_)
      exact hsame m (List.mem_cons_of_mem _ hm)

end Accounted

/-- What a part of a walk has done: the nodes in the end are listed ones or new, each once, and
account for what was found; cells that are not listed are as they were. -/
structure Covered (Q : NodeId → NodeCell → List α → Prop) (nodes labels : List NodeId)
    (found : List α) (dom dom' : Dom) : Prop where
  toured : Toured nodes [] labels dom dom'
  nodup : labels.Nodup
  accounted : Accounted Q dom' labels found

namespace Covered

variable {dom dom' dom'' : Dom} {nodes nodes' labels labels' : List NodeId} {found more : List α}

theorem within (h : Covered Q nodes labels found dom dom') {m : NodeId} (hm : m ∈ labels) :
    m ∈ nodes ∨ dom.cells.size ≤ m :=
  (h.toured.visits m hm).resolve_left List.not_mem_nil

theorem nil (dom : Dom) : Covered Q [] [] [] dom dom where
  toured := ⟨Nat.le_refl _, fun _ _ _ => rfl, fun _ hm => .inl hm, fun _ hm =>
    absurd hm List.not_mem_nil⟩
  nodup := List.nodup_nil
  accounted := .nil

theorem mono (h : Covered Q nodes labels found dom dom') (hnodes : nodes ⊆ nodes') :
    Covered Q nodes' labels found dom dom' where
  toured := ⟨h.toured.size_le, fun m hlt hm => h.toured.others m hlt fun h => hm (hnodes h),
    fun _ hm => .inr ((h.within hm).imp_left fun h => hnodes h), h.toured.there⟩
  nodup := h.nodup
  accounted := h.accounted

theorem append (h : Covered Q nodes labels found dom dom')
    (h' : Covered Q nodes' labels' more dom' dom'') (hapart : ∀ m ∈ labels, m ∉ nodes') :
    Covered Q (nodes ++ nodes') (labels ++ labels') (found ++ more) dom dom'' := by
  have hkept (m : NodeId) (hm : m ∈ labels) : dom''.cell? m = dom'.cell? m :=
    h'.toured.others m (h.toured.there m hm) (hapart m hm)
  refine ⟨⟨Nat.le_trans h.toured.size_le h'.toured.size_le, fun m hlt hm => ?_, fun m hm => ?_,
    fun m hm => ?_⟩, ?_, (h.accounted.congr hkept).append h'.accounted⟩
  · have hlt' := Nat.lt_of_lt_of_le hlt h.toured.size_le
    rw [h'.toured.others m hlt' fun h => hm (List.mem_append_right _ h)]
    exact h.toured.others m hlt fun h => hm (List.mem_append_left _ h)
  · right
    rcases List.mem_append.1 hm with hm | hm
    · exact (h.within hm).imp_left fun h => List.mem_append_left _ h
    · rcases h'.within hm with hlisted | hnew
      · exact .inl (List.mem_append_right _ hlisted)
      · exact .inr (Nat.le_trans h.toured.size_le hnew)
  · rcases List.mem_append.1 hm with hm | hm
    · exact Nat.lt_of_lt_of_le (h.toured.there m hm) h'.toured.size_le
    · exact h'.toured.there m hm
  · refine List.nodup_append.2 ⟨h.nodup, h'.nodup, fun m hm m' hm' hsame => ?_⟩
    subst hsame
    -- The later nodes are listed elsewhere, or newer than the earlier ones.
    rcases h'.within hm' with hlisted | hnew
    · exact hapart m hm hlisted
    · exact Nat.lt_irrefl m (Nat.lt_of_lt_of_le (h.toured.there m hm) hnew)

end Covered

/-! ## Walks -/

/-- A visit changes its own node only, and finds what the node accounts for then. -/
def Accounts (visit : NodeId → Session σ CompileError (List α))
    (Q : NodeId → NodeCell → List α → Prop) : Prop :=
  ∀ node s own t, node < s.dom.cells.size → visit node s = some (.ok own, t) →
    s.dom.Reworked node t.dom ∧ ∃ cell, t.dom.cell? node = some cell ∧ Q node cell own

/-- Walks below a node leave the node as it is, and cover the tree that is below it in the end. -/
def CoversBelow (visit : NodeId → Session σ CompileError (List α))
    (Q : NodeId → NodeCell → List α → Prop) (depth : Nat) : Prop :=
  ∀ node s found t, s.dom.Distinct (s.dom.footprint depth node) →
    walk visit depth node s = some (.ok found, t) →
    ∃ tree below, t.dom.treeWithin? depth node = some tree ∧ tree.labels = node :: below ∧
      node ∉ below ∧ t.dom.cell? node = s.dom.cell? node ∧
      Covered Q (s.dom.footprint depth node) below found s.dom t.dom

variable {visit : NodeId → Session σ CompileError (List α)}

/-- The visit of a node with the walk below it. -/
theorem descend_covers (hvisit : Accounts visit Q) {depth : Nat} (hwalk : CoversBelow visit Q depth)
    {node : NodeId} {own below : List α} {s t u : Store σ}
    (hdistinct : s.dom.Distinct (s.dom.footprint depth node))
    (hown : visit node s = some (.ok own, t))
    (hbelow : walk visit depth node t = some (.ok below, u)) :
    ∃ tree, u.dom.treeWithin? depth node = some tree ∧
      Covered Q (s.dom.footprint depth node) tree.labels (own ++ below) s.dom u.dom := by
  have hself := Dom.mem_footprint_self s.dom depth node
  have hlt := hdistinct.2 node hself
  obtain ⟨hreworked, cell, hcell, hQ⟩ := hvisit node s own t hlt hown
  obtain ⟨tree, labels, htree, hlabels, hnode, hkept, hcovered⟩ :=
    hwalk node t below u (hreworked.distinct depth hdistinct) hbelow
  refine ⟨tree, htree, ?_⟩
  rw [hlabels]
  have hsize := Nat.le_trans hreworked.size_le hcovered.toured.size_le
  refine ⟨⟨hsize, fun m hm hout => ?_, fun m hm => .inr ?_, fun m hm => ?_⟩,
    List.nodup_cons.2 ⟨hnode, hcovered.nodup⟩, .cons (hkept.trans hcell) hQ hcovered.accounted⟩
  · -- What is outside the footprint before the visit is outside the one behind it.
    have hout' : m ∉ t.dom.footprint depth node := by
      intro hin
      rcases hreworked.within depth hdistinct m hin with hin | hnew
      · exact hout hin
      · exact Nat.lt_irrefl m (Nat.lt_of_lt_of_le hm hnew)
    rw [hcovered.toured.others m (Nat.lt_of_lt_of_le hm hreworked.size_le) hout']
    exact hreworked.others m (fun h => hout (h ▸ hself)) hm
  · rcases List.mem_cons.1 hm with rfl | hm
    · exact .inl hself
    · rcases hcovered.within hm with hin | hnew
      · exact hreworked.within depth hdistinct m hin
      · exact .inr (Nat.le_trans hreworked.size_le hnew)
  · rcases List.mem_cons.1 hm with rfl | hm
    · exact Nat.lt_of_lt_of_le hlt hsize
    · exact hcovered.toured.there m hm

/-- Induction on the nodes: what stands below the first one stays as it is while the others are
walked over. -/
theorem forEach_covers (hvisit : Accounts visit Q) {depth : Nat} (hwalk : CoversBelow visit Q depth)
    {nodes : List NodeId} {found : List α} {s t : Store σ}
    (hdistinct : s.dom.Distinct (nodes.flatMap (s.dom.footprint depth)))
    (hrun : forEach (descend visit depth) nodes s = some (.ok found, t)) :
    ∃ trees, nodes.mapM (t.dom.treeWithin? depth) = some trees ∧
      Covered Q (nodes.flatMap (s.dom.footprint depth)) (Tree.labels.labelsOf trees) found s.dom
        t.dom := by
  induction nodes generalizing found s with
  | nil =>
      obtain ⟨rfl, rfl⟩ := pure_ok.1 hrun
      exact ⟨[], rfl, .nil _⟩
  | cons node rest ih =>
      obtain ⟨own, below, others, u, v, hown, hbelow, hrest, rfl⟩ := forEach_descend_cons_ok.1 hrun
      rw [List.flatMap_cons] at hdistinct ⊢
      obtain ⟨hfirst, hothers, hapart⟩ := hdistinct.of_append
      obtain ⟨tree, htree, hcovered⟩ := descend_covers hvisit hwalk hfirst hown hbelow
      obtain ⟨hsame, hdistinct₁, hunvisited⟩ := hcovered.toured.apart hothers fun m hm =>
        ⟨hapart m hm, List.not_mem_nil⟩
      rw [← hsame] at hdistinct₁ hunvisited
      obtain ⟨trees, htrees, hcovered'⟩ := ih hdistinct₁ hrest
      have hkept : ∀ m ∈ tree.labels, m ∉ rest.flatMap (v.dom.footprint depth) :=
        fun m hm hin => hunvisited m hin hm
      refine ⟨tree :: trees, Dom.mapM_cons_eq_some.2 ⟨tree, trees, ?_, htrees, rfl⟩, ?_⟩
      · exact Dom.treeWithin?_congr htree fun m hm =>
          hcovered'.toured.others m (hcovered.toured.there m hm) (hkept m hm)
      · rw [← hsame]
        exact hcovered.append hcovered' hkept

/-- Induction on the depth. -/
theorem walk_covers (hvisit : Accounts visit Q) (depth : Nat) : CoversBelow visit Q depth := by
  induction depth with
  | zero =>
      intro node s found t _ hrun
      cases hrun
  | succ depth ih =>
      intro node s found t hdistinct hrun
      rw [walk_succ] at hrun
      rw [Dom.footprint] at hdistinct ⊢
      obtain ⟨hlt, hnode, hbelow⟩ := hdistinct.of_cons
      obtain ⟨trees, htrees, hcovered⟩ := forEach_covers hvisit ih hbelow hrun
      have hkept : t.dom.cell? node = s.dom.cell? node := hcovered.toured.others node hlt hnode
      obtain ⟨cell, hcell⟩ := Dom.exists_cell? hlt
      rw [Dom.childrenOf_of_cell? hcell] at htrees
      refine ⟨cell.over node trees, Tree.labels.labelsOf trees,
        Dom.treeWithin?_succ_eq_some.2 ⟨cell, trees, hkept.trans hcell, htrees, rfl⟩,
        Dom.labels_over htrees node, fun hin => ?_, hkept,
        hcovered.mono fun m hm => List.mem_cons_of_mem _ hm⟩
      rcases hcovered.within hin with hin | hnew
      · exact hnode hin
      · exact Nat.lt_irrefl node (Nat.lt_of_lt_of_le hlt hnew)

/-! ## Bindings by node -/

/-- What the content of a node accounts for among bindings: one for each directive attribute of an
element, in order, and one for a text, unless the text has no interpolation. -/
def Bindings (start : String) (node : NodeId) (cell : NodeCell) (own : List Binding) : Prop :=
  (∀ binding ∈ own, binding.node = node) ∧
    match cell with
    | .element _ attributes _ =>
      own.map (fun binding => (binding.expression, binding.mode)) =
        attributes.filterMap (directive? start)
    | .text data =>
      (∃ binding, own = [binding] ∧ binding.mode = "text") ∨
        own = [] ∧ Interpolation.find? data = none
    | _ => own = []

namespace Accounted

variable {start : String} {dom : Dom} {nodes : List NodeId} {found : List Binding}

theorem node_mem (h : Accounted (Bindings start) dom nodes found) :
    ∀ binding ∈ found, binding.node ∈ nodes := by
  induction h with
  | nil => exact fun _ hmem => absurd hmem List.not_mem_nil
  | cons hcell hown _ ih =>
      intro binding hmem
      rcases List.mem_append.1 hmem with hmem | hmem
      · rw [hown.1 binding hmem]
        exact List.mem_cons_self
      · exact List.mem_cons_of_mem _ (ih binding hmem)

theorem filter_of_not_mem (h : Accounted (Bindings start) dom nodes found) {m : NodeId}
    (hm : m ∉ nodes) : found.filter (·.node = m) = [] := by
  refine List.filter_eq_nil_iff.2 fun binding hmem => ?_
  have hnode := h.node_mem binding hmem
  simp only [decide_eq_true_eq]
  exact fun heq => hm (heq ▸ hnode)

/-- If no node is listed twice, then the bindings of each are those that it accounts for, and all
bindings are those of the nodes in order. -/
theorem by_node (h : Accounted (Bindings start) dom nodes found) (hnodup : nodes.Nodup) :
    found = nodes.flatMap (fun m => found.filter (·.node = m)) ∧
      ∀ m ∈ nodes, ∃ cell, dom.cell? m = some cell ∧
        Bindings start m cell (found.filter (·.node = m)) := by
  induction h with
  | nil => exact ⟨rfl, fun _ hm => absurd hm List.not_mem_nil⟩
  | @cons node cell own found rest hcell hown hrest ih =>
      obtain ⟨hnode, hnodup⟩ := List.nodup_cons.1 hnodup
      obtain ⟨hfound, heach⟩ := ih hnodup
      have hself : (own ++ found).filter (·.node = node) = own := by
        rw [List.filter_append, hrest.filter_of_not_mem hnode, List.append_nil]
        exact List.filter_eq_self.2 fun binding hmem => by simpa using hown.1 binding hmem
      have hlater (m : NodeId) (hm : m ∈ rest) :
          (own ++ found).filter (·.node = m) = found.filter (·.node = m) := by
        have hnone : own.filter (·.node = m) = [] := by
          refine List.filter_eq_nil_iff.2 fun binding hmem => ?_
          simp only [decide_eq_true_eq, hown.1 binding hmem]
          exact fun heq => hnode (heq ▸ hm)
        rw [List.filter_append, hnone, List.nil_append]
      refine ⟨?_, fun m hm => ?_⟩
      · rw [List.flatMap_cons, hself, List.flatMap_congr hlater, ← hfound]
      · rcases List.mem_cons.1 hm with rfl | hm
        · rw [hself]
          exact ⟨cell, hcell, hown⟩
        · rw [hlater m hm]
          exact heach m hm

end Accounted

end Compiler

namespace Binds

variable {σ : Type} {source : Source σ} {data : ObjectId} {places : List Place} {s t : Store σ}
  {outcome : Except CompileError (List Binding)}

/-- Binding places does to the nodes what paints keep. -/
theorem keeps_dom {R : Dom → Dom → Prop} (hrefl : ∀ dom, R dom dom)
    (htrans : ∀ {dom dom' dom''}, R dom dom' → R dom' dom'' → R dom dom'')
    (h : Binds source data places s outcome t)
    (hpaint : ∀ place ∈ places, ∀ value dom, R dom (place.paint value dom)) : R s.dom t.dom := by
  induction h with
  | nil _ hdom => exact hdom ▸ hrefl _
  | fails _ _ hdom => exact hdom ▸ hrefl _
  | @binds place rest s t u field outcome hfield henrolled hdom _ ih =>
      have hfirst : R s.dom t.dom := hdom ▸ hpaint place List.mem_cons_self _ _
      exact htrans hfirst (ih fun other hother => hpaint other (List.mem_cons_of_mem _ hother))

/-- The bindings are those of the places. -/
theorem bindings_eq {bindings : List Binding}
    (h : Binds source data places s (.ok bindings) t) :
    bindings.map (fun binding => (binding.node, binding.expression, binding.mode)) =
      places.map fun place => (place.node, place.shown.expression, place.mode) := by
  generalize hfirst : (.ok bindings : Except CompileError (List Binding)) = first at h
  induction h generalizing bindings with
  | nil =>
      obtain rfl := Except.ok.inj hfirst
      rfl
  | fails => cases hfirst
  | @binds place rest s t u field outcome' _ _ _ _ ih =>
      cases outcome' with
      | error e => cases hfirst
      | ok others =>
          obtain rfl := Except.ok.inj hfirst
          rw [List.map_cons, List.map_cons, ih rfl]
          rfl

end Binds

namespace Compiler

open Session

variable {σ : Type} (start : String) (forwarded : Option (List String)) (data : ObjectId)
  (limit : Nat)

theorem node_placesAt {node : NodeId} {cell : NodeCell} {place : Place}
    (h : place ∈ placesAt start node cell) : place.node = node := by
  cases cell with
  | element tag attributes children =>
      obtain ⟨directive, -, rfl⟩ := List.mem_map.1 h
      rfl
  | text text =>
      obtain ⟨found, -, rfl⟩ := List.mem_map.1 h
      rfl
  | comment text => cases h
  | document children => cases h

/-- A visit of a node finds the bindings that the node accounts for. -/
theorem compileNode_accounts :
    Accounts ((standard start forwarded data : Compiler σ).compileNode limit) (Bindings start) := by
  intro node s own t hlt hrun
  obtain ⟨cell, hcell⟩ := Dom.exists_cell? hlt
  have hbinds := binds_of_compileNode start forwarded data limit hcell hrun
  have hreworked : s.dom.Reworked node t.dom :=
    hbinds.keeps_dom (.refl node) .trans fun place hplace value dom =>
      node_placesAt start hplace ▸ place.reworked_paint value dom
  have hheads : s.dom.SameHeads t.dom :=
    hbinds.keeps_dom .refl .trans fun place _ => place.sameHeads_paint
  obtain ⟨cell', hcell', hkind, hattributes⟩ := hheads node cell hcell
  have hbindings := hbinds.bindings_eq
  refine ⟨hreworked, cell', hcell', fun binding hmem => ?_, ?_⟩
  · have hplace := List.mem_map_of_mem (f := fun binding : Binding =>
      (binding.node, binding.expression, binding.mode)) hmem
    rw [hbindings] at hplace
    obtain ⟨place, hplace, heq⟩ := List.mem_map.1 hplace
    rw [← (Prod.mk.inj heq).1]
    exact node_placesAt start hplace
  · have hmodes := congrArg (List.map Prod.snd) hbindings
    rw [List.map_map, List.map_map] at hmodes
    -- A visit that binds nothing leaves the node as it was.
    have hnone (hplaces : placesAt start node cell = []) : own = [] ∧ cell' = cell := by
      rw [hplaces] at hbindings hbinds
      refine ⟨List.map_eq_nil_iff.1 hbindings, ?_⟩
      cases hbinds with
      | nil _ hdom =>
          rw [hdom, hcell] at hcell'
          exact (Option.some.inj hcell').symm
    cases cell with
    | element tag attributes children =>
        cases cell' with
        | element tag' attributes' children' =>
            obtain rfl : attributes' = attributes := hattributes
            refine hmodes.trans ?_
            rw [placesAt, List.map_map]
            exact List.map_id _
        | _ => simp [NodeCell.kind] at hkind
    | text text =>
        cases hfind : Interpolation.find? text with
        | none =>
            obtain ⟨rfl, rfl⟩ := hnone (by rw [placesAt, hfind]; rfl)
            exact .inr ⟨rfl, hfind⟩
        | some found =>
            rw [placesAt, hfind] at hmodes
            cases cell' with
            | text text' =>
                cases own with
                | nil => cases hmodes
                | cons binding rest =>
                    obtain ⟨hfirst, hrest⟩ := List.cons.inj hmodes
                    obtain rfl := List.map_eq_nil_iff.1 hrest
                    exact .inl ⟨binding, rfl, (Prod.mk.inj hfirst).2⟩
            | _ => simp [NodeCell.kind] at hkind
    | comment text =>
        obtain ⟨rfl, rfl⟩ := hnone rfl
        rfl
    | document children =>
        obtain ⟨rfl, rfl⟩ := hnone rfl
        rfl

/-- A report of compiling below a root lists the bindings by node, in document order of the tree
that stands there in the end: for each element one for each of its directive attributes, and for
each text one, or none and then the text has no interpolation.  The root itself is not bound. -/
theorem report_covers_tree {root : NodeId} {before : Tree NodeId} {report : List Binding}
    {s t : Store σ} (htree : s.dom.tree? root = some before) (hlabels : before.labels.Nodup)
    (hrun : (standard start forwarded data).compile limit root s = some (.ok report, t)) :
    ∃ tree, t.dom.tree? root = some tree ∧ tree.labels.Nodup ∧
      report = (Tree.labels.labelsOf tree.children).flatMap
        (fun m => report.filter (·.node = m)) ∧
      (∀ m ∈ Tree.labels.labelsOf tree.children, ∃ cell, t.dom.cell? m = some cell ∧
        Bindings start m cell (report.filter (·.node = m))) ∧
      ∀ binding ∈ report, binding.node ≠ root := by
  obtain ⟨hlisted, hsublist⟩ := Dom.listed_tree htree
  have hdistinct : s.dom.Distinct (s.dom.footprint limit root) :=
    ⟨hlabels.sublist (hsublist limit), fun m hm => hlisted.there m ((hsublist limit).mem hm)⟩
  obtain ⟨found, u, hwalk, hlast⟩ := bind_ok.1 hrun
  rw [report_bind] at hlast
  obtain ⟨rfl, rfl⟩ := pure_ok.1 hlast
  obtain ⟨tree, below, htree', hbelow, hroot, -, hcovered⟩ :=
    walk_covers (compileNode_accounts start forwarded data limit) limit root s _ u hdistinct hwalk
  have hnodup : tree.labels.Nodup := hbelow ▸ List.nodup_cons.2 ⟨hroot, hcovered.nodup⟩
  obtain ⟨hreport, heach⟩ := hcovered.accounted.by_node hcovered.nodup
  rw [Tree.labels_eq_cons] at hbelow
  obtain rfl := (List.cons.inj hbelow).2
  refine ⟨tree, Dom.tree?_of_treeWithin? htree' hnodup, hnodup, hreport, heach, ?_⟩
  exact fun binding hmem heq => hroot (heq ▸ hcovered.accounted.node_mem binding hmem)

/-- A directive installs markup with an interpolation, in place of a text that has one. -/
def installing : Store Unit where
  dom := ⟨#[.element "div" [] [1], .element "p" [("id", "a"), ("v-html", "page")] [2],
    .text "{{old}}"]⟩
  objects := #[{ policy := .failFast, fields := [("page", 0), ("name", 1)] }]
  fields := #[
    { key := "page", value := .string "<b>{{name}}</b>", policy := .failFast },
    { key := "name", value := .string "A", policy := .failFast }]
  shared := ()

theorem report_covers_tree_installing :
    ∃ report t tree, (standard "v-" none 0).compile 9 0 installing = some (.ok report, t) ∧
      report.map (fun binding => (binding.expression, binding.mode)) =
        [("page", "html"), ("name", "text")] ∧
      t.dom.tree? 0 = some tree ∧
      report = (Tree.labels.labelsOf tree.children).flatMap
        (fun m => report.filter (·.node = m)) := by
  have hall : ((standard "v-" none 0).compile 9 0 installing).bind (fun
      | (.ok report, _) => some (report.map fun binding => (binding.expression, binding.mode))
      | (.error _, _) => none) = some [("page", "html"), ("name", "text")] := by decide +kernel
  obtain ⟨⟨outcome, t⟩, hrun, hreport⟩ := Option.bind_eq_some_iff.1 hall
  cases outcome with
  | error e => cases hreport
  | ok report =>
      obtain ⟨before, htree, hlabels⟩ : ∃ before, installing.dom.tree? 0 = some before ∧
          before.labels = [0, 1, 2] := ⟨_, rfl, rfl⟩
      obtain ⟨tree, htree', -, hfound, -⟩ :=
        report_covers_tree "v-" none 0 9 htree (hlabels ▸ by decide) hrun
      exact ⟨report, t, tree, hrun, Option.some.inj hreport, htree', hfound⟩

end Compiler

end LiveTemplate
