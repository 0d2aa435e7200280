import LiveTemplate.Proofs.Dom.Coated
import LiveTemplate.Proofs.Template.Crew

/-!
# Compiling coats a template

Without `html` directives, compiling paints texts only: into texts, and into the elements that have
a `text` directive, which are coated then.  Which elements these are is read off the template: those
that are reached from the root without passing one.  It does not depend on the data.
-/

namespace LiveTemplate

variable {σ : Type}

/-- An element with a directive is met on the way down from a node, as the first one. -/
inductive Coats (start : String) (base : Dom) : NodeId → NodeId → Prop
  | self {node : NodeId} {cell : NodeCell} (hcell : base.cell? node = some cell)
      (hkind : cell.kind = "element") (hplaces : placesAt start node cell ≠ []) :
    Coats start base node node
  | through {node child m : NodeId} {cell : NodeCell} (hcell : base.cell? node = some cell)
      (hplaces : placesAt start node cell = []) (hchild : child ∈ cell.children)
      (hbelow : Coats start base child m) : Coats start base node m

/-- There is a tree at the node, and no element of it has an `html` directive. -/
def Dom.Template (start : String) (base : Dom) (node : NodeId) : Prop :=
  ∃ depth tree, base.treeWithin? depth node = some tree ∧
    ∀ m ∈ tree.labels, start ++ "html" ∉ Table.keys (base.attributesOf m)

/-- All of the nodes have a directive in the template. -/
def Dom.Bearing (start : String) (base : Dom) (nodes : NodeId → Prop) : Prop :=
  ∀ m cell, nodes m → base.cell? m = some cell → placesAt start m cell ≠ []

/-- The place shows a text, in a coated element or in a text. -/
def Place.Mild (coated : NodeId → Prop) (dom : Dom) (place : Place) : Prop :=
  place.mode = "text" ∧ (coated place.node ∨ ∃ now, dom.cell? place.node = some (.text now))

variable {start : String} {base dom : Dom} {node : NodeId} {cell : NodeCell}
  {coated coated' : NodeId → Prop}

theorem Dom.SameHeads.text {dom' : Dom} (h : dom.SameHeads dom') {now : String}
    (hcell : dom.cell? node = some (.text now)) :
    ∃ later, dom'.cell? node = some (.text later) := by
  obtain ⟨cell, hcell', hkind, -⟩ := h node _ hcell
  cases cell with
  | text later => exact ⟨later, hcell'⟩
  | _ => simp [NodeCell.kind] at hkind

namespace Dom.Template

theorem cell? (h : base.Template start node) : ∃ cell, base.cell? node = some cell ∧
    (∀ child ∈ cell.children, base.Template start child) ∧
    ∀ place ∈ placesAt start node cell, place.mode = "text" := by
  obtain ⟨depth, tree, htree, hhtml⟩ := h
  cases depth with
  | zero => cases htree
  | succ depth =>
      obtain ⟨cell, trees, hcell, htrees, rfl⟩ := Dom.treeWithin?_succ_eq_some.1 htree
      rw [Dom.labels_over htrees, List.forall_mem_cons] at hhtml
      obtain ⟨hself, hbelow⟩ := hhtml
      refine ⟨cell, hcell, fun child hchild => ?_, fun place hplace => ?_⟩
      · obtain ⟨tree, htree, hbuilt⟩ := Dom.exists_mem_of_mapM htrees hchild
        exact ⟨depth, tree, hbuilt, fun m hm =>
          hbelow m ((Tree.sublist_labelsOf htree).mem hm)⟩
      · cases cell with
        | element tag attributes children =>
            rw [Dom.attributesOf_of_cell? hcell] at hself
            obtain ⟨⟨expression, mode⟩, hdirective, rfl⟩ := List.mem_map.1 hplace
            obtain ⟨entry, hentry, hasks⟩ := List.mem_filterMap.1 hdirective
            unfold directive? at hasks
            split at hasks
            · exact (Prod.mk.inj (Option.some.inj hasks)).2.symm
            · split at hasks
              · next hname => exact absurd (List.mem_map.2 ⟨entry, hentry, hname⟩) hself
              · cases hasks
        | text text =>
            obtain ⟨found, -, rfl⟩ := List.mem_map.1 hplace
            rfl
        | comment text => cases hplace
        | document children => cases hplace

end Dom.Template

theorem Coats.bearing (node : NodeId) : base.Bearing start (Coats start base node) := by
  intro m cell h hcell
  induction h with
  | self hcell' _ hplaces =>
      obtain rfl := Option.some.inj (hcell.symm.trans hcell')
      exact hplaces
  | through _ _ _ _ ih => exact ih hcell

/-- A node without directives passes on to its children. -/
theorem coats_iff_of_nil (hcell : base.cell? node = some cell)
    (hplaces : placesAt start node cell = []) (m : NodeId) :
    Coats start base node m ↔ ∃ child ∈ cell.children, Coats start base child m := by
  constructor
  · intro h
    cases h with
    | self hcell' _ hplaces' =>
        obtain rfl := Option.some.inj (hcell.symm.trans hcell')
        exact absurd hplaces hplaces'
    | through hcell' _ hchild hbelow =>
        obtain rfl := Option.some.inj (hcell.symm.trans hcell')
        exact ⟨_, hchild, hbelow⟩
  · rintro ⟨child, hchild, hbelow⟩
    exact .through hcell hplaces hchild hbelow

/-- An element with a directive lets nothing pass. -/
theorem coats_iff_of_element (hcell : base.cell? node = some cell) (hkind : cell.kind = "element")
    (hplaces : placesAt start node cell ≠ []) (m : NodeId) :
    Coats start base node m ↔ m = node := by
  constructor
  · intro h
    cases h with
    | self => rfl
    | through hcell' hplaces' =>
        obtain rfl := Option.some.inj (hcell.symm.trans hcell')
        exact absurd hplaces' hplaces
  · rintro rfl
    exact .self hcell hkind hplaces

/-- There is nothing to coat at or below a text. -/
theorem not_coats_of_text {data : String} (hcell : base.cell? node = some (.text data))
    (m : NodeId) : ¬Coats start base node m := by
  intro h
  cases h with
  | self hcell' hkind =>
      obtain rfl := Option.some.inj (hcell.symm.trans hcell')
      exact absurd hkind (show "text" ≠ "element" by decide)
  | through hcell' _ hchild =>
      obtain rfl := Option.some.inj (hcell.symm.trans hcell')
      cases hchild

/-- Nor at a node that the template does not have. -/
theorem not_coats_of_new (hnew : base.cells.size ≤ node) (m : NodeId) :
    ¬Coats start base node m := by
  intro h
  cases h with
  | self hcell => exact Nat.not_lt.2 hnew (Dom.lt_size_of_cell? hcell)
  | through hcell => exact Nat.not_lt.2 hnew (Dom.lt_size_of_cell? hcell)

/-! ## Mild places -/

namespace Place.Mild

variable {place : Place} {dom' : Dom}

theorem mono (h : place.Mild coated dom) (hheads : dom.SameHeads dom')
    (hsub : ∀ m, coated m → coated' m) : place.Mild coated' dom' := by
  refine ⟨h.1, h.2.imp (hsub _) ?_⟩
  rintro ⟨now, hnow⟩
  exact hheads.text hnow

/-- Showing a value at a mild place coats no other element. -/
theorem paint (h : place.Mild coated dom) (hcoated : base.Coated coated dom) (value : Value) :
    base.Coated coated (place.paint value dom) := by
  obtain ⟨hmode, hnode | ⟨now, hnow⟩⟩ := h
  · obtain ⟨tag, attributes, children, nodes, hbase, -⟩ := hcoated.coats _ hnode
    rw [Place.paint, if_neg (hmode ▸ by decide)]
    exact (hcoated.setText_of_element hbase _).congr fun m =>
      or_iff_left_of_imp fun hm => hm ▸ hnode
  · rw [Place.paint, if_neg (hmode ▸ by decide)]
    exact hcoated.setText_of_text hnow _

end Place.Mild

theorem Dom.Coated.paintEach {places : List Place} (h : base.Coated coated dom)
    (hmild : ∀ place ∈ places, place.Mild coated dom) (value : Value) :
    base.Coated coated (Place.paintEach value places dom) := by
  induction places generalizing dom with
  | nil => exact h
  | cons place rest ih =>
      refine ih ((hmild place List.mem_cons_self).paint h value) fun other hother => ?_
      exact (hmild other (List.mem_cons_of_mem _ hother)).mono (place.sameHeads_paint value dom)
        fun _ hm => hm

/-- Binding mild places coats no other element. -/
theorem Binds.mild {source : Source σ} {data : ObjectId} {places : List Place} {s t : Store σ}
    {outcome : Except CompileError (List Binding)} (h : Binds source data places s outcome t)
    (hcoated : base.Coated coated s.dom) (hmild : ∀ place ∈ places, place.Mild coated s.dom) :
    base.Coated coated t.dom := by
  induction h with
  | nil _ hdom => exact hdom ▸ hcoated
  | fails _ _ hdom => exact hdom ▸ hcoated
  | @binds place rest s t u field outcome hfield henrolled hdom _ ih =>
      refine ih (hdom ▸ (hmild place List.mem_cons_self).paint hcoated _) fun other hother => ?_
      exact (hmild other (List.mem_cons_of_mem _ hother)).mono (hdom ▸ place.sameHeads_paint _ _)
        fun _ hm => hm

/-- Binding the directives of an element coats it. -/
theorem Binds.coats {source : Source σ} {data : ObjectId} {places : List Place} {s t : Store σ}
    {bindings : List Binding} (h : Binds source data places s (.ok bindings) t)
    (hcoated : base.Coated coated s.dom) {tag : String} {attributes : Table String}
    {children : List NodeId} (hbase : base.cell? node = some (.element tag attributes children))
    (hplaces : places ≠ []) (hnode : ∀ place ∈ places, place.mode = "text" ∧ place.node = node) :
    base.Coated (fun m => coated m ∨ m = node) t.dom := by
  generalize hok : (.ok bindings : Except CompileError (List Binding)) = first at h
  cases h with
  | nil => exact absurd rfl hplaces
  | fails => cases hok
  | @binds place rest _ u _ field outcome hfield henrolled hdom hrest =>
      obtain ⟨hfirst, hlater⟩ := List.forall_mem_cons.1 hnode
      refine hrest.mild ?_ fun other hother => ⟨(hlater other hother).1, .inl (.inr ?_)⟩
      · rw [hdom, Place.paint, if_neg (hfirst.1 ▸ by decide), hfirst.2]
        exact hcoated.setText_of_element hbase _
      · exact (hlater other hother).2

/-! ## Walking over a template -/

/-- The node is one of the template, or a new one. -/
def Dom.Ready (start : String) (base dom : Dom) (node : NodeId) : Prop :=
  base.Template start node ∨ base.cells.size ≤ node ∧ node < dom.cells.size

theorem Dom.Ready.mono {dom' : Dom} (h : Dom.Ready start base dom node)
    (hsize : dom.cells.size ≤ dom'.cells.size) : Dom.Ready start base dom' node :=
  h.imp_right fun hnew => ⟨hnew.1, Nat.lt_of_lt_of_le hnew.2 hsize⟩

namespace Compiler

open Session

variable (start : String) (forwarded : Option (List String)) (data : ObjectId) (limit : Nat)

/-- Mild places have been bound, and the given elements are coated then. -/
def Coating (base : Dom) (coated : NodeId → Prop) (s : Store σ) (found : List Binding)
    (t : Store σ) : Prop :=
  ∃ places, Binds (.over forwarded data) data places s (.ok found) t ∧ base.Coated coated t.dom ∧
    ∀ place ∈ places, place.Mild coated t.dom

namespace Coating

variable {forwarded data} {s t u : Store σ} {own found : List Binding}

theorem nil (h : base.Coated coated s.dom) : Coating forwarded data base coated s [] s :=
  ⟨[], .nil (.refl s) rfl, h, fun _ h => absurd h List.not_mem_nil⟩

theorem append (h : Coating forwarded data base coated s own t)
    (h' : Coating forwarded data base coated' t found u) (hsub : ∀ m, coated m → coated' m) :
    Coating forwarded data base coated' s (own ++ found) u := by
  obtain ⟨places, hfirst, -, hmild⟩ := h
  obtain ⟨later, hlast, hcoated, hmild'⟩ := h'
  refine ⟨places ++ later, hfirst.append hlast, hcoated, List.forall_mem_append.2 ⟨?_, hmild'⟩⟩
  exact fun place hplace => (hmild place hplace).mono hlast.sameHeads hsub

theorem congr (h : Coating forwarded data base coated s found t)
    (hsame : ∀ m, coated m ↔ coated' m) : Coating forwarded data base coated' s found t :=
  (funext fun m => propext (hsame m) : coated = coated') ▸ h

theorem coated_dom (h : Coating forwarded data base coated s found t) :
    base.Coated coated t.dom := by
  obtain ⟨_, _, hcoated, _⟩ := h
  exact hcoated

theorem sameHeads (h : Coating forwarded data base coated s found t) : s.dom.SameHeads t.dom := by
  obtain ⟨places, hbinds, -⟩ := h
  exact hbinds.sameHeads

theorem size_le (h : Coating forwarded data base coated s found t) :
    s.dom.cells.size ≤ t.dom.cells.size := by
  obtain ⟨places, hbinds, -⟩ := h
  exact hbinds.keeps_dom (R := fun dom dom' => dom.cells.size ≤ dom'.cells.size)
    (fun _ => Nat.le_refl _) Nat.le_trans fun place _ value dom =>
      (place.reworked_paint value dom).size_le

end Coating

/-- A walk coats what is met below a node. -/
def CoatsBelow (base : Dom) (depth : Nat) (σ : Type) : Prop :=
  ∀ (node : NodeId) (coated : NodeId → Prop) (s : Store σ) (found : List Binding) (t : Store σ),
    base.Coated coated s.dom → base.Bearing start coated →
    (∀ n ∈ s.dom.childrenOf node, Dom.Ready start base s.dom n) →
    walk ((standard start forwarded data).compileNode limit) depth node s =
      some (.ok found, t) →
    Coating forwarded data base
      (fun m => coated m ∨ ∃ n ∈ s.dom.childrenOf node, Coats start base n m) s found t

variable {start forwarded data limit} {s t u : Store σ} {own below found : List Binding}
  {depth : Nat}

/-- Whatever a text reads, its visit coats nothing. -/
theorem visit_text (h : base.Coated coated s.dom) {now : String}
    (hcell : s.dom.cell? node = some (.text now))
    (hrun : (standard start forwarded data).compileNode limit node s = some (.ok own, t)) :
    Coating forwarded data base coated s own t := by
  have hbinds := binds_of_compileNode start forwarded data limit hcell hrun
  have hmild : ∀ place ∈ placesAt start node (.text now), place.Mild coated s.dom := by
    intro place hplace
    have hnode := node_placesAt start hplace
    obtain ⟨found, -, rfl⟩ := List.mem_map.1 hplace
    exact ⟨rfl, .inr ⟨now, hcell⟩⟩
  exact ⟨_, hbinds, hbinds.mild h hmild, fun place hplace =>
    (hmild place hplace).mono hbinds.sameHeads fun _ hm => hm⟩

/-- The visit of an element with directives coats it. -/
theorem visit_element (h : base.Coated coated s.dom) {tag : String} {attributes : Table String}
    {children nodes : List NodeId}
    (hbase : base.cell? node = some (.element tag attributes children))
    (hcell : s.dom.cell? node = some (.element tag attributes nodes))
    (hplaces : placesAt start node (.element tag attributes children) ≠ [])
    (hmode : ∀ place ∈ placesAt start node (.element tag attributes children),
      place.mode = "text")
    (hrun : (standard start forwarded data).compileNode limit node s = some (.ok own, t)) :
    Coating forwarded data base (fun m => coated m ∨ m = node) s own t := by
  have hbinds := binds_of_compileNode start forwarded data limit hcell hrun
  have hcoated := hbinds.coats h hbase hplaces fun place hplace =>
    ⟨hmode place hplace, node_placesAt start hplace⟩
  exact ⟨_, hbinds, hcoated, fun place hplace =>
    ⟨hmode place hplace, .inl (.inr (node_placesAt start hplace))⟩⟩

/-- A node without directives, if it is no text, is left as it is. -/
theorem visit_plain (h : base.Coated coated s.dom) (hcell : s.dom.cell? node = some cell)
    (hplaces : placesAt start node cell = [])
    (hrun : (standard start forwarded data).compileNode limit node s = some (.ok own, t)) :
    Coating forwarded data base coated s own t ∧ t.dom = s.dom := by
  have hbinds := binds_of_compileNode start forwarded data limit hcell hrun
  rw [hplaces] at hbinds
  have hdom := hbinds.dom_of_nil
  exact ⟨⟨[], hbinds, hdom ▸ h, fun _ h => absurd h List.not_mem_nil⟩, hdom⟩

section Descending

variable (hwalk : CoatsBelow start forwarded data limit base depth σ)
  (h : base.Coated coated s.dom) (hbearing : base.Bearing start coated)
  (hown : (standard start forwarded data).compileNode limit node s = some (.ok own, t))
  (hbelow : walk ((standard start forwarded data).compileNode limit) depth node t =
    some (.ok below, u))
include hwalk h hbearing hown hbelow

/-- There is nothing below a text. -/
theorem descend_text {now : String} (hcell : s.dom.cell? node = some (.text now))
    (hnone : ∀ m, ¬Coats start base node m) :
    Coating forwarded data base (fun m => coated m ∨ Coats start base node m) s (own ++ below)
      u := by
  have hvisit := visit_text h hcell hown
  obtain ⟨later, hlater⟩ := hvisit.sameHeads.text hcell
  have hchildren : t.dom.childrenOf node = [] := Dom.childrenOf_of_cell? hlater
  have hrest := hwalk node coated t below u hvisit.coated_dom hbearing (by simp [hchildren])
    hbelow
  refine (hvisit.append hrest fun m hm => .inl hm).congr fun m => or_congr_right ?_
  simp [hchildren, hnone m]

/-- A node without directives has the children that it has in the template. -/
theorem descend_plain (hbase : base.cell? node = some cell) (hkind : cell.kind ≠ "text")
    (hplaces : placesAt start node cell = [])
    (hchildren : ∀ child ∈ cell.children, base.Template start child) :
    Coating forwarded data base (fun m => coated m ∨ Coats start base node m) s (own ++ below)
      u := by
  have hcell : s.dom.cell? node = some cell :=
    h.others node cell (fun hm => hbearing node cell hm hbase hplaces) hbase hkind
  obtain ⟨hvisit, hdom⟩ := visit_plain h hcell hplaces hown
  have hsame : t.dom.childrenOf node = cell.children := by
    rw [hdom, Dom.childrenOf_of_cell? hcell]
  have hrest := hwalk node coated t below u (hdom ▸ h) hbearing
    (fun n hn => .inl (hchildren n (hsame ▸ hn))) hbelow
  refine (hvisit.append hrest fun m hm => .inl hm).congr fun m => or_congr_right ?_
  rw [hsame, coats_iff_of_nil hbase hplaces]

/-- An element with directives has new texts for children when the walk goes on below it. -/
theorem descend_element {tag : String} {attributes : Table String} {children : List NodeId}
    (hbase : base.cell? node = some (.element tag attributes children))
    (hplaces : placesAt start node (.element tag attributes children) ≠ [])
    (hmode : ∀ place ∈ placesAt start node (.element tag attributes children),
      place.mode = "text") :
    Coating forwarded data base (fun m => coated m ∨ Coats start base node m) s (own ++ below)
      u := by
  obtain ⟨nodes, hcell⟩ := h.cell?_of_element hbase
  have hvisit := visit_element h hbase hcell hplaces hmode hown
  obtain ⟨_, _, _, later, -, hlater, hnew⟩ := hvisit.coated_dom.coats node (.inr rfl)
  have hsame : t.dom.childrenOf node = later := Dom.childrenOf_of_cell? hlater
  -- From here on the element is coated, so its children in the template are not met.
  have hbearing' : base.Bearing start fun m => coated m ∨ m = node := by
    rintro m cell (hm | rfl) hm'
    · exact hbearing m cell hm hm'
    · obtain rfl := Option.some.inj (hbase.symm.trans hm')
      exact hplaces
  have hrest := hwalk node _ t below u hvisit.coated_dom hbearing'
    (fun n hn => .inr (hnew n (hsame ▸ hn))) hbelow
  refine (hvisit.append hrest fun m hm => .inl hm).congr fun m => ?_
  rw [or_assoc, coats_iff_of_element hbase rfl hplaces, hsame]
  refine or_congr_right (or_iff_left ?_)
  rintro ⟨n, hn, hcoats⟩
  exact not_coats_of_new (hnew n hn).1 m hcoats

/-- The visit of a node with the walk below it. -/
theorem descend_coats (hready : Dom.Ready start base s.dom node) :
    Coating forwarded data base (fun m => coated m ∨ Coats start base node m) s (own ++ below)
      u := by
  rcases hready with htemplate | ⟨hle, hlt⟩
  · obtain ⟨cell, hbase, hchildren, hmode⟩ := htemplate.cell?
    cases cell with
    | text data =>
        obtain ⟨now, hnow⟩ := h.texts node data hbase
        exact descend_text hwalk h hbearing hown hbelow hnow (not_coats_of_text hbase)
    | element tag attributes children =>
        by_cases hplaces : placesAt start node (.element tag attributes children) = []
        · exact descend_plain hwalk h hbearing hown hbelow hbase
            (show "element" ≠ "text" by decide) hplaces hchildren
        · exact descend_element hwalk h hbearing hown hbelow hbase hplaces hmode
    | comment data =>
        exact descend_plain hwalk h hbearing hown hbelow hbase
          (show "comment" ≠ "text" by decide) rfl hchildren
    | document children =>
        exact descend_plain hwalk h hbearing hown hbelow hbase
          (show "document" ≠ "text" by decide) rfl hchildren
  · obtain ⟨now, hnow⟩ := h.fresh node hle hlt
    exact descend_text hwalk h hbearing hown hbelow hnow (not_coats_of_new hle)

end Descending

/-- Induction on the depth, and on the children in the step. -/
theorem walk_coats (depth : Nat) : CoatsBelow start forwarded data limit base depth σ := by
  induction depth with
  | zero =>
      intro node coated s found t _ _ _ hrun
      cases hrun
  | succ depth ih =>
      intro node coated s found t h hbearing hready hrun
      rw [walk_succ] at hrun
      generalize s.dom.childrenOf node = children at hrun hready
      induction children generalizing s found coated with
      | nil =>
          obtain ⟨rfl, rfl⟩ := pure_ok.1 hrun
          exact (Coating.nil h).congr fun m => by simp
      | cons child rest ihrest =>
          obtain ⟨own, below, others, u, v, hown, hbelow, hrest, rfl⟩ :=
            forEach_descend_cons_ok.1 hrun
          have hchild := descend_coats ih h hbearing hown hbelow (hready child List.mem_cons_self)
          -- What is coated below the first child bears directives, and its new nodes are texts.
          have hlater := ihrest _ _ _ hchild.coated_dom
            (fun m cell hm => hm.elim (hbearing m cell) (Coats.bearing child m cell)) hrest
            fun n hn => (hready n (List.mem_cons_of_mem _ hn)).mono hchild.size_le
          refine (hchild.append hlater fun m hm => .inl hm).congr fun m => ?_
          rw [or_assoc, List.exists_mem_cons_iff]

/-- Compiling below a node of a template coats the elements that are met there. -/
theorem compile_coats {root : NodeId} {report : List Binding}
    (hroot : s.dom.Template start root)
    (hrun : (standard start forwarded data).compile limit root s = some (.ok report, t)) :
    Coating forwarded data s.dom
      (fun m => ∃ n ∈ s.dom.childrenOf root, Coats start s.dom n m) s report t := by
  obtain ⟨found, u, hwalk, hlast⟩ := bind_ok.1 hrun
  rw [report_bind] at hlast
  obtain ⟨rfl, rfl⟩ := pure_ok.1 hlast
  obtain ⟨cell, hcell, hchildren, -⟩ := hroot.cell?
  rw [← Dom.childrenOf_of_cell? hcell] at hchildren
  have hcoating := walk_coats limit root (fun _ => False) s _ u (.refl s.dom)
    (fun _ _ h => h.elim) (fun n hn => .inl (hchildren n hn)) hwalk
  simp only [false_or] at hcoating
  obtain ⟨places, hbinds, hcoated, hmild⟩ := hcoating
  exact ⟨places, hbinds.followed (.report u _) rfl, hcoated, hmild⟩

end Compiler

end LiveTemplate
