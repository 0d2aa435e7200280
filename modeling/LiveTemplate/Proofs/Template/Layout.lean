import LiveTemplate.Proofs.Dom.Painted
import LiveTemplate.Proofs.Template.Coverage

/-!
# The layout of a template

A template without `html` directives has its places where its tree has them: at the texts with an
interpolation, and at the elements with a `text` directive, which show nothing of what was below
them.  Compiling binds these places in document order, up to the first whose expression is no key.
It goes on below an element that it has painted; if the text there has no interpolation, it finds
nothing.
-/

namespace LiveTemplate

variable {σ : Type}

/-! ## Places of a tree -/

/-- The places of a template, in document order.  What is below an element with a place of its own
does not count. -/
def Tree.places (start : String) : Tree NodeId → List Place
  | .element label tag attributes children =>
    if placesAt start label (.element tag attributes []) = [] then placesOf children
    else placesAt start label (.element tag attributes [])
  | .text label data => placesAt start label (.text data)
  | .comment _ _ => []
  | .document _ children => placesOf children
where
  /-- The places of several templates. -/
  placesOf : List (Tree NodeId) → List Place
    | [] => []
    | tree :: rest => Tree.places start tree ++ placesOf rest

namespace Tree

/-- The places below the root of a template. -/
def placesBelow (start : String) (tree : Tree NodeId) : List Place :=
  places.placesOf start tree.children

variable {start : String}

theorem places_over {cell : NodeCell} {node : NodeId} {f : NodeId → Option (Tree NodeId)}
    {trees : List (Tree NodeId)} (h : cell.children.mapM f = some trees) :
    (cell.over node trees).places start =
      if placesAt start node cell = [] then places.placesOf start trees
      else placesAt start node cell := by
  cases cell with
  | element tag attributes children => rfl
  | text data =>
      obtain rfl := Option.some.inj h
      simp only [NodeCell.over, places]
      split
      · next hnone => exact hnone
      · rfl
  | comment data =>
      obtain rfl := Option.some.inj h
      rfl
  | document children => rfl

theorem children_over {cell : NodeCell} {node : NodeId} {f : NodeId → Option (Tree NodeId)}
    {trees : List (Tree NodeId)} (h : cell.children.mapM f = some trees) :
    (cell.over node trees).children = trees := by
  cases cell with
  | element tag attributes children => rfl
  | document children => rfl
  | _ => exact Option.some.inj h

/-- Places are at nodes of the tree. -/
theorem node_mem_labels (tree : Tree NodeId) :
    ∀ place ∈ tree.places start, place.node ∈ tree.labels := by
  refine places.induct start
    (fun trees => ∀ place ∈ places.placesOf start trees, place.node ∈ labels.labelsOf trees)
    (fun tree => ∀ place ∈ tree.places start, place.node ∈ tree.labels)
    ?walked ?installed ?text ?comment ?document ?nil ?cons tree
  case walked =>
    intro label tag attributes children hnone ih place hplace
    rw [places, if_pos hnone] at hplace
    exact List.mem_cons_of_mem _ (ih place hplace)
  case installed =>
    intro label tag attributes children hsome place hplace
    rw [places, if_neg hsome] at hplace
    exact List.mem_cons.2 (.inl (Compiler.node_placesAt start hplace))
  case text =>
    intro label data place hplace
    rw [places] at hplace
    exact List.mem_singleton.2 (Compiler.node_placesAt start hplace)
  case comment => exact fun label data place hplace => absurd hplace List.not_mem_nil
  case document =>
    exact fun label children ih place hplace => List.mem_cons_of_mem _ (ih place hplace)
  case nil => exact fun place hplace => absurd hplace List.not_mem_nil
  case cons =>
    intro tree rest ih ihrest place hplace
    rcases List.mem_append.1 hplace with hplace | hplace
    · exact List.mem_append_left _ (ih place hplace)
    · exact List.mem_append_right _ (ihrest place hplace)

theorem node_mem_labelsOf (trees : List (Tree NodeId)) :
    ∀ place ∈ places.placesOf start trees, place.node ∈ labels.labelsOf trees := by
  induction trees with
  | nil => exact fun place hplace => absurd hplace List.not_mem_nil
  | cons tree rest ih =>
      intro place hplace
      rcases List.mem_append.1 hplace with hplace | hplace
      · exact List.mem_append_left _ (tree.node_mem_labels place hplace)
      · exact List.mem_append_right _ (ih place hplace)

end Tree

/-- The attributes of a node have distinct names, and there is no `html` directive among them. -/
def Dom.Textual (start : String) (dom : Dom) (node : NodeId) : Prop :=
  (Table.keys (dom.attributesOf node)).Nodup ∧ start ++ "html" ∉ Table.keys (dom.attributesOf node)

instance (start : String) (dom : Dom) (node : NodeId) : Decidable (dom.Textual start node) :=
  inferInstanceAs (Decidable (_ ∧ _))

/-- Among attributes with distinct names, at most one is a `text` directive. -/
theorem filterMap_directive? {start : String} {attributes : Table String}
    (hnames : (Table.keys attributes).Nodup) (hhtml : start ++ "html" ∉ Table.keys attributes) :
    attributes.filterMap (directive? start) = [] ∨
      ∃ expression, attributes.filterMap (directive? start) = [(expression, "text")] := by
  induction attributes with
  | nil => exact .inl rfl
  | cons entry rest ih =>
      obtain ⟨name, expression⟩ := entry
      obtain ⟨hname, hnames⟩ := List.nodup_cons.1 hnames
      obtain ⟨hhtml₁, hhtml⟩ := not_or.1 fun h => hhtml (List.mem_cons.2 h)
      by_cases htext : name = start ++ "text"
      · right
        have hrest : rest.filterMap (directive? start) = [] := by
          refine List.filterMap_eq_nil_iff.2 fun other hother => ?_
          have hkey : other.1 ∈ Table.keys rest := List.mem_map_of_mem hother
          have htext' : other.1 ≠ start ++ "text" := fun h => hname (htext ▸ h ▸ hkey)
          have hhtml' : other.1 ≠ start ++ "html" := fun h => hhtml (h ▸ hkey)
          rw [directive?, if_neg htext', if_neg hhtml']
        refine ⟨expression, ?_⟩
        rw [List.filterMap_cons_some (b := (expression, "text")), hrest]
        rw [directive?, if_pos htext]
      · rw [List.filterMap_cons_none]
        · exact ih hnames hhtml
        · rw [directive?, if_neg htext, if_neg (Ne.symm hhtml₁)]

/-- A textual node has at most one place, in mode `text`. -/
theorem placesAt_textual {start : String} {dom : Dom} {node : NodeId} {cell : NodeCell}
    (hcell : dom.cell? node = some cell) (htextual : dom.Textual start node) :
    placesAt start node cell = [] ∨
      ∃ place, placesAt start node cell = [place] ∧ place.node = node ∧ place.mode = "text" := by
  cases cell with
  | element tag attributes children =>
      have hattributes : dom.attributesOf node = attributes := Dom.attributesOf_of_cell? hcell
      obtain ⟨hnames, hhtml⟩ := htextual
      rw [hattributes] at hnames hhtml
      rcases filterMap_directive? hnames hhtml with hnone | ⟨expression, hone⟩
      · left
        rw [placesAt, hnone]
        rfl
      · right
        rw [placesAt, hone]
        exact ⟨_, rfl, rfl, rfl⟩
  | text data =>
      rw [placesAt]
      cases Interpolation.find? data with
      | none => exact .inl rfl
      | some found => exact .inr ⟨_, rfl, rfl, rfl⟩
  | comment data => exact .inl rfl
  | document children => exact .inl rfl

/-- A directive stands for its value alone. -/
theorem render_placesAt_element {start tag : String} {node : NodeId} {attributes : Table String}
    {children : List NodeId} {place : Place}
    (h : place ∈ placesAt start node (.element tag attributes children)) (text : String) :
    place.shown.render text = text := by
  obtain ⟨directive, -, rfl⟩ := List.mem_map.1 h
  simp [Place.ofDirective, Interpolation.render]

/-- The place is at a node of the template that can show a text. -/
structure Place.Fits (base : Dom) (place : Place) : Prop where
  mode : place.mode = "text"
  node : ∃ cell, base.cell? place.node = some cell ∧ (cell.kind = "text" ∨ cell.kind = "element")

theorem Place.Fits.paint {base dom : Dom} {place : Place} {text? : NodeId → Option String}
    (hplace : place.Fits base) (h : base.Painted text? dom) (value : Value) :
    base.Painted (Function.update text? place.node (some (place.shown.render value.display)))
      (place.paint value dom) := by
  obtain ⟨hmode, cell, hcell, hkind⟩ := hplace
  rw [Place.paint, if_neg (hmode ▸ by decide)]
  exact h.setText hcell hkind _

/-- The places fit, and no two are at one node. -/
structure Fitting (base : Dom) (places : List Place) : Prop where
  fits : ∀ place ∈ places, place.Fits base
  nodup : (places.map Place.node).Nodup

namespace Fitting

variable {dom : Dom} {places later : List Place} {start : String}

theorem nil (dom : Dom) : Fitting dom [] := ⟨fun _ h => absurd h List.not_mem_nil, List.nodup_nil⟩

theorem sublist (h : Fitting dom places) (hsublist : later.Sublist places) : Fitting dom later where
  fits place hplace := h.fits place (hsublist.mem hplace)
  nodup := h.nodup.sublist (hsublist.map Place.node)

theorem append (h : Fitting dom places) (h' : Fitting dom later)
    (hapart : ∀ place ∈ places, ∀ other ∈ later, place.node ≠ other.node) :
    Fitting dom (places ++ later) where
  fits place hplace := (List.mem_append.1 hplace).elim (h.fits place) (h'.fits place)
  nodup := by
    rw [List.map_append]
    refine List.nodup_append.2 ⟨h.nodup, h'.nodup, fun m hm m' hm' => ?_⟩
    obtain ⟨place, hplace, rfl⟩ := List.mem_map.1 hm
    obtain ⟨other, hother, rfl⟩ := List.mem_map.1 hm'
    exact hapart place hplace other hother

/-- Those of several trees fit if those of each do. -/
theorem of_forest {depth : Nat} {nodes : List NodeId} {trees : List (Tree NodeId)}
    (hplaces : ∀ node tree, dom.treeWithin? depth node = some tree → tree.labels.Nodup →
      (∀ m ∈ tree.labels, dom.Textual start m) → Fitting dom (tree.places start))
    (htrees : nodes.mapM (dom.treeWithin? depth) = some trees)
    (hlabels : (Tree.labels.labelsOf trees).Nodup)
    (htextual : ∀ m ∈ Tree.labels.labelsOf trees, dom.Textual start m) :
    Fitting dom (Tree.places.placesOf start trees) := by
  induction nodes generalizing trees with
  | nil =>
      obtain rfl := Option.some.inj htrees
      exact .nil dom
  | cons node rest ih =>
      obtain ⟨tree, later, hfirst, hrest, rfl⟩ := Dom.mapM_cons_eq_some.1 htrees
      obtain ⟨hnodup, hnodup', hapart⟩ := List.nodup_append.1 hlabels
      refine (hplaces node tree hfirst hnodup fun m hm =>
        htextual m (List.mem_append_left _ hm)).append
          (ih hrest hnodup' fun m hm => htextual m (List.mem_append_right _ hm)) ?_
      exact fun place hplace other hother => hapart _ (tree.node_mem_labels place hplace) _
        (Tree.node_mem_labelsOf later other hother)

/-- The places of a textual tree fit it. -/
theorem of_tree {depth : Nat} {node : NodeId} {tree : Tree NodeId}
    (htree : dom.treeWithin? depth node = some tree) (hlabels : tree.labels.Nodup)
    (htextual : ∀ m ∈ tree.labels, dom.Textual start m) :
    Fitting dom (tree.places start) ∧ Fitting dom (tree.placesBelow start) := by
  induction depth generalizing node tree with
  | zero => cases htree
  | succ depth ih =>
      obtain ⟨cell, trees, hcell, htrees, rfl⟩ := Dom.treeWithin?_succ_eq_some.1 htree
      rw [Dom.labels_over htrees] at hlabels htextual
      have hbelow : Fitting dom (Tree.places.placesOf start trees) :=
        of_forest (fun _ _ htree hlabels htextual => (ih htree hlabels htextual).1) htrees
          (List.nodup_cons.1 hlabels).2 fun m hm => htextual m (List.mem_cons_of_mem _ hm)
      rw [Tree.placesBelow, Tree.children_over htrees, Tree.places_over htrees]
      refine ⟨?_, hbelow⟩
      rcases placesAt_textual hcell (htextual node List.mem_cons_self) with
        hnone | ⟨place, hone, hnode, hmode⟩
      · rw [if_pos hnone]
        exact hbelow
      · rw [hone, if_neg (List.cons_ne_nil _ _)]
        refine ⟨fun other hother => ?_, List.nodup_singleton _⟩
        rw [List.mem_singleton.1 hother]
        refine ⟨hmode, cell, hnode ▸ hcell, ?_⟩
        cases cell with
        | text data => exact .inl rfl
        | element tag attributes children => exact .inr rfl
        | comment data => cases hone
        | document children => cases hone

end Fitting

/-! ## The data of a store -/

namespace Store

/-- The objects and the values are the same. -/
structure SameData (s t : Store σ) : Prop where
  objects : t.objects = s.objects
  peek : ∀ field, t.peek field = s.peek field

namespace SameData

variable {s t u : Store σ}

theorem refl (s : Store σ) : s.SameData s := ⟨rfl, fun _ => rfl⟩

theorem symm (h : s.SameData t) : t.SameData s :=
  ⟨h.objects.symm, fun field => (h.peek field).symm⟩

theorem trans (h : s.SameData t) (h' : t.SameData u) : s.SameData u :=
  ⟨h'.objects.trans h.objects, fun field => (h'.peek field).trans (h.peek field)⟩

theorem field? (h : s.SameData t) (data : ObjectId) (key : String) :
    t.field? data key = s.field? data key := field?_congr h.objects data key

end SameData

theorem Enrolled.sameData {s t : Store σ} {ledger : List Registration}
    {built : List (Subscriber σ)} (h : s.Enrolled t ledger built) : s.SameData t :=
  ⟨h.objects, h.peek⟩

/-- The places that compiling comes to: those in front of the first whose expression is no key. -/
def reached (s : Store σ) (data : ObjectId) (places : List Place) : List Place :=
  places.takeWhile fun place => (s.field? data place.shown.expression).isSome

/-- No element is to show a text with an interpolation. -/
def Quiet (s : Store σ) (data : ObjectId) (places : List Place) : Prop :=
  ∀ place ∈ s.reached data places, s.dom.kind place.node = "element" →
    ∀ value ∈ s.valueOf? data place.shown.expression, Interpolation.find? value.display = none

instance (s : Store σ) (data : ObjectId) (places : List Place) :
    Decidable (s.Quiet data places) :=
  inferInstanceAs (Decidable (∀ place ∈ s.reached data places, _ → _))

variable {s t : Store σ} {data : ObjectId} {places later : List Place}

theorem SameData.valueOf? (h : s.SameData t) (data : ObjectId) (key : String) :
    t.valueOf? data key = s.valueOf? data key := by
  unfold Store.valueOf?
  rw [h.field?, funext h.peek]

theorem reached_congr (h : t.objects = s.objects) (data : ObjectId) (places : List Place) :
    t.reached data places = s.reached data places := by
  unfold Store.reached
  simp only [field?_congr h]

theorem reached_append
    (h : ∀ place ∈ places, (s.field? data place.shown.expression).isSome) :
    s.reached data (places ++ later) = places ++ s.reached data later :=
  List.takeWhile_append_of_pos h

theorem Quiet.left (h : s.Quiet data (places ++ later)) : s.Quiet data places := by
  intro place hplace
  refine h place ?_
  unfold Store.reached at hplace ⊢
  rw [List.takeWhile_append]
  split
  · exact List.mem_append_left _ ((List.takeWhile_sublist _).mem hplace)
  · exact hplace

end Store

namespace Binds

variable {source : Source σ} {data : ObjectId} {places later : List Place} {s t : Store σ}
  {outcome : Except CompileError (List Binding)}

/-- Binding places changes no data. -/
theorem sameData (h : Binds source data places s outcome t) : s.SameData t := by
  induction h with
  | nil henrolled => exact henrolled.sameData
  | fails _ henrolled => exact henrolled.sameData
  | binds _ henrolled _ _ ih => exact henrolled.sameData.trans ih

/-- When all places are bound, all expressions are keys. -/
theorem keyed_of_ok {bindings : List Binding}
    (h : Binds source data places s (.ok bindings) t) :
    ∀ place ∈ places, (s.field? data place.shown.expression).isSome := by
  generalize hfirst : (.ok bindings : Except CompileError (List Binding)) = first at h
  induction h generalizing bindings with
  | nil => exact fun _ hplace => absurd hplace List.not_mem_nil
  | fails => cases hfirst
  | @binds place rest s t u field outcome' hfield henrolled _ _ ih =>
      cases outcome' with
      | error e => cases hfirst
      | ok others =>
          refine List.forall_mem_cons.2 ⟨by rw [hfield]; rfl, fun other hother => ?_⟩
          rw [← henrolled.field?]
          exact ih rfl other hother

/-- Nodes without places are as they were. -/
theorem cell?_of_ne (h : Binds source data places s outcome t) {m : NodeId}
    (hm : ∀ place ∈ places, place.node ≠ m) (hlt : m < s.dom.cells.size) :
    t.dom.cell? m = s.dom.cell? m := by
  let R (dom dom' : Dom) : Prop := dom.cells.size ≤ dom'.cells.size ∧
    (m < dom.cells.size → dom'.cell? m = dom.cell? m)
  have hR : R s.dom t.dom := by
    refine h.keeps_dom (R := R) (fun dom => ⟨Nat.le_refl _, fun _ => rfl⟩) ?_ ?_
    · rintro dom dom' dom'' ⟨hle, hsame⟩ ⟨hle', hsame'⟩
      exact ⟨Nat.le_trans hle hle', fun hlt =>
        (hsame' (Nat.lt_of_lt_of_le hlt hle)).trans (hsame hlt)⟩
    · intro place hplace value dom
      have hreworked := place.reworked_paint value dom
      exact ⟨hreworked.size_le, hreworked.others m (hm place hplace).symm⟩
  exact hR.2 hlt

theorem dom_of_nil (h : Binds source data [] s outcome t) : t.dom = s.dom := by
  cases h with
  | nil _ hdom => exact hdom

/-- A single place that is bound shows the value of its key. -/
theorem dom_of_singleton {place : Place} {bindings : List Binding}
    (h : Binds source data [place] s (.ok bindings) t) :
    ∃ value, s.valueOf? data place.shown.expression = some value ∧
      t.dom = place.paint value s.dom := by
  generalize hfirst : (.ok bindings : Except CompileError (List Binding)) = first at h
  cases h with
  | fails => cases hfirst
  | @binds _ _ _ _ _ field _ hfield _ hdom hrest =>
      refine ⟨s.peek field, ?_, hrest.dom_of_nil.trans hdom⟩
      rw [Store.valueOf?, hfield]
      rfl

/-- Behind bound places it is still quiet at the later ones. -/
theorem quiet {bindings : List Binding} (h : Binds source data places s (.ok bindings) t)
    (hthere : ∀ place ∈ later, place.node < s.dom.cells.size)
    (hquiet : s.Quiet data (places ++ later)) : t.Quiet data later := by
  intro place hplace hkind
  rw [Store.reached_congr h.sameData.objects] at hplace
  rw [h.sameData.valueOf?]
  refine hquiet place ?_ ?_
  · rw [Store.reached_append h.keyed_of_ok]
    exact List.mem_append_right _ hplace
  · have hlt := hthere place ((List.takeWhile_sublist _).mem hplace)
    obtain ⟨cell, hcell⟩ := Dom.exists_cell? hlt
    obtain ⟨cell', hcell', hsame, -⟩ :=
      h.keeps_dom .refl .trans (fun place _ => place.sameHeads_paint) place.node cell hcell
    unfold Dom.kind at hkind ⊢
    rw [hcell'] at hkind
    rw [hcell]
    exact hsame.symm.trans hkind

end Binds

/-! ## Walks -/

namespace Compiler

open Session

/-- A session binds places, and has an outcome. -/
def Attends (source : Source σ) (data : ObjectId)
    (session : Session σ CompileError (List Binding)) (places : List Place) (s : Store σ) : Prop :=
  ∃ outcome t, session s = some (outcome, t) ∧ Binds source data places s outcome t

section

variable {source : Source σ} {data : ObjectId} {places later : List Place} {s : Store σ}
  {first second : Session σ CompileError (List Binding)}

theorem Attends.append (hfirst : Attends source data first places s)
    (hsecond : ∀ bindings t, Binds source data places s (.ok bindings) t →
      Attends source data second later t) :
    Attends source data (do
      let own ← first
      let others ← second
      pure (own ++ others)) (places ++ later) s := by
  obtain ⟨outcome, t, hrun, hbinds⟩ := hfirst
  cases outcome with
  | error e =>
      exact ⟨.error e, t, bind_append_eq_some.2 (.inl ⟨e, hrun, rfl⟩),
        hbinds.append_of_error later⟩
  | ok bindings =>
      obtain ⟨outcome, u, hrest, hlater⟩ := hsecond bindings t hbinds
      exact ⟨outcome.map (bindings ++ ·), u,
        bind_append_eq_some.2 (.inr ⟨bindings, t, outcome, hrun, hrest, rfl⟩),
        hbinds.append hlater⟩

end

variable {start : String} {forwarded : Option (List String)} {data : ObjectId} {limit : Nat}
  {s : Store σ} {node : NodeId}

/-- There is nothing below a leaf. -/
theorem walk_leaf {visit : NodeId → Session σ CompileError (List Binding)} {cell : NodeCell}
    (hcell : s.dom.cell? node = some cell) (hchildren : cell.children = []) (levels : Nat) :
    walk visit (levels + 1) node s = some (.ok [], s) := by
  rw [walk_succ, Dom.childrenOf_of_cell? hcell, hchildren]
  rfl

/-- There is nothing to bind below an element that shows a text without interpolation. -/
theorem walk_plain {text : String} {nodes : List NodeId} {cell : NodeCell} {base : Nat}
    (hcell : s.dom.cell? node = some cell) (hchildren : cell.children = nodes)
    (hnodes : s.dom.HoldsText base text nodes) (hplain : Interpolation.find? text = none)
    (levels : Nat) :
    walk ((standard start forwarded data).compileNode limit) (levels + 2) node s =
      some (.ok [], s) := by
  cases hnodes with
  | empty => exact walk_leaf hcell hchildren (levels + 1)
  | @filled _ child _ _ hchild =>
      have hvisit : (standard start forwarded data).compileNode limit child s =
          some (.ok [], s) := by
        rw [compileNode, inspect_bind, hchild]
        dsimp only
        rw [compileText, hplain]
        rfl
      rw [walk_succ, Dom.childrenOf_of_cell? hcell, hchildren]
      exact forEach_descend_cons_ok.2
        ⟨[], [], [], s, s, hvisit, walk_leaf hchild rfl levels, rfl, rfl⟩

/-- What a template needs for a walk to find its places. -/
structure Laid (start : String) (data : ObjectId) (labels : List NodeId) (places : List Place)
    (s : Store σ) : Prop where
  nodup : labels.Nodup
  textual : ∀ m ∈ labels, s.dom.Textual start m
  quiet : s.Quiet data places

/-- A walk below a node binds the places of the tree there. -/
def Finds (start : String) (forwarded : Option (List String)) (data : ObjectId)
    (limit depth levels : Nat) (σ : Type) : Prop :=
  ∀ (node : NodeId) (tree : Tree NodeId) (s : Store σ),
    s.dom.treeWithin? depth node = some tree →
    Laid start data tree.labels (tree.placesBelow start) s →
    Attends (.over forwarded data) data
      (walk ((standard start forwarded data).compileNode limit) levels node)
      (tree.placesBelow start) s

/-- The visit of a node with the walk below it. -/
theorem descend_attends {depth levels : Nat}
    (hwalk : Finds start forwarded data limit depth levels σ) (hlevels : depth < levels)
    {tree : Tree NodeId} (htree : s.dom.treeWithin? depth node = some tree)
    (hlaid : Laid start data tree.labels (tree.places start) s) :
    Attends (.over forwarded data) data
      (descend ((standard start forwarded data).compileNode limit) levels node)
      (tree.places start) s := by
  obtain ⟨less, rfl⟩ : ∃ less, depth = less + 1 := by
    cases depth with
    | zero => cases htree
    | succ less => exact ⟨less, rfl⟩
  obtain ⟨cell, trees, hcell, htrees, rfl⟩ := Dom.treeWithin?_succ_eq_some.1 htree
  have hvisit : Attends (.over forwarded data) data
      ((standard start forwarded data).compileNode limit node) (placesAt start node cell) s :=
    compileNode_binds start forwarded data limit hcell
  have htextual := hlaid.textual node (by
    rw [Dom.labels_over htrees]
    exact List.mem_cons_self)
  have hplaces : (cell.over node trees).places start =
      if placesAt start node cell = [] then Tree.places.placesOf start trees
      else placesAt start node cell := Tree.places_over htrees
  rcases placesAt_textual hcell htextual with hnone | ⟨place, hone, hnode, hmode⟩
  · -- The node is left alone, and so is the tree below it.
    rw [if_pos hnone] at hplaces
    have hbelow : (cell.over node trees).placesBelow start =
        (cell.over node trees).places start := by
      rw [Tree.placesBelow, Tree.children_over htrees, hplaces]
    rw [hnone] at hvisit
    rw [← hbelow] at hlaid ⊢
    refine hvisit.append fun bindings t hbinds => hwalk node _ t ?_ ⟨hlaid.nodup, ?_, ?_⟩
    · rw [hbinds.dom_of_nil]
      exact htree
    · rw [hbinds.dom_of_nil]
      exact hlaid.textual
    · refine hbinds.quiet (fun place hplace => ?_) hlaid.quiet
      rw [hbelow] at hplace
      exact (Dom.listed_tree htree).1.there _ (Tree.node_mem_labels _ place hplace)
  · rw [hone, if_neg (List.cons_ne_nil _ _)] at hplaces
    rw [hplaces] at hlaid ⊢
    rw [hone] at hvisit
    refine hvisit.append fun bindings t hbinds => ⟨.ok [], t, ?_, .nil (.refl t) rfl⟩
    obtain ⟨value, hvalue, hdom⟩ := hbinds.dom_of_singleton
    rw [Place.paint, if_neg (hmode ▸ by decide), hnode] at hdom
    cases cell with
    | text data =>
        have hnow := Dom.setText_of_text hcell (place.shown.render value.display)
        rw [← hdom] at hnow
        obtain ⟨levels, rfl⟩ : ∃ less, levels = less + 1 := ⟨levels - 1, by omega⟩
        exact walk_leaf hnow rfl levels
    | element tag attributes children =>
        have hmem : place ∈ placesAt start node (.element tag attributes children) :=
          hone ▸ List.mem_singleton.2 rfl
        rw [render_placesAt_element hmem] at hdom
        -- What the element shows has no interpolation, so there is nothing to bind in it.
        have hplain : Interpolation.find? value.display = none := by
          refine hlaid.quiet place ?_ ?_ value hvalue
          · rw [← List.append_nil [place], Store.reached_append hbinds.keyed_of_ok]
            exact List.mem_cons_self
          · rw [hnode, Dom.kind, hcell]
            rfl
        obtain ⟨nodes, hnow, hnodes⟩ := Dom.setText_of_element hcell value.display
        rw [← hdom] at hnow hnodes
        obtain ⟨levels, rfl⟩ : ∃ less, levels = less + 2 := ⟨levels - 2, by omega⟩
        exact walk_plain hnow rfl hnodes hplain levels
    | comment data => cases hone
    | document children => cases hone

/-- Induction on the nodes: binding places of the first tree leaves the others alone. -/
theorem forEach_attends {depth levels : Nat}
    (hwalk : Finds start forwarded data limit depth levels σ) (hlevels : depth < levels)
    {nodes : List NodeId} {trees : List (Tree NodeId)}
    (htrees : nodes.mapM (s.dom.treeWithin? depth) = some trees)
    (hlaid : Laid start data (Tree.labels.labelsOf trees) (Tree.places.placesOf start trees) s) :
    Attends (.over forwarded data) data
      (forEach (descend ((standard start forwarded data).compileNode limit) levels) nodes)
      (Tree.places.placesOf start trees) s := by
  induction nodes generalizing trees s with
  | nil =>
      obtain rfl := Option.some.inj htrees
      exact ⟨.ok [], s, rfl, .nil (.refl s) rfl⟩
  | cons node rest ih =>
      obtain ⟨tree, later, hfirst, hrest, rfl⟩ := Dom.mapM_cons_eq_some.1 htrees
      obtain ⟨hnodup, hnodup', hapart⟩ := List.nodup_append.1 hlaid.nodup
      have hdescend := descend_attends hwalk hlevels hfirst ⟨hnodup,
        fun m hm => hlaid.textual m (List.mem_append_left _ hm), hlaid.quiet.left⟩
      refine hdescend.append fun bindings t hbinds => ?_
      have hlisted := (Dom.listed_forest (fun _ _ => Dom.listed_tree) hrest).1
      have hkept (m : NodeId) (hm : m ∈ Tree.labels.labelsOf later) :
          t.dom.cell? m = s.dom.cell? m :=
        hbinds.cell?_of_ne (fun place hplace =>
          hapart _ (tree.node_mem_labels place hplace) m hm) (hlisted.there m hm)
      refine ih ?_ ⟨hnodup', fun m hm => ?_, ?_⟩
      · exact Dom.mapM_of_mapM hrest fun _ _ tree htree hchild =>
          Dom.treeWithin?_congr hchild fun m hm => hkept m ((Tree.sublist_labelsOf htree).mem hm)
      · unfold Dom.Textual Dom.attributesOf
        rw [hkept m hm]
        exact hlaid.textual m (List.mem_append_right _ hm)
      · exact hbinds.quiet (fun place hplace =>
          hlisted.there _ (Tree.node_mem_labelsOf later place hplace)) hlaid.quiet

/-- Induction on the depth of the tree.  An element that is painted may be one level deeper then. -/
theorem walk_finds (depth : Nat) :
    ∀ levels, depth < levels → Finds start forwarded data limit depth levels σ := by
  induction depth with
  | zero =>
      intro levels _ node tree s htree
      cases htree
  | succ depth ih =>
      intro levels hlevels node tree s htree hlaid
      obtain ⟨levels, rfl⟩ : ∃ less, levels = less + 1 := ⟨levels - 1, by omega⟩
      obtain ⟨cell, trees, hcell, htrees, rfl⟩ := Dom.treeWithin?_succ_eq_some.1 htree
      obtain ⟨hnodup, htextual, hquiet⟩ := hlaid
      rw [Dom.labels_over htrees] at hnodup htextual
      rw [Tree.placesBelow, Tree.children_over htrees] at hquiet ⊢
      have hlevels := Nat.lt_of_succ_lt_succ hlevels
      obtain ⟨outcome, t, hrun, hbinds⟩ := forEach_attends (ih levels hlevels) hlevels htrees
        ⟨(List.nodup_cons.1 hnodup).2, fun m hm => htextual m (List.mem_cons_of_mem _ hm), hquiet⟩
      refine ⟨outcome, t, ?_, hbinds⟩
      rw [walk_succ, Dom.childrenOf_of_cell? hcell]
      exact hrun

/-- Compiling binds the places below the root, and has an outcome if there are levels enough. -/
theorem compile_attends {depth : Nat} {root : NodeId} {tree : Tree NodeId}
    (htree : s.dom.treeWithin? depth root = some tree)
    (hlaid : Laid start data tree.labels (tree.placesBelow start) s) (hlimit : depth < limit) :
    Attends (.over forwarded data) data ((standard start forwarded data).compile limit root)
      (tree.placesBelow start) s := by
  obtain ⟨outcome, t, hwalk, hbinds⟩ := walk_finds depth limit hlimit root tree s htree hlaid
  cases outcome with
  | error e => exact ⟨.error e, t, bind_eq_some.2 (.inr ⟨e, hwalk, rfl⟩), hbinds⟩
  | ok bindings =>
      exact ⟨.ok bindings, t.report (.compiled bindings.length),
        bind_eq_some.2 (.inl ⟨bindings, t, hwalk, rfl⟩), hbinds.followed (.report t _) rfl⟩

end Compiler

end LiveTemplate
