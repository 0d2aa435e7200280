import LiveTemplate.Proofs.Interleaving
import LiveTemplate.Proofs.Reactive.Steps

/-!
# What a write touches

A write of a key paints the nodes that are bound to the key, one after another, and nothing else.
What that makes of the nodes is stated cell by cell over the whole heap, so it does not matter
whether a node is in the document: a node that an earlier binding has taken out of it, or that this
write takes out, keeps its content or is painted like any other one.
-/

namespace LiveTemplate

variable {σ : Type}

/-! ## Painting, cell by cell -/

namespace Dom

variable {base dom dom' : Dom} {node : NodeId} {cell : NodeCell}

/-- A node has only nodes below it that were not there before, and is the same otherwise. -/
def Refilled (base : Dom) (node : NodeId) (cell : NodeCell) (dom : Dom) : Prop :=
  ∃ nodes, dom.cell? node = some (cell.withChildren nodes) ∧ nodes.Nodup ∧
    ∀ m ∈ nodes, base.cells.size ≤ m ∧ m < dom.cells.size

theorem Refilled.of_added {nodes : List NodeId} (hcell : dom.cell? node = some cell)
    (h : Added dom dom' nodes) :
    dom.Refilled node cell (dom'.modify node fun cell => cell.withChildren nodes) := by
  have hself : nodes.flatMap (dom'.footprint 0) = nodes := by
    simp [footprint]
  obtain ⟨hnodup, hthere⟩ := h.distinct 0
  have hfresh := h.fresh 0
  rw [hself] at hnodup hthere hfresh
  refine ⟨nodes, ?_, hnodup, fun m hm => ⟨hfresh m hm, ?_⟩⟩
  · rw [cell?_modify, if_pos rfl, h.others node (lt_size_of_cell? hcell), hcell]
    rfl
  · exact Nat.lt_of_lt_of_eq (hthere m hm) Array.size_modify.symm

/-- The text of a container becomes a new node, or no node at all. -/
theorem Refilled.setText (hcell : dom.cell? node = some cell) (hcontainer : cell.isContainer = true)
    (text : String) : dom.Refilled node cell (dom.setText node text) := by
  unfold Dom.setText
  rw [hcell]
  cases cell with
  | text data => cases hcontainer
  | comment data => cases hcontainer
  | element tag attributes children =>
      dsimp only
      split
      · exact .of_added hcell (.nil dom)
      · exact .of_added hcell (Added.alloc (.text text) (.nil dom))
  | document children =>
      dsimp only
      split
      · exact .of_added hcell (.nil dom)
      · exact .of_added hcell (Added.alloc (.text text) (.nil dom))

/-- So do the trees of markup. -/
theorem Refilled.setMarkup (hcell : dom.cell? node = some cell)
    (hcontainer : cell.isContainer = true) (markup : String) :
    dom.Refilled node cell (dom.setMarkup node markup) := by
  unfold Dom.setMarkup
  rw [hcell]
  dsimp only
  rw [if_pos hcontainer]
  exact .of_added hcell (added_addForest dom _)

/-- Nodes that were not there later were not there before. -/
theorem Refilled.of_size_le {earlier : Dom} (h : base.Refilled node cell dom)
    (hle : earlier.cells.size ≤ base.cells.size) : earlier.Refilled node cell dom := by
  obtain ⟨nodes, hcell, hnodup, hfresh⟩ := h
  exact ⟨nodes, hcell, hnodup, fun m hm => ⟨Nat.le_trans hle (hfresh m hm).1, (hfresh m hm).2⟩⟩

/-- The nodes keep their types. -/
def SameKinds (dom dom' : Dom) : Prop :=
  ∀ (m : NodeId) (cell : NodeCell), dom.cell? m = some cell →
    ∃ cell', dom'.cell? m = some cell' ∧ cell'.kind = cell.kind

theorem SameHeads.sameKinds (h : dom.SameHeads dom') : dom.SameKinds dom' := by
  intro m cell hcell
  obtain ⟨cell', hcell', hkind, -⟩ := h m cell hcell
  exact ⟨cell', hcell', hkind⟩

end Dom

theorem NodeCell.isContainer_withChildren (cell : NodeCell) (nodes : List NodeId) :
    (cell.withChildren nodes).isContainer = cell.isContainer := by
  cases cell <;> rfl

theorem NodeCell.withChildren_withChildren (cell : NodeCell) (nodes later : List NodeId) :
    (cell.withChildren nodes).withChildren later = cell.withChildren later := by
  cases cell <;> rfl

namespace Place

variable {places : List Place} {base dom : Dom} {node : NodeId} {cell : NodeCell}

theorem refilled_paint {place : Place} (hcell : dom.cell? place.node = some cell)
    (hcontainer : cell.isContainer = true) (value : Value) :
    dom.Refilled place.node cell (place.paint value dom) := by
  unfold paint
  split
  · exact .setMarkup hcell hcontainer _
  · exact .setText hcell hcontainer _

/-- A container that has been filled anew may be filled again, or other nodes may be painted. -/
theorem Refilled.paint (h : base.Refilled node cell dom) (hcontainer : cell.isContainer = true)
    (hsize : base.cells.size ≤ dom.cells.size) (place : Place) (value : Value) :
    base.Refilled node cell (place.paint value dom) := by
  obtain ⟨nodes, hcell, hnodup, hfresh⟩ := h
  have hreworked := place.reworked_paint value dom
  by_cases hnode : place.node = node
  · subst hnode
    obtain ⟨later, hlater, hnodup', hfresh'⟩ := (refilled_paint hcell
      ((cell.isContainer_withChildren nodes).trans hcontainer) value).of_size_le hsize
    rw [cell.withChildren_withChildren] at hlater
    exact ⟨later, hlater, hnodup', hfresh'⟩
  · refine ⟨nodes, ?_, hnodup, fun m hm => ⟨(hfresh m hm).1, ?_⟩⟩
    · rw [hreworked.others node (Ne.symm hnode) (Dom.lt_size_of_cell? hcell), hcell]
    · exact Nat.lt_of_lt_of_le (hfresh m hm).2 hreworked.size_le

/-- Painting leaves a node alone at which there is no place. -/
theorem paintEach_of_elsewhere (hnode : node < dom.cells.size)
    (h : ∀ place ∈ places, place.node ≠ node) (value : Value) :
    (paintEach value places dom).cell? node = dom.cell? node := by
  induction places generalizing dom with
  | nil => rfl
  | cons place rest ih =>
      obtain ⟨hfirst, hrest⟩ := List.forall_mem_cons.1 h
      have hreworked := place.reworked_paint value dom
      exact (ih (Nat.lt_of_lt_of_le hnode hreworked.size_le) hrest).trans
        (hreworked.others node (Ne.symm hfirst) hnode)

/-- A text shows what its last place makes of the value. -/
theorem paintEach_of_text {data : String} (hcell : dom.cell? node = some (.text data))
    (hmode : ∀ place ∈ places, place.node = node → place.mode ≠ "html") (value : Value) :
    (paintEach value places dom).cell? node = some (.text
      (((lastAt places node).map fun place => place.shown.render value.display).getD data)) := by
  induction places generalizing dom data with
  | nil => exact hcell
  | cons place rest ih =>
      obtain ⟨hfirst, hrest⟩ := List.forall_mem_cons.1 hmode
      by_cases hnode : place.node = node
      · have hpainted : (place.paint value dom).cell? node =
            some (.text (place.shown.render value.display)) := by
          subst hnode
          unfold paint
          rw [if_neg (hfirst rfl)]
          exact Dom.setText_of_text hcell _
        rw [lastAt_cons, if_pos hnode]
        refine (ih hpainted hrest).trans ?_
        cases lastAt rest node <;> rfl
      · have hkept := (place.reworked_paint value dom).others node (Ne.symm hnode)
          (Dom.lt_size_of_cell? hcell)
        rw [lastAt_cons, if_neg hnode, Option.or_none]
        exact ih (hkept.trans hcell) hrest

theorem Refilled.paintEach (h : base.Refilled node cell dom) (hcontainer : cell.isContainer = true)
    (hsize : base.cells.size ≤ dom.cells.size) (places : List Place) (value : Value) :
    base.Refilled node cell (Place.paintEach value places dom) := by
  induction places generalizing dom with
  | nil => exact h
  | cons place rest ih =>
      exact ih (Refilled.paint h hcontainer hsize place value)
        (Nat.le_trans hsize (place.reworked_paint value dom).size_le)

/-- A container has new nodes below it if there is a place at it. -/
theorem paintEach_of_container (hcell : dom.cell? node = some cell)
    (hcontainer : cell.isContainer = true) (hplace : ∃ place ∈ places, place.node = node)
    (value : Value) : dom.Refilled node cell (paintEach value places dom) := by
  induction places generalizing dom with
  | nil =>
      obtain ⟨place, hmem, -⟩ := hplace
      exact absurd hmem List.not_mem_nil
  | cons place rest ih =>
      have hreworked := place.reworked_paint value dom
      by_cases hnode : place.node = node
      · subst hnode
        exact Refilled.paintEach (refilled_paint hcell hcontainer value) hcontainer
          hreworked.size_le rest value
      · have hkept := hreworked.others node (Ne.symm hnode) (Dom.lt_size_of_cell? hcell)
        obtain ⟨other, hother, hsame⟩ := hplace
        have hrest : ∃ place ∈ rest, place.node = node :=
          ⟨other, (List.mem_cons.1 hother).resolve_left fun h => hnode (h ▸ hsame), hsame⟩
        exact (ih (hkept.trans hcell) hrest).of_size_le hreworked.size_le

end Place

/-! ## Sites and their places -/

namespace Site

/-- What the node is to show: the interpolation of the text that it was, or the bare value. -/
def shown (site : Site) : Interpolation :=
  let bare : Interpolation := ⟨site.binding.expression, "", ""⟩
  match site.cell with
  | some (.text text) => (Interpolation.find? text).getD bare
  | _ => bare

/-- The place that the binding of a site repaints. -/
def place (site : Site) : Place := ⟨site.binding.node, site.shown, site.binding.mode⟩

/-- The place of the site is read off its node as it was, and the node has kept its type. -/
structure Stands (start : String) (dom : Dom) (site : Site) : Prop where
  expression : site.shown.expression = site.binding.expression
  node : ∃ cell now, site.cell = some cell ∧
    site.place ∈ placesAt start site.binding.node cell ∧
    dom.cell? site.binding.node = some now ∧ now.kind = cell.kind

theorem Stands.sameKinds {start : String} {dom dom' : Dom} {site : Site}
    (h : site.Stands start dom) (hkinds : dom.SameKinds dom') : site.Stands start dom' := by
  obtain ⟨cell, now, hcell, hplace, hnow, hkind⟩ := h.node
  obtain ⟨later, hlater, hkind'⟩ := hkinds _ now hnow
  exact ⟨h.expression, cell, later, hcell, hplace, hlater, hkind'.trans hkind⟩

/-- The last site at a node that shows a key. -/
def lastOf (found : List Site) (key : String) (node : NodeId) : Option Site :=
  found.reverse.find? fun site => site.binding.node = node ∧ site.binding.expression = key

/-- A binding of a place of a node makes a site with that place. -/
theorem place_of_mem_placesAt {start : String} {node : NodeId} {cell : NodeCell} {place : Place}
    (h : place ∈ placesAt start node cell) (subscriber : SubscriberId) :
    place.node = node ∧ Site.place ⟨some cell, place.binding subscriber⟩ = place := by
  refine ⟨Compiler.node_placesAt start h, ?_⟩
  cases cell with
  | element tag attributes children =>
      obtain ⟨directive, -, rfl⟩ := List.mem_map.1 h
      rfl
  | text text =>
      obtain ⟨found, hfound, rfl⟩ := List.mem_map.1 h
      have hfind : Interpolation.find? text = some found := by simpa using hfound
      simp [Site.place, Site.shown, Place.binding, hfind]
  | comment text => cases h
  | document children => cases h

/-- What painting a site makes of its node: a text shows the value in the template that it was
bound with, and an element has only new nodes below it. -/
inductive Shows (site : Site) (value : Value) (dom dom' : Dom) : Prop
  | text {template data : String} {found : Interpolation}
      (htemplate : site.cell = some (.text template))
      (hfound : Interpolation.find? template = some found)
      (hbefore : dom.cell? site.binding.node = some (.text data))
      (hafter : dom'.cell? site.binding.node = some (.text (found.render value.display)))
  | element {tag : String} {attributes : Table String} {children nodes : List NodeId}
      (hbefore : dom.cell? site.binding.node = some (.element tag attributes children))
      (hafter : dom'.cell? site.binding.node = some (.element tag attributes nodes))
      (hnodup : nodes.Nodup)
      (hfresh : ∀ m ∈ nodes, dom.cells.size ≤ m ∧ m < dom'.cells.size)

variable {start : String} {dom : Dom} {site : Site} {found : List Site} {key : String}
  {node : NodeId}

/-- A text that was bound had an interpolation, which is what its site shows. -/
theorem Stands.of_text {data : String} (h : site.Stands start dom)
    (hnow : dom.cell? site.binding.node = some (.text data)) :
    ∃ template, site.cell = some (.text template) ∧
      Interpolation.find? template = some site.shown ∧ site.binding.mode ≠ "html" := by
  obtain ⟨cell, now, hcell, hplace, hnow', hkind⟩ := h.node
  obtain rfl := Option.some.inj (hnow.symm.trans hnow')
  cases cell with
  | text template =>
      obtain ⟨interpolation, hfind, hsame⟩ := List.mem_map.1 hplace
      have hmode : site.place.mode = "text" := by rw [← hsame]
      have hshown : site.place.shown = interpolation := by rw [← hsame]
      refine ⟨template, hcell, ?_, ?_⟩
      · rw [show site.shown = interpolation from hshown]
        simpa using hfind
      · rw [show site.binding.mode = "text" from hmode]
        decide
  | _ => simp [NodeCell.kind] at hkind

/-- What is bound is an element if it is no text. -/
theorem Stands.text_or_element (h : site.Stands start dom) :
    (∃ data, dom.cell? site.binding.node = some (.text data)) ∨
      ∃ tag attributes children,
        dom.cell? site.binding.node = some (.element tag attributes children) := by
  obtain ⟨cell, now, -, hplace, hnow, hkind⟩ := h.node
  cases cell with
  | element tag attributes children =>
      cases now with
      | element => exact .inr ⟨_, _, _, hnow⟩
      | _ => simp [NodeCell.kind] at hkind
  | text template =>
      cases now with
      | text => exact .inl ⟨_, hnow⟩
      | _ => simp [NodeCell.kind] at hkind
  | comment => cases hplace
  | document => cases hplace

theorem mem_of_lastOf (h : lastOf found key node = some site) :
    site ∈ found ∧ site.binding.node = node ∧ site.binding.expression = key := by
  have hself := List.find?_some h
  simp only [decide_eq_true_eq] at hself
  exact ⟨List.mem_reverse.1 (List.mem_of_find?_eq_some h), hself⟩

theorem exists_lastOf (h : site ∈ found) (hkey : site.binding.expression = key) :
    ∃ last, lastOf found key site.binding.node = some last :=
  Option.isSome_iff_exists.1 (List.find?_isSome.2 ⟨site, List.mem_reverse.2 h, by simp [hkey]⟩)

/-- The places of the sites that show a key. -/
def placesOf (found : List Site) (key : String) : List Place :=
  (found.map place).filter fun place => place.shown.expression = key

theorem mem_placesOf (hstands : ∀ site ∈ found, site.Stands start dom) {place : Place}
    (h : place ∈ placesOf found key) :
    ∃ site ∈ found, site.binding.expression = key ∧ place = site.place := by
  obtain ⟨hplace, hkey⟩ := List.mem_filter.1 h
  obtain ⟨site, hsite, rfl⟩ := List.mem_map.1 hplace
  exact ⟨site, hsite, (hstands site hsite).expression.symm.trans (of_decide_eq_true hkey), rfl⟩

theorem lastAt_placesOf (hstands : ∀ site ∈ found, site.Stands start dom) (node : NodeId) :
    Place.lastAt (placesOf found key) node = (lastOf found key node).map place := by
  unfold Place.lastAt placesOf lastOf
  rw [← List.filter_reverse, List.find?_filter, ← List.map_reverse, List.find?_map,
    ← List.head?_filter, ← List.head?_filter]
  congr 2
  refine List.filter_congr fun site hsite => ?_
  have hexpression := (hstands site (List.mem_reverse.1 hsite)).expression
  simp only [Function.comp_apply, place, hexpression, decide_eq_true_eq, decide_eq_decide]
  exact and_comm

/-- Painting the places of a key leaves a node alone that is not bound to the key. -/
theorem paintEach_of_unbound (hstands : ∀ site ∈ found, site.Stands start dom)
    (hnode : node < dom.cells.size)
    (h : ∀ site ∈ found, site.binding.expression = key → site.binding.node ≠ node)
    (value : Value) :
    (Place.paintEach value (placesOf found key) dom).cell? node = dom.cell? node := by
  refine Place.paintEach_of_elsewhere hnode (fun place hplace => ?_) value
  obtain ⟨site, hsite, hkey, rfl⟩ := mem_placesOf hstands hplace
  exact h site hsite hkey

/-- What it makes of a bound node goes by the last site there. -/
theorem paintEach_of_bound (hstands : ∀ site ∈ found, site.Stands start dom)
    (hlast : lastOf found key node = some site) (value : Value) :
    site.Shows value dom (Place.paintEach value (placesOf found key) dom) := by
  obtain ⟨hsite, rfl, hkey⟩ := mem_of_lastOf hlast
  have hplace : Place.lastAt (placesOf found key) site.binding.node =
      (lastOf found key site.binding.node).map place :=
    lastAt_placesOf hstands site.binding.node
  rw [hlast, Option.map_some] at hplace
  rcases (hstands site hsite).text_or_element with
    ⟨data, hnow⟩ | ⟨tag, attributes, children, hnow⟩
  · obtain ⟨template, htemplate, hfind, -⟩ := (hstands site hsite).of_text hnow
    refine .text htemplate hfind hnow ?_
    rw [Place.paintEach_of_text hnow (fun place hmem hnode => ?_), hplace]
    · rfl
    · -- Whatever else is bound at a text is an interpolation too.
      obtain ⟨other, hother, -, rfl⟩ := mem_placesOf hstands hmem
      have hsame : other.binding.node = site.binding.node := hnode
      obtain ⟨-, -, -, hmode⟩ := (hstands other hother).of_text (hsame ▸ hnow)
      exact hmode
  · obtain ⟨nodes, hafter, hnodup, hfresh⟩ := Place.paintEach_of_container hnow rfl
      ⟨site.place, (Place.mem_of_lastAt hplace).1, rfl⟩ value
    exact .element hnow hafter hnodup hfresh

end Site

namespace Compiler

open Session

variable (start : String) (forwarded : Option (List String)) (data : ObjectId) (limit : Nat)

/-- A successful visit binds the places of the sites that it finds. -/
theorem visitSite_binds {node : NodeId} {s t : Store σ} {own : List Site}
    (hrun : (standard start forwarded data).visitSite limit node s = some (.ok own, t)) :
    Binds (.over forwarded data) data (own.map Site.place) s (.ok (own.map Site.binding)) t ∧
      ∀ site ∈ own, site.Stands start t.dom := by
  rw [visitSite, inspect_bind] at hrun
  obtain ⟨bindings, u, hcompile, hlast⟩ := bind_ok.1 hrun
  obtain ⟨rfl, rfl⟩ := pure_ok.1 hlast
  cases hcell : s.dom.cell? node with
  | none =>
      rw [compileNode, inspect_bind, hcell] at hcompile
      obtain ⟨rfl, rfl⟩ := pure_ok.1 hcompile
      exact ⟨.nil (.refl _) rfl, fun _ h => absurd h List.not_mem_nil⟩
  | some cell =>
      have hbinds := binds_of_compileNode start forwarded data limit hcell hcompile
      obtain ⟨roster, hplaces, rfl, -⟩ := hbinds.enlisted
      have hown : ∀ entry ∈ roster, entry.2.node = node ∧
          Site.place ⟨some cell, entry.2.binding entry.1⟩ = entry.2 := fun entry hentry =>
        Site.place_of_mem_placesAt (hplaces ▸ List.mem_map_of_mem hentry) entry.1
      refine ⟨?_, fun site hsite => ?_⟩
      · have hmap : ((roster.map fun entry => entry.2.binding entry.1).map
            (Site.mk (some cell))).map Site.place = placesAt start node cell := by
          rw [← hplaces, List.map_map, List.map_map]
          exact List.map_congr_left fun entry hentry => (hown entry hentry).2
        have hforget : ((roster.map fun entry => entry.2.binding entry.1).map
            (Site.mk (some cell))).map Site.binding =
              roster.map fun entry => entry.2.binding entry.1 := by
          rw [List.map_map]
          exact List.map_id _
        rw [hmap, hforget]
        exact hbinds
      · obtain ⟨binding, hbinding, rfl⟩ := List.mem_map.1 hsite
        obtain ⟨entry, hentry, rfl⟩ := List.mem_map.1 hbinding
        obtain ⟨hnode, hplace⟩ := hown entry hentry
        obtain ⟨now, hnow, hkind, -⟩ := hbinds.sameHeads _ cell hcell
        refine ⟨congrArg (fun place => place.shown.expression) hplace, cell, now, rfl, ?_, ?_,
          hkind⟩
        · have hself : entry.2 ∈ placesAt start node cell :=
            hplaces ▸ List.mem_map_of_mem hentry
          rw [hplace]
          exact (congrArg (fun node => entry.2 ∈ placesAt start node cell) hnode).mpr hself
        · exact (congrArg t.dom.cell? hnode).trans hnow

/-- So does a walk. -/
theorem walk_binds {root : NodeId} {depth : Nat} {s t : Store σ} {found : List Site}
    (hrun : walk ((standard start forwarded data).visitSite limit) depth root s =
      some (.ok found, t)) :
    Binds (.over forwarded data) data (found.map Site.place) s (.ok (found.map Site.binding)) t ∧
      ∀ site ∈ found, site.Stands start t.dom := by
  refine walk_composes
    (Q := fun s found t => Binds (.over forwarded data) data (found.map Site.place) s
      (.ok (found.map Site.binding)) t ∧ ∀ site ∈ found, site.Stands start t.dom)
    (fun s => ⟨.nil (.refl s) rfl, fun _ h => absurd h List.not_mem_nil⟩) ?_
    (fun hvisit => visitSite_binds start forwarded data limit hvisit) hrun
  rintro s t u own found ⟨hfirst, hstands⟩ ⟨hlast, hstands'⟩
  rw [List.map_append, List.map_append]
  exact ⟨hfirst.append hlast, List.forall_mem_append.2
    ⟨fun site hsite => (hstands site hsite).sameKinds hlast.sameHeads.sameKinds, hstands'⟩⟩

end Compiler

/-! ## The crew over time -/

/-- What is bound is a key of the data. -/
theorem Binds.key {source : Source σ} {data : ObjectId} {places : List Place} {s t : Store σ}
    {bindings : List Binding} (h : Binds source data places s (.ok bindings) t) {place : Place}
    (hplace : place ∈ places) : ∃ field, t.field? data place.shown.expression = some field := by
  generalize hfirst : (.ok bindings : Except CompileError (List Binding)) = first at h
  induction h generalizing bindings with
  | nil => exact absurd hplace List.not_mem_nil
  | fails => cases hfirst
  | @binds head rest s t u field outcome hfield henrolled hdom hrest ih =>
      cases outcome with
      | error e => cases hfirst
      | ok others =>
          rcases List.mem_cons.1 hplace with rfl | hplace
          · obtain ⟨roster, -, -, henlisted⟩ := hrest.enlisted
            exact ⟨field, by rw [henlisted.enrolled.field?, henrolled.field?, hfield]⟩
          · exact ih hplace rfl

/-- Since then nobody has subscribed to the fields of an object, none of its keys has been defined
anew, and no node has become one of another type. -/
structure Store.Undisturbed (data : ObjectId) (s t : Store σ) : Prop where
  slots : ∀ key field, s.field? data key = some field → t.field? data key = some field
  registrations : ∀ key field, t.field? data key = some field →
    t.registrations field = s.registrations field
  kinds : s.dom.SameKinds t.dom

/-- The painters are still the only subscribers of the data if nobody else has subscribed. -/
theorem Crewed.undisturbed {source : Source σ} {data : ObjectId}
    {roster : List (SubscriberId × Place)} {s t : Store σ} (h : Crewed source data roster s)
    (hkeys : ∀ entry ∈ roster, ∃ field, s.field? data entry.2.shown.expression = some field)
    (hst : Store.Undisturbed data s t) (hidle : t.active = none) (hapart : t.Apart data)
    (hrenewed : s.Renewed t) (hsubscribers : s.subscribers.toList <+: t.subscribers.toList) :
    Crewed source data roster t where
  idle := hidle
  painters entry hentry :=
    Store.getElem?_subscribers_of_isPrefix hsubscribers (h.painters entry hentry)
  registrations key field hfield := by
    have hposted : t.postedTo data roster field = s.postedTo data roster field := by
      refine List.filter_congr fun entry hentry => ?_
      obtain ⟨slot, hslot⟩ := hkeys entry hentry
      rw [hslot, hst.slots _ slot hslot]
    obtain ⟨cell, hcell⟩ : ∃ cell, t.fields[field]? = some cell :=
      ⟨_, Array.getElem?_eq_getElem (hapart.there key field hfield)⟩
    have hregistrations := hst.registrations key field hfield
    rw [Store.registrations_of_getElem? hcell] at hregistrations
    refine ⟨cell, hcell, ?_⟩
    rw [hposted, hregistrations]
    cases hslot : s.field? data key with
    | some first =>
        obtain rfl := Option.some.inj ((hst.slots key first hslot).symm.trans hfield)
        obtain ⟨before, hbefore, hsame⟩ := h.registrations key first hslot
        rw [← hsame, Store.registrations_of_getElem? hbefore]
    | none =>
        -- The field of a key that has come later is new, and bound to nothing.
        have hnew : s.fields.size ≤ field := by
          refine Nat.le_of_not_lt fun hlt => ?_
          cases hslot.symm.trans (hrenewed.slot data key field hfield hlt)
        have hnobody : s.postedTo data roster field = [] := by
          refine List.filter_eq_nil_iff.2 fun entry _ => ?_
          simp only [decide_eq_true_eq]
          intro hbound
          have hkey := hapart.unique _ key field (hst.slots _ field hbound) hfield
          cases hslot.symm.trans (hkey ▸ hbound)
        rw [hnobody, Store.registrations_of_size_le hnew]
        rfl

/-! ## Writes through a mount -/

namespace Mount

open Session

variable {options : Options} {document : NodeId} {mountLimit : Nat} {mount : Mount}
  {s s₁ s₂ : Store σ}

/-- A mount binds its sites, and the painters of their places are the only subscribers of its
data. -/
theorem create_sites (hidle : s.active = none)
    (h : create mountLimit options document id s = some (.ok mount, s₁)) :
    ∃ found u roster, sites mountLimit options document s = some (.ok found, u) ∧
      mount.bindings = found.map Site.binding ∧ roster.map Prod.snd = found.map Site.place ∧
      (∀ site ∈ found, site.Stands options.directivePrefix s₁.dom) ∧
      Crewed (.over (some mount.keys) mount.data) mount.data roster s₁ ∧ s₁.Apart mount.data ∧
      ∀ entry ∈ roster, ∃ field,
        s₁.field? mount.data entry.2.shown.expression = some field := by
  obtain ⟨found, u, v, hprepare, hsites, hbindings, hbinds, hstands⟩ :
      ∃ found u v, prepare options document s = some (.ok (mount.data, mount.keys, mount.el), v) ∧
        sites mountLimit options document s = some (.ok found, u) ∧
        mount.bindings = found.map Site.binding ∧
        Binds (.over (some mount.keys) mount.data) mount.data (found.map Site.place) v
          (.ok (found.map Site.binding)) s₁ ∧
        ∀ site ∈ found, site.Stands options.directivePrefix s₁.dom := by
    obtain ⟨v, hprepare, ⟨hel, hbindings, rfl⟩ | ⟨root, w, hel, hcompile, rfl⟩⟩ := create_ok h
    · refine ⟨[], v, v, hprepare, bind_ok.2 ⟨_, v, hprepare, ?_⟩, hbindings,
        .nil ((Store.Enrolled.report v _).trans (.report _ _)) rfl,
        fun _ h => absurd h List.not_mem_nil⟩
      simp only [hel]
      rfl
    · obtain ⟨found, u, hwalk, hbindings, rfl⟩ := Compiler.compile_ok hcompile
      obtain ⟨hbinds, hstands⟩ := Compiler.walk_binds options.directivePrefix (some mount.keys)
        mount.data mountLimit hwalk
      refine ⟨found, u, v, hprepare, bind_ok.2 ⟨_, v, hprepare, ?_⟩, hbindings,
        hbinds.followed ((Store.Enrolled.report u _).trans (.report _ _)) rfl, hstands⟩
      simp only [hel]
      exact mapError_eq_some.2 ⟨_, hwalk, rfl⟩
  obtain ⟨roster, hplaces, -, hcrewed, hapart, -⟩ := crewed_of_binds hidle hprepare hbinds
  exact ⟨found, u, roster, hsites, hbindings, hplaces, hstands, hcrewed, hapart,
    fun entry hentry => hbinds.key (hplaces ▸ List.mem_map_of_mem hentry)⟩

/-- Behind a mount, and behind whatever has happened since without subscribing anybody else to its
data, a write of a key goes through.  No other value changes.  A node that was there and is not
bound to the key is as it was, attached or not, and so is every tree of such nodes; a text bound to
the key shows the value in its template, and an element bound to it has only new nodes below it. -/
theorem set_touches_own_nodes {earlierLimit limit : Nat} {earlier : List (Operation σ)}
    (hidle : s.active = none)
    (hmount : create mountLimit options document id s = some (.ok mount, s₁))
    (hearlier : ∀ operation ∈ earlier, operation.Composed)
    (hrun : Operation.performAll earlierLimit earlier s₁ = some s₂)
    (hundisturbed : s₁.Undisturbed mount.data s₂) {key : String} {old : Value}
    (hkey : s₂.valueOf? mount.data key = some old) (value : Value) (hlimit : 0 < limit) :
    ∃ found u t, sites mountLimit options document s = some (.ok found, u) ∧
      mount.bindings = found.map Site.binding ∧
      mount.set limit key value s₂ = some (.ok .null, t) ∧
      t.objects = s₂.objects ∧ t.valueOf? mount.data key = some (old.overwrittenBy value) ∧
      (∀ field, s₂.field? mount.data key ≠ some field → t.peek field = s₂.peek field) ∧
      (∀ node < s₂.dom.cells.size,
        (∀ binding ∈ mount.bindings, binding.expression = key → binding.node ≠ node) →
          t.dom.cell? node = s₂.dom.cell? node) ∧
      (∀ depth node tree, s₂.dom.treeWithin? depth node = some tree →
        (∀ binding ∈ mount.bindings, binding.expression = key → binding.node ∉ tree.labels) →
          t.dom.treeWithin? depth node = some tree) ∧
      ∀ binding ∈ mount.bindings, binding.expression = key →
        ∃ site, Site.lastOf found key binding.node = some site ∧
          site.Shows (old.overwrittenBy value) s₂.dom t.dom := by
  obtain ⟨fuel, rfl⟩ : ∃ fuel, limit = fuel + 1 := ⟨limit - 1, by omega⟩
  obtain ⟨found, u, roster, hsites, hbindings, hplaces, hstands, hcrewed, hapart, hkeys⟩ :=
    create_sites hidle hmount
  have hapart' := Operation.performAll_keeps (Store.Apart.progress mount.data) hearlier hrun hapart
  obtain ⟨_, hsteps⟩ := Operation.performAll_keeps Store.Steps.progress hearlier hrun
  have hcrewed' := hcrewed.undisturbed hkeys hundisturbed
    ((Operation.performAll_keeps Progress.sameActive hearlier hrun).trans hcrewed.idle) hapart'
    (Operation.performAll_keeps Store.Renewed.progress hearlier hrun)
    hsteps.subscribers_isPrefix
  have hstands' : ∀ site ∈ found, site.Stands options.directivePrefix s₂.dom :=
    fun site hsite => (hstands site hsite).sameKinds hundisturbed.kinds
  obtain ⟨field, hfield, rfl⟩ := Option.map_eq_some_iff.1 hkey
  obtain ⟨t, hwrite, hwritten, -⟩ := hcrewed'.write fuel (some mount.keys) hfield value
  rw [Store.postedTo_places hapart' hfield, hplaces] at hwritten
  have hnow : t.peek field = (s₂.peek field).overwrittenBy value := by
    rw [hwritten.peek, Function.update_self]
    rfl
  have hdom : t.dom = Place.paintEach ((s₂.peek field).overwrittenBy value)
      (Site.placesOf found key) s₂.dom := hnow ▸ hwritten.dom
  have hcells (node : NodeId) (hnode : node < s₂.dom.cells.size)
      (h : ∀ binding ∈ mount.bindings, binding.expression = key → binding.node ≠ node) :
      t.dom.cell? node = s₂.dom.cell? node := by
    rw [hbindings, List.forall_mem_map] at h
    rw [hdom]
    exact Site.paintEach_of_unbound hstands' hnode h _
  refine ⟨found, u, t, hsites, hbindings, mapError_eq_some.2 ⟨_, hwrite, rfl⟩, hwritten.objects,
    ?_, fun other hother => ?_, hcells, fun depth node tree htree h => ?_,
    fun binding hbinding hexpression => ?_⟩
  · rw [Store.valueOf?, Store.field?_congr hwritten.objects, hfield, Option.map_some, hnow]
  · rw [hwritten.peek, Function.update_of_ne]
    rintro rfl
    exact hother hfield
  · refine Dom.treeWithin?_congr htree fun m hm => hcells m ((Dom.listed_tree htree).1.there m hm)
      fun binding hbinding hexpression hnode => ?_
    exact h binding hbinding hexpression (hnode ▸ hm)
  · rw [hbindings] at hbinding
    obtain ⟨bound, hbound, rfl⟩ := List.mem_map.1 hbinding
    obtain ⟨site, hlast⟩ := Site.exists_lastOf hbound hexpression
    refine ⟨site, hlast, ?_⟩
    rw [hdom]
    exact Site.paintEach_of_bound hstands' hlast _

/-- The nodes of the first markup have left the document when another key is written: the text that
shows the key is painted where it is, and the element in the document stays as it was. -/
theorem set_touches_own_nodes_framed :
    ∃ mount s₁ s₂ t, create 9 framedOptions 0 id framed = some (.ok mount, s₁) ∧
      mount.bindings.map (fun binding => (binding.node, binding.expression)) =
        [(2, "page"), (3, "name"), (4, "name")] ∧
      Operation.performAll 9 [.write mount.source "page" (.string "<i>x</i>")] s₁ = some s₂ ∧
      s₂.dom.childrenOf 2 = [7] ∧ mount.set 9 "name" (.string "B") s₂ = some (.ok .null, t) ∧
      t.dom.cell? 4 = some (.text "B") ∧ t.dom.cell? 2 = s₂.dom.cell? 2 := by
  have hall : (create 9 framedOptions 0 id framed).bind (fun
      | (.ok mount, s₁) =>
          (Operation.performAll 9 [.write mount.source "page" (.string "<i>x</i>")] s₁).map
            fun s₂ => (mount.bindings.map fun binding => (binding.node, binding.expression),
              s₂.dom.childrenOf 2, s₂.dom.cell? 4,
              decide (((s₂.valueOf? mount.data "name").map fun old =>
                  (old.overwrittenBy (.string "B")).display) = some "B" ∧
                s₂.fieldsOf mount.data = s₁.fieldsOf mount.data ∧
                (∀ entry ∈ s₁.fieldsOf mount.data,
                  s₂.registrations entry.2 = s₁.registrations entry.2) ∧
                ∀ m < s₁.dom.cells.size, (s₂.dom.cell? m).map NodeCell.kind =
                  (s₁.dom.cell? m).map NodeCell.kind))
      | (.error _, _) => none) =
        some ([(2, "page"), (3, "name"), (4, "name")], [7], some (.text "A"), true) := by
    decide +kernel
  have hsite : (sites 9 framedOptions 0 framed).bind (fun
      | (.ok found, _) => Site.lastOf found "name" 4
      | (.error _, _) => none) =
        some ⟨some (.text "\x7b\x7bname\x7d\x7d"), 4, "name", "text", 2⟩ := by decide +kernel
  obtain ⟨⟨outcome, s₁⟩, hmount, hall⟩ := Option.bind_eq_some_iff.1 hall
  cases outcome with
  | error e => cases hall
  | ok mount =>
      obtain ⟨s₂, hwritten, hall⟩ := Option.map_eq_some_iff.1 hall
      obtain ⟨hbindings, hall⟩ := Prod.mk.inj hall
      obtain ⟨hchildren, hall⟩ := Prod.mk.inj hall
      obtain ⟨htext, hall⟩ := Prod.mk.inj hall
      obtain ⟨hkey, hfields, hregistrations, hkinds⟩ := of_decide_eq_true hall
      obtain ⟨old, hkey, hshown⟩ := Option.map_eq_some_iff.1 hkey
      have hslots (key : String) : s₂.field? mount.data key = s₁.field? mount.data key := by
        unfold Store.field?
        rw [hfields]
      have hundisturbed : s₁.Undisturbed mount.data s₂ := by
        refine ⟨fun key field hfield => (hslots key).trans hfield, fun key field hfield => ?_,
          fun m cell hcell => ?_⟩
        · exact hregistrations (key, field) (Table.mem_of_find? ((hslots key).symm.trans hfield))
        · have hkind := hkinds m (Dom.lt_size_of_cell? hcell)
          rw [hcell] at hkind
          exact Option.map_eq_some_iff.1 hkind
      have hcomposed : ∀ operation ∈ [Operation.write (mount.source : Source Unit) "page"
          (.string "<i>x</i>")], operation.Composed := by
        intro operation h
        rw [List.mem_singleton.1 h]
        trivial
      obtain ⟨found, u, t, hsites, -, hset, -, -, -, hkept, -, hshows⟩ :=
        set_touches_own_nodes rfl hmount hcomposed hwritten hundisturbed hkey (.string "B")
          (show 0 < 9 by decide)
      rw [hsites] at hsite
      refine ⟨mount, s₁, s₂, t, hmount, hbindings, hwritten, hchildren, hset, ?_, ?_⟩
      · have hbound : (4, "name") ∈ mount.bindings.map fun binding =>
            (binding.node, binding.expression) := by
          rw [hbindings]
          decide
        obtain ⟨binding, hbinding, hsame⟩ := List.mem_map.1 hbound
        obtain ⟨hnode, hexpression⟩ := Prod.mk.inj hsame
        obtain ⟨site, hlast, hshow⟩ := hshows binding hbinding hexpression
        rw [hnode] at hlast
        obtain rfl := Option.some.inj (hlast.symm.trans hsite)
        cases hshow with
        | text htemplate hfound hbefore hafter =>
            obtain rfl := NodeCell.text.inj (Option.some.inj htemplate)
            obtain rfl : _ = (⟨"name", "", ""⟩ : Interpolation) :=
              Option.some.inj (hfound.symm.trans (by decide +kernel))
            rw [hafter, Interpolation.render, hshown]
            decide +kernel
        | element hbefore => cases htext.symm.trans hbefore
      · refine hkept 2 (Nat.lt_of_not_le fun hle => ?_) fun binding hbinding hexpression hnode => ?_
        · have hnone : s₂.dom.cell? 2 = none := Array.getElem?_eq_none_iff.2 hle
          rw [Dom.childrenOf, hnone] at hchildren
          cases hchildren
        · have hmem := List.mem_map_of_mem (f := fun binding : Binding =>
            (binding.node, binding.expression)) hbinding
          rw [hbindings, hexpression, hnode] at hmem
          exact absurd hmem (by decide)

end Mount

end LiveTemplate
