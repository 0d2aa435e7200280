import LiveTemplate.Proofs.Template.Itinerary
import LiveTemplate.Proofs.Template.Layout

/-!
# How far a compilation gets

A walk meets the places that nodes have when it comes to them, among them those of nodes that a
directive has just put there.  It paints each place with the present value and goes on, up to the
first place whose expression is no key of the data.  There it stops: the places before are bound,
and nothing behind has been touched.
-/

namespace LiveTemplate

variable {σ : Type}

/-! ## Places on a walk -/

/-- Show each place the value of its expression, one after another.  A place whose expression has
none is passed over. -/
def Place.paintAll (value? : String → Option Value) (places : List Place) (dom : Dom) : Dom :=
  places.foldl (fun dom place =>
    ((value? place.shown.expression).map fun value => place.paint value dom).getD dom) dom

/-- A walk over nodes, in their order, meets these places.  Each node has those of the content that
the walk finds in it.  They are painted, and the walk goes on, up to the first place whose
expression has no value. -/
inductive Meets (start : String) (value? : String → Option Value) :
    List NodeId → List Place → Dom → Dom → Prop
  | nil (dom : Dom) : Meets start value? [] [] dom dom
  | passes {node : NodeId} {cell : NodeCell} {nodes : List NodeId} {places : List Place}
      {dom dom' : Dom} (hcell : dom.cell? node = some cell)
      (hvalues : ∀ place ∈ placesAt start node cell, (value? place.shown.expression).isSome)
      (hrest : Meets start value? nodes places
        (Place.paintAll value? (placesAt start node cell) dom) dom') :
    Meets start value? (node :: nodes) (placesAt start node cell ++ places) dom dom'
  | stops {node : NodeId} {cell : NodeCell} {own rest : List Place} {place : Place} {dom : Dom}
      (hcell : dom.cell? node = some cell)
      (hplaces : placesAt start node cell = own ++ place :: rest)
      (hvalues : ∀ other ∈ own, (value? other.shown.expression).isSome)
      (hmissing : value? place.shown.expression = none) :
    Meets start value? [node] (own ++ [place]) dom (Place.paintAll value? own dom)

/-- Painting places of one node changes that node only. -/
theorem Place.reworked_paintAll (value? : String → Option Value) {places : List Place}
    {node : NodeId} (hnode : ∀ place ∈ places, place.node = node) (dom : Dom) :
    Dom.Reworked node dom (paintAll value? places dom) := by
  induction places generalizing dom with
  | nil => exact .refl node dom
  | cons place rest ih =>
      obtain ⟨rfl, hrest⟩ := List.forall_mem_cons.1 hnode
      have hfirst : Dom.Reworked place.node dom
          (((value? place.shown.expression).map fun value => place.paint value dom).getD dom) := by
        cases value? place.shown.expression with
        | none => exact .refl place.node dom
        | some value => exact place.reworked_paint value dom
      exact hfirst.trans (ih hrest _)

/-! ## Binding, up to a place that stops it -/

namespace Binds

variable {source : Source σ} {data : ObjectId} {places : List Place} {s t : Store σ}

/-- When all places are bound, all expressions have values. -/
theorem valued_of_ok {bindings : List Binding}
    (h : Binds source data places s (.ok bindings) t) :
    ∀ place ∈ places, (s.valueOf? data place.shown.expression).isSome := by
  intro place hplace
  rw [Store.valueOf?, Option.isSome_map]
  exact h.keyed_of_ok place hplace

/-- Places that are all bound show the present values. -/
theorem dom_eq_paintAll {bindings : List Binding}
    (h : Binds source data places s (.ok bindings) t) :
    t.dom = Place.paintAll (s.valueOf? data) places s.dom := by
  generalize hfirst : (.ok bindings : Except CompileError (List Binding)) = first at h
  induction h generalizing bindings with
  | nil _ hdom => exact hdom
  | fails => cases hfirst
  | @binds place rest s t u field outcome hfield henrolled hdom _ ih =>
      cases outcome with
      | error e => cases hfirst
      | ok others =>
          have hvalue : s.valueOf? data place.shown.expression = some (s.peek field) := by
            rw [Store.valueOf?, hfield]
            rfl
          rw [ih rfl, funext (henrolled.sameData.valueOf? data), hdom]
          simp only [Place.paintAll, List.foldl_cons, hvalue, Option.map_some, Option.getD_some]

/-- Behind a failure, the places in front of one whose expression is no key are bound, and nothing
else. -/
theorem exists_of_error {e : CompileError} (h : Binds source data places s (.error e) t) :
    ∃ own place rest bindings, places = own ++ place :: rest ∧
      Binds source data own s (.ok bindings) t ∧
      s.field? data place.shown.expression = none ∧
      e = .bind place.shown.expression place.mode (.unknownProperty place.shown.expression) := by
  generalize hfirst : (.error e : Except CompileError (List Binding)) = first at h
  induction h with
  | nil => cases hfirst
  | @fails place rest s t hfield henrolled hdom =>
      exact ⟨[], place, rest, [], rfl, .nil henrolled hdom, hfield, Except.error.inj hfirst⟩
  | @binds place rest s t u field outcome hfield henrolled hdom _ ih =>
      cases outcome with
      | ok others => cases hfirst
      | error e' =>
          obtain ⟨own, last, later, bindings, rfl, hbinds, hmissing, he⟩ :=
            ih (congrArg Except.error (Except.error.inj hfirst))
          refine ⟨place :: own, last, later, _, rfl, .binds hfield henrolled hdom hbinds, ?_, he⟩
          rw [← henrolled.field?]
          exact hmissing

end Binds

/-! ## Compiling node by node -/

namespace Compiler

open Session

variable {start : String} {forwarded : Option (List String)} {data : ObjectId} {limit : Nat}

/-- A visit changes its own node only, whether it fails or not. -/
theorem compileNode_orderly :
    Orderly ((standard start forwarded data : Compiler σ).compileNode limit) := by
  intro node s outcome t hthere hrun
  obtain ⟨cell, hcell⟩ := Dom.exists_cell? hthere
  have hbinds := binds_of_compileNode start forwarded data limit hcell hrun
  exact ⟨hbinds.keeps_dom (.refl node) .trans fun place hplace value dom =>
      node_placesAt start hplace ▸ place.reworked_paint value dom,
    hbinds.keeps_dom (.refl node) .trans fun place hplace value dom =>
      node_placesAt start hplace ▸ place.ordered_paint value dom⟩

/-- Visits of nodes that all succeed have met the places of the nodes, and have bound them. -/
theorem Itinerary.meets {nodes : List NodeId} {s t : Store σ} {found : List Binding}
    (h : Itinerary ((standard start forwarded data).compileNode limit) nodes s (.ok found) t) :
    ∃ places, Meets start (s.valueOf? data) nodes places s.dom t.dom ∧
      Binds (.over forwarded data) data places s (.ok found) t := by
  generalize hfirst : (.ok found : Except CompileError (List Binding)) = first at h
  induction h generalizing found with
  | done s =>
      obtain rfl := Except.ok.inj hfirst
      exact ⟨[], .nil s.dom, .nil (.refl s) rfl⟩
  | fails => cases hfirst
  | @visits node rest s t u own outcome hthere hvisit _ ih =>
      cases outcome with
      | error e => cases hfirst
      | ok others =>
          obtain rfl := Except.ok.inj hfirst
          obtain ⟨cell, hcell⟩ := Dom.exists_cell? hthere
          have hbinds := binds_of_compileNode start forwarded data limit hcell hvisit
          obtain ⟨places, hmeets, hlater⟩ := ih rfl
          rw [funext (hbinds.sameData.valueOf? data), hbinds.dom_eq_paintAll] at hmeets
          exact ⟨_, .passes hcell hbinds.valued_of_ok hmeets, hbinds.append hlater⟩

/-- Visits have stopped at a place, at the last node.  They have bound the earlier places of the
nodes before it, and those places of the last node that come first.  Nodes that were there before,
and that were not visited before the last one, were found by it as they had been. -/
structure StopsAt (start : String) (source : Source σ) (data : ObjectId) (visited : List NodeId)
    (earlier own : List Place) (place : Place) (s t : Store σ) : Prop where
  meets : Meets start (s.valueOf? data) (visited ++ [place.node]) (earlier ++ own ++ [place])
    s.dom t.dom
  binds : ∃ bindings, Binds source data (earlier ++ own) s (.ok bindings) t
  missing : s.field? data place.shown.expression = none
  node_earlier : ∀ other ∈ earlier, other.node ∈ visited
  node_own : ∀ other ∈ own, other.node = place.node
  found : ∃ dom, (∀ m < s.dom.cells.size, m ∉ visited → dom.cell? m = s.dom.cell? m) ∧
    t.dom = Place.paintAll (s.valueOf? data) own dom

namespace StopsAt

variable {source : Source σ} {node : NodeId} {cell : NodeCell} {visited : List NodeId}
  {earlier own : List Place} {place : Place} {s t u : Store σ}

/-- A visit that fails stops at a place of its node. -/
theorem of_error {e : CompileError} (hcell : s.dom.cell? node = some cell)
    (hbinds : Binds source data (placesAt start node cell) s (.error e) t) :
    ∃ own place, place.node = node ∧
      e = .bind place.shown.expression place.mode (.unknownProperty place.shown.expression) ∧
      StopsAt start source data [] [] own place s t := by
  obtain ⟨own, place, rest, bindings, hplaces, hown, hmissing, he⟩ := hbinds.exists_of_error
  have hnode (other : Place) (hother : other ∈ own ++ place :: rest) : other.node = node :=
    node_placesAt start (hplaces ▸ hother)
  obtain rfl := hnode place (List.mem_append_right _ List.mem_cons_self)
  have hdom := hown.dom_eq_paintAll
  refine ⟨own, place, rfl, he, ?_, ⟨bindings, hown⟩, hmissing, fun _ h => absurd h List.not_mem_nil,
    fun other hother => hnode other (List.mem_append_left _ hother),
    ⟨s.dom, fun _ _ _ => rfl, hdom⟩⟩
  rw [hdom]
  refine .stops hcell hplaces hown.valued_of_ok ?_
  rw [Store.valueOf?, hmissing]
  rfl

/-- Visits that stop behind one that has succeeded. -/
theorem cons {found : List Binding} (h : StopsAt start source data visited earlier own place t u)
    (hcell : s.dom.cell? node = some cell)
    (hbinds : Binds source data (placesAt start node cell) s (.ok found) t)
    (hreworked : s.dom.Reworked node t.dom) :
    StopsAt start source data (node :: visited) (placesAt start node cell ++ earlier) own place s
      u where
  meets := by
    have hmeets := h.meets
    rw [funext (hbinds.sameData.valueOf? data), hbinds.dom_eq_paintAll] at hmeets
    rw [List.append_assoc, List.append_assoc, ← List.append_assoc earlier]
    exact .passes hcell hbinds.valued_of_ok hmeets
  binds := by
    obtain ⟨bindings, hlater⟩ := h.binds
    rw [List.append_assoc]
    exact ⟨found ++ bindings, hbinds.append hlater⟩
  missing := by
    rw [← hbinds.sameData.field?]
    exact h.missing
  node_earlier other hother := by
    rcases List.mem_append.1 hother with hother | hother
    · exact node_placesAt start hother ▸ List.mem_cons_self
    · exact List.mem_cons_of_mem _ (h.node_earlier other hother)
  node_own := h.node_own
  found := by
    obtain ⟨dom, hkept, hdom⟩ := h.found
    rw [funext (hbinds.sameData.valueOf? data)] at hdom
    refine ⟨dom, fun m hm hout => ?_, hdom⟩
    rw [hkept m (Nat.lt_of_lt_of_le hm hreworked.size_le) fun h => hout (List.mem_cons_of_mem _ h)]
    exact hreworked.others m (fun h => hout (h ▸ List.mem_cons_self)) hm

end StopsAt

/-- Visits that fail have stopped at a place, with the error that names its expression. -/
theorem Itinerary.stops {nodes : List NodeId} {s t : Store σ} {e : CompileError}
    (h : Itinerary ((standard start forwarded data).compileNode limit) nodes s (.error e) t) :
    ∃ visited earlier own place, nodes = visited ++ [place.node] ∧
      e = .bind place.shown.expression place.mode (.unknownProperty place.shown.expression) ∧
      StopsAt start (.over forwarded data) data visited earlier own place s t := by
  generalize hfirst : (.error e : Except CompileError (List Binding)) = first at h
  induction h with
  | done => cases hfirst
  | @fails node s t e' hthere hvisit =>
      obtain rfl := Except.error.inj hfirst
      obtain ⟨cell, hcell⟩ := Dom.exists_cell? hthere
      have hbinds := binds_of_compileNode start forwarded data limit hcell hvisit
      obtain ⟨own, place, rfl, he, hstops⟩ := StopsAt.of_error hcell hbinds
      exact ⟨[], [], own, place, rfl, he, hstops⟩
  | @visits node rest s t u found outcome hthere hvisit _ ih =>
      cases outcome with
      | ok others => cases hfirst
      | error e' =>
          obtain ⟨cell, hcell⟩ := Dom.exists_cell? hthere
          have hbinds := binds_of_compileNode start forwarded data limit hcell hvisit
          obtain ⟨visited, earlier, own, place, rfl, he, hstops⟩ :=
            ih (congrArg Except.error (Except.error.inj hfirst))
          obtain ⟨hreworked, -⟩ := compileNode_orderly node s _ t hthere hvisit
          exact ⟨node :: visited, _, own, place, rfl, he, hstops.cons hcell hbinds hreworked⟩

end Compiler

end LiveTemplate
