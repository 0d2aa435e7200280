import LiveTemplate.Proofs.Dom.Planted
import LiveTemplate.Proofs.Template.Halting
import LiveTemplate.Proofs.Template.Levels

/-!
# Compiling layered markup

A walk goes on into the markup that an `html` directive has just installed, and there may be `html`
directives in it again.  So the size of a tree does not bound how deep a walk goes, and there is
data with which it never ends.  It does end where keys have ranks, and the markup of a key asks for
keys of lower rank only: installed markup may be of any depth, but it is of a lower rank than what
asked for it.
-/

namespace LiveTemplate

variable {σ : Type}

/-! ## Ranks -/

/-- The expressions of the `html` directives among attributes. -/
def installedBy (start : String) (attributes : Table String) : List String :=
  (attributes.filter fun entry => entry.1 == start ++ "html").map Prod.snd

namespace Tree

variable {ι : Type} {start : String}

/-- The expressions of the `html` directives in a tree. -/
def installs (start : String) : Tree ι → List String
  | .element _ _ attributes children => installedBy start attributes ++ installsOf children
  | .document _ children => installsOf children
  | _ => []
where
  /-- The expressions of the `html` directives in several trees. -/
  installsOf : List (Tree ι) → List String
    | [] => []
    | tree :: rest => tree.installs start ++ installsOf rest

theorem installsOf_bareForest (trees : List (Tree ι)) :
    installs.installsOf start (bare.bareForest trees) = installs.installsOf start trees := by
  refine bare.bareForest.induct
    (fun trees : List (Tree ι) =>
      installs.installsOf start (bare.bareForest trees) = installs.installsOf start trees)
    (fun tree : Tree ι => tree.bare.installs start = tree.installs start)
    ?element ?text ?comment ?document ?nil ?cons trees
  case element =>
    intro label tag attributes children ih
    rw [bare, installs, installs, ih]
  case text => exact fun _ _ => rfl
  case comment => exact fun _ _ => rfl
  case document =>
    intro label children ih
    rw [bare, installs, installs, ih]
  case nil => rfl
  case cons =>
    intro tree rest ih ihrest
    rw [bare.bareForest, installs.installsOf, installs.installsOf, ih, ihrest]

/-- A node asks for what its attributes ask for, and for what is asked for below it. -/
theorem installs_over {cell : NodeCell} {f : NodeId → Option (Tree NodeId)}
    {trees : List (Tree NodeId)} (h : cell.children.mapM f = some trees) (label : NodeId) :
    (cell.over label trees).installs start =
      installedBy start cell.attributes ++ installs.installsOf start trees := by
  cases cell with
  | element tag attributes children => rfl
  | document children => rfl
  | text data =>
      obtain rfl := Option.some.inj h
      rfl
  | comment data =>
      obtain rfl := Option.some.inj h
      rfl

end Tree

namespace Store

/-- Of the keys that the `html` directives of trees ask for, all have a rank below a bound. -/
def RanksBelow {ι : Type} (s : Store σ) (start : String) (data : ObjectId) (rank : String → Nat)
    (bound : Nat) (trees : List (Tree ι)) : Prop :=
  ∀ expression ∈ Tree.installs.installsOf start trees,
    (s.field? data expression).isSome → rank expression < bound

/-- The markup that the value of a key displays asks for keys of lower rank only. -/
def Layered (s : Store σ) (start : String) (data : ObjectId) (rank : String → Nat) : Prop :=
  ∀ key value, s.valueOf? data key = some value →
    s.RanksBelow start data rank (rank key) (Markup.parseMarkup value.display)

variable {s t : Store σ} {start : String} {data : ObjectId} {rank : String → Nat} {bound : Nat}

instance {ι : Type} (trees : List (Tree ι)) : Decidable (s.RanksBelow start data rank bound trees) :=
  inferInstanceAs (Decidable (∀ expression ∈ _, _ → _))

/-- It is enough to look at each field of the data. -/
theorem layered_of_fields (h : ∀ entry ∈ s.fieldsOf data,
    s.RanksBelow start data rank (rank entry.1)
      (Markup.parseMarkup (s.peek entry.2).display)) : s.Layered start data rank := by
  intro key value hvalue
  obtain ⟨field, hfield, rfl⟩ := Option.map_eq_some_iff.1 hvalue
  exact h (key, field) (Table.mem_of_find? hfield)

/-- What a node asks for, and what is asked for below it. -/
theorem ranksBelow_over {cell : NodeCell} {node : NodeId} {f : NodeId → Option (Tree NodeId)}
    {trees : List (Tree NodeId)} (htrees : cell.children.mapM f = some trees)
    (h : s.RanksBelow start data rank bound [cell.over node trees]) :
    (∀ expression ∈ installedBy start cell.attributes,
        (s.field? data expression).isSome → rank expression < bound) ∧
      s.RanksBelow start data rank bound trees := by
  unfold RanksBelow at h
  rw [Tree.installs.installsOf, Tree.installs.installsOf, List.append_nil,
    Tree.installs_over htrees] at h
  exact List.forall_mem_append.1 h

theorem SameData.ranksBelow {ι : Type} {trees : List (Tree ι)} (h : s.SameData t)
    (hbelow : s.RanksBelow start data rank bound trees) :
    t.RanksBelow start data rank bound trees := by
  intro expression hexpression hkey
  rw [h.field?] at hkey
  exact hbelow expression hexpression hkey

theorem SameData.layered (h : s.SameData t) (hlayered : s.Layered start data rank) :
    t.Layered start data rank := by
  intro key value hvalue
  rw [h.valueOf?] at hvalue
  exact h.ranksBelow (hlayered key value hvalue)

end Store

/-! ## What a visited element has below it -/

/-- A place in mode `html` stands for an `html` directive of its node. -/
theorem mem_installedBy {start : String} {node : NodeId} {cell : NodeCell} {place : Place}
    (hplace : place ∈ placesAt start node cell) (hmode : place.mode = "html") :
    place.shown.expression ∈ installedBy start cell.attributes := by
  cases cell with
  | element tag attributes children =>
      obtain ⟨directive, hdirective, rfl⟩ := List.mem_map.1 hplace
      obtain ⟨entry, hentry, hfound⟩ := List.mem_filterMap.1 hdirective
      unfold directive? at hfound
      split at hfound
      · obtain rfl := Option.some.inj hfound
        exact absurd hmode (show "text" ≠ "html" by decide)
      · split at hfound
        · next hname =>
            obtain rfl := Option.some.inj hfound
            exact List.mem_map.2 ⟨entry, List.mem_filter.2 ⟨hentry, by simpa using hname⟩, rfl⟩
        · cases hfound
  | text data =>
      obtain ⟨found, -, rfl⟩ := List.mem_map.1 hplace
      exact absurd hmode (show "text" ≠ "html" by decide)
  | comment data => cases hplace
  | document children => cases hplace

/-- The last of several places that have been bound is painted last. -/
theorem Binds.exists_last_paint {source : Source σ} {data : ObjectId} {places : List Place}
    {s t : Store σ} {bindings : List Binding} (h : Binds source data places s (.ok bindings) t)
    (hplaces : places ≠ []) :
    ∃ place ∈ places, ∃ value mid, s.valueOf? data place.shown.expression = some value ∧
      s.dom.SameHeads mid ∧ t.dom = place.paint value mid := by
  generalize hfirst : (.ok bindings : Except CompileError (List Binding)) = first at h
  induction h generalizing bindings with
  | nil => exact absurd rfl hplaces
  | fails => cases hfirst
  | @binds place rest s t u field outcome hfield henrolled hdom hrest ih =>
      cases outcome with
      | error e => cases hfirst
      | ok others =>
          by_cases hlast : rest = []
          · subst hlast
            refine ⟨place, List.mem_cons_self, s.peek field, s.dom, ?_, .refl s.dom,
              hrest.dom_of_nil.trans hdom⟩
            rw [Store.valueOf?, hfield]
            rfl
          · obtain ⟨last, hmem, value, mid, hvalue, hheads, hpaint⟩ := ih hlast rfl
            rw [henrolled.sameData.valueOf?] at hvalue
            have hfirst : s.dom.SameHeads t.dom := hdom ▸ place.sameHeads_paint _ _
            exact ⟨last, List.mem_cons_of_mem _ hmem, value, mid, hvalue, hfirst.trans hheads,
              hpaint⟩

namespace Compiler

open Session

variable {start : String} {forwarded : Option (List String)} {data : ObjectId} {limit : Nat}
  {s t : Store σ} {node : NodeId} {rank : String → Nat} {bound depth : Nat}

/-- Where the directives of an element have been bound, the element shows a text, or it has the
markup of the value of a key that one of its `html` directives asks for. -/
theorem filled_of_visit {tag : String} {attributes : Table String} {children : List NodeId}
    {own : List Binding} (hcell : s.dom.cell? node = some (.element tag attributes children))
    (hplaces : placesAt start node (.element tag attributes children) ≠ [])
    (hvisit : (standard start forwarded data).compileNode limit node s = some (.ok own, t)) :
    ∃ base, (∃ text, t.dom.HoldsText base text (t.dom.childrenOf node)) ∨
      ∃ expression ∈ installedBy start attributes, ∃ value,
        s.valueOf? data expression = some value ∧
          t.dom.HoldsTrees base (Markup.parseMarkup value.display) (t.dom.childrenOf node) := by
  have hbinds := binds_of_compileNode start forwarded data limit hcell hvisit
  obtain ⟨place, hplace, value, mid, hvalue, hheads, hpaint⟩ := hbinds.exists_last_paint hplaces
  obtain rfl := node_placesAt start hplace
  -- Before the last paint it is still an element, whatever is below it.
  obtain ⟨cell, hmid, hkind, -⟩ := hheads place.node _ hcell
  obtain ⟨tag', attributes', children', rfl⟩ : ∃ tag' attributes' children',
      cell = .element tag' attributes' children' := by
    cases cell with
    | element tag' attributes' children' => exact ⟨tag', attributes', children', rfl⟩
    | _ => simp [NodeCell.kind] at hkind
  rw [Place.paint, render_placesAt_element hplace] at hpaint
  refine ⟨mid.cells.size, ?_⟩
  split at hpaint
  · next hmode =>
      right
      obtain ⟨nodes, hnow, hholds⟩ := Dom.setMarkup_of_container hmid rfl value.display
      refine ⟨_, mem_installedBy hplace hmode, value, hvalue, ?_⟩
      rw [hpaint, Dom.childrenOf_of_cell? hnow]
      exact hholds
  · left
    obtain ⟨nodes, hnow, hholds⟩ := Dom.setText_of_element hmid value.display
    refine ⟨value.display, ?_⟩
    rw [hpaint, Dom.childrenOf_of_cell? hnow]
    exact hholds

/-- A walk below a node has an outcome if no more than a certain depth of the tree there is to be
walked over, and if what it asks for has ranks below a bound. -/
def EndsBelow (start : String) (forwarded : Option (List String)) (data : ObjectId) (limit : Nat)
    (rank : String → Nat) (bound depth : Nat) (σ : Type) : Prop :=
  ∀ (node : NodeId) (tree : Tree NodeId) (s : Store σ),
    s.dom.treeWithin? depth node = some tree → tree.labels.Nodup → s.Layered start data rank →
    s.RanksBelow start data rank bound tree.children →
    Ends (fun levels => walk ((standard start forwarded data).compileNode limit) levels node) s

/-- A walk over a tree leaves the data and all other nodes as they were. -/
theorem kept_of_descend {tree : Tree NodeId} {levels : Nat} {own : List Binding}
    (htree : s.dom.treeWithin? depth node = some tree) (hlabels : tree.labels.Nodup)
    (hrun : descend ((standard start forwarded data).compileNode limit) levels node s =
      some (.ok own, t)) :
    s.SameData t ∧ ∀ m < s.dom.cells.size, m ∉ tree.labels → t.dom.cell? m = s.dom.cell? m := by
  have hdistinct := Dom.distinct_of_treeWithin? htree hlabels (depth + levels)
  obtain ⟨nodes, hwalked⟩ := descend_walked compileNode_orderly
    (walk_walked compileNode_orderly levels) (Nat.le_add_left levels depth) hdistinct hrun
  obtain ⟨places, -, hbinds⟩ := hwalked.itinerary.meets
  refine ⟨hbinds.sameData, fun m hlt hm => hwalked.overhauled.others m hlt ?_⟩
  rw [Dom.footprint_of_treeWithin? htree (Nat.le_add_right depth levels)]
  exact hm

section Descending

variable (hlower : ∀ less < bound, ∀ depth,
  EndsBelow start forwarded data limit rank less depth σ)
include hlower

/-- The walk below an element with the markup of a key of lower rank.  What this markup asks for is
of lower rank still. -/
theorem markup_ends {base : Nat} {key : String} {value : Value} (hrank : rank key < bound)
    (hvalue : s.valueOf? data key = some value) (hlayered : s.Layered start data rank)
    (hdistinct : ∀ depth, s.dom.Distinct (s.dom.footprint depth node))
    (hholds : s.dom.HoldsTrees base (Markup.parseMarkup value.display) (s.dom.childrenOf node)) :
    Ends (fun levels => walk ((standard start forwarded data).compileNode limit) levels node)
      s := by
  obtain ⟨cell, hcell⟩ := Dom.exists_cell? ((hdistinct 0).2 node List.mem_cons_self)
  rw [Dom.childrenOf_of_cell? hcell] at hholds
  obtain ⟨trees, htrees, hbare, -⟩ := hholds
  have htree := Dom.treeWithin?_succ_eq_some.2 ⟨cell, trees, hcell, htrees, rfl⟩
  refine hlower (rank key) hrank _ node _ s htree ?_ hlayered ?_
  · rw [← Dom.footprint_of_treeWithin? htree (Nat.le_refl _)]
    exact (hdistinct _).1
  · unfold Store.RanksBelow
    rw [Tree.children_over htrees, ← Tree.installsOf_bareForest, hbare]
    exact hlayered key value hvalue

variable (hwalk : EndsBelow start forwarded data limit rank bound depth σ)
include hwalk

/-- The visit of a node with the walk below it.  The walk goes on into the tree that was there, or
into a text, or into markup. -/
theorem descend_ends {tree : Tree NodeId} (htree : s.dom.treeWithin? depth node = some tree)
    (hlabels : tree.labels.Nodup) (hlayered : s.Layered start data rank)
    (hbelow : s.RanksBelow start data rank bound [tree]) :
    Ends (fun levels =>
      descend ((standard start forwarded data).compileNode limit) levels node) s := by
  obtain ⟨less, rfl⟩ : ∃ less, depth = less + 1 := by
    cases depth with
    | zero => cases htree
    | succ less => exact ⟨less, rfl⟩
  obtain ⟨cell, trees, hcell, htrees, rfl⟩ := Dom.treeWithin?_succ_eq_some.1 htree
  obtain ⟨hown, hothers⟩ := Store.ranksBelow_over htrees hbelow
  by_cases hplaces : placesAt start node cell = []
  · -- The node is left alone, and so is the tree below it.
    refine (visit_ends hcell).append fun _ own t hvisit => ?_
    have hbinds := binds_of_compileNode start forwarded data limit hcell hvisit
    rw [hplaces] at hbinds
    rw [← Tree.children_over htrees] at hothers
    refine hwalk node _ t ?_ hlabels (hbinds.sameData.layered hlayered)
      (hbinds.sameData.ranksBelow hothers)
    rw [hbinds.dom_of_nil]
    exact htree
  · cases cell with
    | text data => exact text_ends hcell
    | comment data => exact absurd rfl hplaces
    | document children => exact absurd rfl hplaces
    | element tag attributes children =>
        refine (visit_ends hcell).append fun _ own t hvisit => ?_
        have hdata : s.SameData t :=
          (binds_of_compileNode start forwarded data limit hcell hvisit).sameData
        obtain ⟨hreworked, -⟩ :=
          compileNode_orderly node s _ t (Dom.lt_size_of_cell? hcell) hvisit
        -- The element holds a text now, or the markup of a value whose key has a lower rank.
        obtain ⟨base, ⟨text, hshown⟩ | ⟨key, hkey, value, hvalue, hholds⟩⟩ :=
          filled_of_visit hcell hplaces hvisit
        · exact shown_ends hshown
        · have hrank : rank key < bound := by
            obtain ⟨field, hfield, -⟩ := Option.map_eq_some_iff.1 hvalue
            exact hown key hkey (Option.isSome_of_mem hfield)
          rw [← hdata.valueOf?] at hvalue
          exact markup_ends hlower hrank hvalue (hdata.layered hlayered)
            (fun deeper => hreworked.distinct deeper
              (Dom.distinct_of_treeWithin? htree hlabels deeper)) hholds

/-- Induction on the nodes: walking over the first tree leaves the others alone. -/
theorem forEach_ends {nodes : List NodeId} {trees : List (Tree NodeId)}
    (htrees : nodes.mapM (s.dom.treeWithin? depth) = some trees)
    (hlabels : (Tree.labels.labelsOf trees).Nodup) (hlayered : s.Layered start data rank)
    (hbelow : s.RanksBelow start data rank bound trees) :
    Ends (fun levels => forEach
      (descend ((standard start forwarded data).compileNode limit) levels) nodes) s := by
  induction nodes generalizing trees s with
  | nil => exact .of_eq_some rfl
  | cons node rest ih =>
      obtain ⟨tree, later, hfirst, hrest, rfl⟩ := Dom.mapM_cons_eq_some.1 htrees
      obtain ⟨hnodup, hnodup', hapart⟩ := List.nodup_append.1 hlabels
      have hown : s.RanksBelow start data rank bound [tree] := fun expression hmem =>
        hbelow expression (List.mem_append_left _ (by simpa [Tree.installs.installsOf] using hmem))
      have hothers : s.RanksBelow start data rank bound later := fun expression hmem =>
        hbelow expression (List.mem_append_right _ hmem)
      refine (descend_ends hlower hwalk hfirst hnodup hlayered hown).append
        fun levels own t hrun => ?_
      obtain ⟨hdata, hkept⟩ := kept_of_descend hfirst hnodup hrun
      have hthere := (Dom.listed_forest (fun _ _ => Dom.listed_tree) hrest).1.there
      refine ih ?_ hnodup' (hdata.layered hlayered) (hdata.ranksBelow hothers)
      exact Dom.mapM_of_mapM hrest fun _ _ tree htree hchild =>
        Dom.treeWithin?_congr hchild fun m hm => by
          have hmem := (Tree.sublist_labelsOf htree).mem hm
          exact hkept m (hthere m hmem) fun hin => hapart m hin m hmem rfl

end Descending

/-- Induction on the ranks, and for each rank on the depth of the tree.  Markup that is installed
may be of any depth, but it asks for lower ranks. -/
theorem walk_ends (bound : Nat) :
    ∀ depth, EndsBelow start forwarded data limit rank bound depth σ := by
  induction bound using Nat.strongRecOn with
  | ind bound hlower =>
      intro depth
      induction depth with
      | zero =>
          intro node tree s htree
          cases htree
      | succ depth ih =>
          intro node tree s htree hlabels hlayered hbelow
          obtain ⟨cell, trees, hcell, htrees, rfl⟩ := Dom.treeWithin?_succ_eq_some.1 htree
          rw [Dom.labels_over htrees] at hlabels
          rw [Tree.children_over htrees] at hbelow
          refine .below ?_
          rw [Dom.childrenOf_of_cell? hcell]
          exact forEach_ends hlower ih htrees (List.nodup_cons.1 hlabels).2 hlayered hbelow

/-- Compiling below the root of a tree without repeated nodes returns, with a report or an error,
where keys have ranks and the markup of a key asks for keys of lower rank only. -/
theorem compile_returns_of_layered {root : NodeId} {tree : Tree NodeId}
    (htree : s.dom.tree? root = some tree) (hlabels : tree.labels.Nodup)
    (hlayered : s.Layered start data rank) :
    ∃ limit outcome t, ∀ more, limit ≤ more →
      (standard start forwarded data).compile more root s = some (outcome, t) := by
  let asked := (Tree.installs.installsOf start tree.children).map rank
  have hbound : s.RanksBelow start data rank (asked.max?.getD 0 + 1) tree.children :=
    fun expression hmem _ =>
      Nat.lt_succ_of_le (List.le_max?_getD_of_mem (List.mem_map_of_mem hmem))
  obtain ⟨outcome, t, levels, hwalk⟩ :=
    walk_ends (asked.max?.getD 0 + 1) s.dom.cells.size root tree s htree hlabels hlayered hbound
  have hcompile (more : Nat) (hmore : levels ≤ more) :
      walk ((standard start forwarded data).compileNode more) more root s = some (outcome, t) := by
    rw [compileNode_limit start forwarded data more 0]
    exact hwalk more hmore
  cases outcome with
  | error e =>
      exact ⟨levels, .error e, t, fun more hmore =>
        bind_eq_some.2 (.inr ⟨e, hcompile more hmore, rfl⟩)⟩
  | ok bindings =>
      exact ⟨levels, .ok bindings, t.report (.compiled bindings.length), fun more hmore =>
        bind_eq_some.2 (.inl ⟨bindings, t, hcompile more hmore, rfl⟩)⟩

/-- The markup of one key has a directive for another one, and so on, beside a text for a third. -/
def nested : Store Unit where
  dom := ⟨#[.element "div" [] [1], .element "p" [("v-text", "name"), ("v-html", "page")] [2],
    .text "old"]⟩
  objects := #[{ policy := .failFast, fields := [("page", 0), ("part", 1), ("name", 2)] }]
  fields := #[
    { key := "page", value := .string "<ul><li v-html=\"part\"></li></ul>", policy := .failFast },
    { key := "part", value := .string "<b v-html=\"name\" v-text=\"name\"></b>",
      policy := .failFast },
    { key := "name", value := .string "\x7b\x7bname\x7d\x7d", policy := .failFast }]
  shared := ()

/-- The tree is three nodes deep at first, and compiling goes down six levels. -/
theorem compile_returns_of_layered_nested :
    (∃ limit outcome t, ∀ more, limit ≤ more →
      (standard "v-" none 0).compile more 0 nested = some (outcome, t)) ∧
    (standard "v-" none 0).compile 5 0 nested = none ∧
    ((standard "v-" none 0).compile 6 0 nested).map
      (fun result => result.1.toOption.map List.length) = some (some 6) := by
  refine ⟨?_, by decide +kernel, by decide +kernel⟩
  obtain ⟨tree, htree, hlabels⟩ : ∃ tree, nested.dom.tree? 0 = some tree ∧
      tree.labels = [0, 1, 2] := ⟨_, rfl, rfl⟩
  have hlayered : nested.Layered "v-" 0 fun key =>
      if key = "page" then 2 else if key = "part" then 1 else 0 :=
    Store.layered_of_fields (by decide +kernel)
  exact compile_returns_of_layered htree (hlabels ▸ by decide) hlayered

end Compiler

end LiveTemplate
