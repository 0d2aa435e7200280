import LiveTemplate.Proofs.Interface
import LiveTemplate.Proofs.Template.Binding
import LiveTemplate.Proofs.Template.Walk

/-!
# What a walk binds

A site is a binding with the node as it was when it was bound.  The chart of a walk says, for the
part walked so far, that each text site is bound to its key and up to date, and that no subscriber
touches a node that is still to be visited.  Each visit keeps the chart, and so the whole walk does.
-/

namespace LiveTemplate

variable {σ : Type}

/-- A binding, with the content of its node when the node was visited. -/
structure Site where
  cell : Option NodeCell
  binding : Binding
deriving DecidableEq, Repr

namespace Compiler

open Session Engine

/-- Compile a node without what is below it, and remember how the node was. -/
def visitSite (compiler : Compiler σ) (limit : Nat) (node : NodeId) :
    Session σ CompileError (List Site) := do
  let cell ← Session.inspect fun s => s.dom.cell? node
  let bindings ← compiler.compileNode limit node
  pure (bindings.map (Site.mk cell))

theorem forEach_map {α β : Type} {f : α → β} {visit : NodeId → Session σ CompileError (List β)}
    {visit' : NodeId → Session σ CompileError (List α)}
    (h : ∀ node, visit node = List.map f <$> visit' node) (nodes : List NodeId) :
    forEach visit nodes = List.map f <$> forEach visit' nodes := by
  induction nodes with
  | nil => rfl
  | cons node rest ih =>
      simp only [forEach, h, ih, bind_map_left, map_bind, map_pure, List.map_append]

/-- A walk whose visits find images finds the images. -/
theorem walk_map {α β : Type} {f : α → β} {visit : NodeId → Session σ CompileError (List β)}
    {visit' : NodeId → Session σ CompileError (List α)}
    (h : ∀ node, visit node = List.map f <$> visit' node) (depth : Nat) (node : NodeId) :
    walk visit depth node = List.map f <$> walk visit' depth node := by
  induction depth generalizing node with
  | zero => rfl
  | succ depth ih =>
      simp only [walk, map_bind]
      refine bind_congr fun children => forEach_map (fun child => ?_) children
      simp only [h, ih, bind_map_left, map_bind, map_pure, List.map_append]

theorem compileNode_eq_map (compiler : Compiler σ) (limit : Nat) (node : NodeId) :
    compiler.compileNode limit node = List.map Site.binding <$> compiler.visitSite limit node := by
  have hforget (cell : Option NodeCell) (bindings : List Binding) :
      (bindings.map (Site.mk cell)).map Site.binding = bindings := by
    rw [List.map_map]
    exact List.map_id bindings
  simp only [visitSite, map_bind, map_pure, hforget, bind_pure]
  rfl

/-- Compiling binds the sites that a walk with the same visits finds. -/
theorem compile_ok {compiler : Compiler σ} {limit : Nat} {root : NodeId} {bindings : List Binding}
    {s t : Store σ} (h : compiler.compile limit root s = some (.ok bindings, t)) :
    ∃ found u, walk (compiler.visitSite limit) limit root s = some (.ok found, u) ∧
      bindings = found.map Site.binding ∧ t = u.report (.compiled bindings.length) := by
  obtain ⟨all, u, hwalk, h⟩ := bind_ok.1 h
  rw [report_bind] at h
  obtain ⟨rfl, rfl⟩ := pure_ok.1 h
  rw [walk_map (compiler.compileNode_eq_map limit), map_eq_bind] at hwalk
  obtain ⟨found, v, hfound, hlast⟩ := bind_ok.1 hwalk
  obtain ⟨rfl, rfl⟩ := pure_ok.1 hlast
  exact ⟨found, _, hfound, rfl, rfl⟩

/-! ## The chart of a walk -/

/-- What holds of the store when a part of a tree has been walked.  Texts count whose key is among
the bound ones; nodes that are touched already are left out of what later visits rely on. -/
structure Charted (data : ObjectId) (policy : NotifyPolicy) (isBound : String → Prop)
    (visited touched : List NodeId) (sites : List Site) (s : Store σ) : Prop where
  uniform : s.Uniform data policy
  spared : ∀ spot : Spot, spot.data = data → isBound spot.shown.expression →
    spot.node ∉ touched → ∀ cell ∈ s.subscribers, cell.Only spot.Spares
  texts : ∀ site ∈ sites, ∀ text, site.cell = some (.text text) → isBound site.binding.expression →
    ∃ spot : Spot, spot.data = data ∧ spot.policy = policy ∧ spot.node = site.binding.node ∧
      spot.shown.expression = site.binding.expression ∧
      Interpolation.find? text = some spot.shown ∧ spot.node ∈ visited ∧
      spot.Bound s ∧ spot.Fresh s

namespace Charted

variable {data : ObjectId} {policy : NotifyPolicy} {isBound : String → Prop}
  {visited touched : List NodeId} {sites : List Site} {s : Store σ} {node : NodeId}

theorem report (h : Charted data policy isBound visited touched sites s) (event : Event) :
    Charted data policy isBound visited touched sites (s.report event) where
  uniform := (Store.Uniform.progress data policy).report s event h.uniform
  spared := h.spared
  texts site hsite text htext hbound := by
    obtain ⟨spot, hdata, hpolicy, hnode, hkey, hfind, hvisited, hb, hf⟩ :=
      h.texts site hsite text htext hbound
    exact ⟨spot, hdata, hpolicy, hnode, hkey, hfind, hvisited, hb.report event, hf⟩

/-- The visit of a node begins. -/
theorem enter (h : Charted data policy isBound visited visited sites s) (node : NodeId) :
    Charted data policy isBound visited (node :: visited) sites s where
  uniform := h.uniform
  spared spot hdata hbound hnode := h.spared spot hdata hbound fun hmem =>
    hnode (List.mem_cons_of_mem node hmem)
  texts := h.texts

/-- The visit of a node ends; it has found no text. -/
theorem leave (h : Charted data policy isBound visited (node :: visited) sites s)
    {out : List Site} (hout : ∀ site ∈ out, ∀ text, site.cell ≠ some (.text text)) :
    Charted data policy isBound (node :: visited) (node :: visited) (sites ++ out) s where
  uniform := h.uniform
  spared := h.spared
  texts site hsite text htext hbound := by
    rcases List.mem_append.1 hsite with hold | hnew
    · obtain ⟨spot, hdata, hpolicy, hnode, hkey, hfind, hvisited, hb, hf⟩ :=
        h.texts site hold text htext hbound
      exact ⟨spot, hdata, hpolicy, hnode, hkey, hfind, List.mem_cons_of_mem node hvisited, hb, hf⟩
    · exact absurd htext (hout site hnew text)

variable {compiler : Compiler σ} {limit : Nat} {update : Updater σ} {keys : List String}
  {change : Value → Dom → Dom} {expression mode : String} {binding : Binding} {t : Store σ}

/-- A binding of the node that is visited touches neither the texts bound before nor the nodes
still to be visited. -/
theorem bindWith (h : Charted data policy isBound visited touched sites s)
    (hvisited : node ∉ visited) (htouched : node ∈ touched)
    (hsource : compiler.source = .forwarding keys data)
    (hupdate : update node = fun value => .edit (change value))
    (hchange : ∀ value dom, Dom.Reworked node dom (change value dom))
    (hrun : compiler.bindWith limit (some update) node expression mode s = some (.ok binding, t)) :
    Charted data policy isBound visited touched sites t ∧ s.dom.Reworked node t.dom := by
  have huniform := (bindWith_composed compiler limit (some update) node expression mode).keeps
    (Store.Uniform.progress data policy) s _ t hrun h.uniform
  obtain ⟨field, hfield, -, rfl⟩ := bindWith_ok hsource hupdate hrun
  constructor
  · refine ⟨huniform, ?_, ?_⟩
    · intro spot hdata hbound hspot cell hcell
      rw [boundStore_subscribers, Array.mem_push] at hcell
      rcases hcell with hold | rfl
      · exact h.spared spot hdata hbound hspot cell hold
      · exact Spot.only_spares (fun heq => hspot (heq ▸ htouched)) hchange hupdate
    · intro site hsite text htext hbound
      obtain ⟨spot, hdata, hpolicy, hnode, hkey, hfind, hmem, hb, hf⟩ :=
        h.texts site hsite text htext hbound
      -- A charted text is on a visited node, and this one is not visited yet.
      have hne : spot.node ≠ node := fun heq => hvisited (heq ▸ hmem)
      obtain ⟨hb', hf'⟩ := Spot.kept_boundStore hb hf hne hchange hupdate
      exact ⟨spot, hdata, hpolicy, hnode, hkey, hfind, hmem, hb', hf'⟩
  · obtain ⟨-, -, -, hdom⟩ := paintedStore_eq s keys expression mode field change
    rw [boundStore_dom, hdom]
    exact hchange _ s.dom

/-- The binding of a text that is visited adds the text to the chart. -/
theorem bindText {text : String} {found : Interpolation}
    (h : Charted data policy isBound visited visited sites s) (hvisited : node ∉ visited)
    (hsource : compiler.source = .forwarding keys data)
    (hcell : s.dom.cell? node = some (.text text)) (hfind : Interpolation.find? text = some found)
    (hrun : compiler.bindWith limit
      (some (Updater.within found.before found.after Updater.text)) node found.expression mode s =
        some (.ok binding, t)) :
    Charted data policy isBound (node :: visited) (node :: visited)
      (sites ++ [⟨some (.text text), binding⟩]) t ∧ s.dom.Reworked node t.dom := by
  let change (value : Value) (dom : Dom) : Dom := dom.setText node (found.render value.display)
  have hupdate : (Updater.within found.before found.after Updater.text node : Value → Routine σ) =
      fun value => .edit (change value) := rfl
  obtain ⟨hold, hreworked⟩ := (h.enter node).bindWith hvisited List.mem_cons_self hsource hupdate
    (fun value dom => .setText dom node _) hrun
  -- The texts bound before stay in the chart; the new one is added by hand below.
  have hleft : Charted data policy isBound (node :: visited) (node :: visited) (sites ++ []) t :=
    hold.leave fun site hsite => absurd hsite List.not_mem_nil
  rw [List.append_nil] at hleft
  refine ⟨⟨hleft.uniform, hleft.spared, ?_⟩, hreworked⟩
  intro site hsite text' htext hbound
  rcases List.mem_append.1 hsite with hsite | hsite
  · exact hleft.texts site hsite text' htext hbound
  · obtain rfl := List.mem_singleton.1 hsite
    obtain rfl := NodeCell.text.inj (Option.some.inj htext)
    obtain ⟨field, hfield, rfl, rfl⟩ := bindWith_ok hsource hupdate hrun
    let spot : Spot := ⟨data, keys, policy, node, found, field, s.subscribers.size⟩
    have hspot : spot.Bound _ ∧ spot.Fresh _ := Spot.bound_boundStore mode hfield
      (h.uniform.fields found.expression field hfield) rfl ⟨text, hcell⟩
      (h.spared spot rfl hbound hvisited)
    exact ⟨spot, rfl, rfl, rfl, rfl, hfind, List.mem_cons_self, hspot.1, hspot.2⟩

end Charted

variable {data : ObjectId} {policy : NotifyPolicy} {isBound : String → Prop}
  {visited touched : List NodeId} {sites : List Site} {node : NodeId} {keys : List String}
  {compiler : Compiler σ} {limit : Nat} {s t : Store σ}

/-- The compiler has the default directives and updaters, and reads a data object. -/
structure Default (compiler : Compiler σ) (data : ObjectId) (keys : List String) : Prop where
  source : compiler.source = .forwarding keys data
  directives : compiler.directives = Directive.defaults
  updaters : compiler.updaters = Updater.defaults

/-- The default updaters change their own node, and hang new nodes below it. -/
theorem find?_defaults {mode : String} {update : Updater σ}
    (h : Table.find? Updater.defaults mode = some update) (node : NodeId) :
    ∃ change : Value → Dom → Dom, update node = (fun value => .edit (change value)) ∧
      ∀ value dom, Dom.Reworked node dom (change value dom) := by
  simp only [Updater.defaults, Table.find?] at h
  split at h
  · obtain rfl := Option.some.inj h
    exact ⟨fun value dom => dom.setText node value.display, rfl,
      fun value dom => .setText dom node _⟩
  · split at h
    · obtain rfl := Option.some.inj h
      exact ⟨fun value dom => dom.setMarkup node value.display, rfl,
        fun value dom => .setMarkup dom node _⟩
    · cases h

/-- A default directive binds the node in a mode that has a default updater. -/
theorem directive_ok {name expression : String} {directive : Directive σ} {bind : Binder σ}
    {binding? : Option Binding}
    (h : Table.find? Directive.defaults name = some directive)
    (hrun : directive bind node expression s = some (.ok binding?, t)) :
    ∃ mode update binding, Table.find? (Updater.defaults : Table (Updater σ)) mode = some update ∧
      bind node expression mode s = some (.ok binding, t) := by
  have hmode (mode : String) (hrun : Directive.ofMode mode bind node expression s =
      some (.ok binding?, t)) : ∃ binding, bind node expression mode s = some (.ok binding, t) := by
    unfold Directive.ofMode at hrun
    rw [map_eq_bind] at hrun
    obtain ⟨binding, u, hbind, hlast⟩ := bind_ok.1 hrun
    obtain ⟨-, rfl⟩ := pure_ok.1 hlast
    exact ⟨binding, hbind⟩
  simp only [Directive.defaults, Table.find?] at h
  split at h
  · obtain rfl := Option.some.inj h
    obtain ⟨binding, hbind⟩ := hmode "text" hrun
    exact ⟨"text", Updater.text, binding, rfl, hbind⟩
  · split at h
    · obtain rfl := Option.some.inj h
      obtain ⟨binding, hbind⟩ := hmode "html" hrun
      exact ⟨"html", Updater.html, binding, rfl, hbind⟩
    · cases h

/-- Induction on the attributes: each binds the node once more, or not at all. -/
theorem compileAttributes_charted {attributes : List (String × String)} {bindings : List Binding}
    (hcompiler : compiler.Default data keys)
    (h : Charted data policy isBound visited (node :: visited) sites s) (hvisited : node ∉ visited)
    (hrun : compiler.compileAttributes limit node attributes s = some (.ok bindings, t)) :
    Charted data policy isBound visited (node :: visited) sites t ∧ s.dom.Reworked node t.dom := by
  induction attributes generalizing s bindings with
  | nil =>
      obtain ⟨-, rfl⟩ := pure_ok.1 hrun
      exact ⟨h, .refl node _⟩
  | cons head rest ih =>
      obtain ⟨attributeName, expression⟩ := head
      unfold compileAttributes at hrun
      cases hname : compiler.directiveName? attributeName with
      | none =>
          rw [hname] at hrun
          exact ih h hrun
      | some name =>
          rw [hname] at hrun
          dsimp only at hrun
          cases hdirective : Table.find? compiler.directives name with
          | none =>
              rw [hdirective] at hrun
              dsimp only at hrun
              rw [report_bind] at hrun
              -- An unknown directive is reported and skipped.
              have hreported : Charted data policy isBound visited (node :: visited) sites
                  (s.report (.unknownDirective name)) := h.report _
              have hlast := ih hreported hrun
              exact hlast
          | some directive =>
              rw [hdirective] at hrun
              obtain ⟨binding?, u, hbind, hlater⟩ := bind_ok.1 hrun
              obtain ⟨others, v, hrest, hlast⟩ := bind_ok.1 hlater
              obtain ⟨-, rfl⟩ := pure_ok.1 hlast
              rw [hcompiler.directives] at hdirective
              obtain ⟨mode, update, binding, hupdater, hbind⟩ := directive_ok hdirective hbind
              obtain ⟨change, hupdate, hchange⟩ := find?_defaults hupdater node
              unfold Compiler.bind at hbind
              rw [hcompiler.updaters, hupdater] at hbind
              obtain ⟨hcharted, hreworked⟩ :=
                h.bindWith hvisited List.mem_cons_self hcompiler.source hupdate hchange hbind
              obtain ⟨hlast, hreworked'⟩ := ih hcharted hrest
              exact ⟨hlast, hreworked.trans hreworked'⟩

/-- A visit keeps the chart. -/
theorem visitSite_keeps (hcompiler : compiler.Default data keys) :
    KeptByVisits (compiler.visitSite limit)
      fun visited => Charted data policy isBound visited visited := by
  intro node visited sites s out t hvisited hlt h hrun
  rw [visitSite, inspect_bind] at hrun
  obtain ⟨bindings, u, hcompile, hlast⟩ := bind_ok.1 hrun
  obtain ⟨rfl, rfl⟩ := pure_ok.1 hlast
  rw [compileNode, inspect_bind] at hcompile
  -- Every node but a text with an interpolation leaves the texts of the chart as they are.
  have hleave {u : Store σ} {bindings : List Binding}
      (hentered : Charted data policy isBound visited (node :: visited) sites u)
      (htext : ∀ text, s.dom.cell? node ≠ some (.text text)) :
      Charted data policy isBound (node :: visited) (node :: visited)
        (sites ++ bindings.map (Site.mk (s.dom.cell? node))) u := by
    refine hentered.leave fun site hsite text => ?_
    obtain ⟨binding, -, rfl⟩ := List.mem_map.1 hsite
    exact htext text
  cases hcell : s.dom.cell? node with
  | none =>
      rw [hcell] at hcompile hleave
      obtain ⟨-, rfl⟩ := pure_ok.1 hcompile
      exact ⟨hleave (h.enter node) nofun, .refl node _⟩
  | some cell =>
      rw [hcell] at hcompile hleave
      cases cell with
      | element tag attributes children =>
          dsimp only at hcompile
          rw [inspect_bind, report_bind] at hcompile
          obtain ⟨hcharted, hreworked⟩ := compileAttributes_charted hcompiler
            ((h.enter node).report _) hvisited hcompile
          exact ⟨hleave hcharted nofun, hreworked⟩
      | text text =>
          unfold compileText at hcompile
          cases hfind : Interpolation.find? text with
          | none =>
              simp only [hfind] at hcompile
              obtain ⟨rfl, rfl⟩ := pure_ok.1 hcompile
              exact ⟨(h.enter node).leave nofun, .refl node _⟩
          | some found =>
              simp only [hfind] at hcompile
              rw [report_bind] at hcompile
              obtain ⟨binding, w, hbind, hlast⟩ := bind_ok.1 hcompile
              obtain ⟨rfl, rfl⟩ := pure_ok.1 hlast
              rw [hcompiler.updaters] at hbind
              exact (h.report (.text found.expression)).bindText hvisited hcompiler.source hcell
                hfind hbind
      | comment data =>
          obtain ⟨-, rfl⟩ := pure_ok.1 hcompile
          exact ⟨hleave (h.enter node) nofun, .refl node _⟩
      | document children =>
          obtain ⟨-, rfl⟩ := pure_ok.1 hcompile
          exact ⟨hleave (h.enter node) nofun, .refl node _⟩

end Compiler

end LiveTemplate
