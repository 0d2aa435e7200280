import LiveTemplate.Proofs.Dom.Footprint
import LiveTemplate.Proofs.Spot.Basic

/-!
# Binding a node

A binding paints its node with the present value, and then constructs the subscriber that repaints
the node.  It leaves every bound text of another node as it is; if its own node is a text, then that
text is bound afterwards, and up to date.
-/

namespace LiveTemplate

variable {σ : Type}

namespace Engine

theorem noted_eq (s : Store σ) (forwarded : List String) (key : String) :
    let u := noted s forwarded key
    u.objects = s.objects ∧ u.fields = s.fields ∧ u.dom = s.dom ∧ u.subscribers = s.subscribers ∧
      u.active = s.active := by
  unfold noted
  split <;> exact ⟨rfl, rfl, rfl, rfl, rfl⟩

/-- A tracked read changes neither objects nor nodes, subscribers and the slot. -/
theorem sighted_eq (s : Store σ) (forwarded : List String) (key : String) (field : FieldId) :
    let u := (sighted s forwarded key field).1
    u.objects = s.objects ∧ u.dom = s.dom ∧ u.subscribers = s.subscribers ∧
      u.active = s.active := by
  obtain ⟨hobjects, -, hdom, hsubscribers, hactive⟩ := noted_eq s forwarded key
  unfold sighted Store.get Store.track
  dsimp only
  split <;> exact ⟨hobjects, hdom, hsubscribers, hactive⟩

theorem sighted_field {s : Store σ} {field : FieldId} {cell : FieldCell}
    (h : s.fields[field]? = some cell) (forwarded : List String) (key : String) :
    ∃ later, (sighted s forwarded key field).1.fields[field]? = some later ∧
      later.value = cell.value ∧ later.policy = cell.policy ∧
      ∀ subscriber, s.active = some subscriber → subscriber ∈ later.registrations := by
  obtain ⟨-, hfields, -, -, hactive⟩ := noted_eq s forwarded key
  have hnoted : (noted s forwarded key).fields[field]? = some cell := by
    rw [hfields]
    exact h
  obtain ⟨later, hlater, hvalue, hpolicy, -, hmem⟩ := Store.get_field _ field hnoted
  exact ⟨later, hlater, hvalue, hpolicy, fun subscriber hslot =>
    hmem rfl subscriber (hactive.trans hslot)⟩

end Engine

namespace Compiler

open Session Engine

/-- The store after a node has been painted for the first time. -/
def paintedStore (s : Store σ) (keys : List String) (expression mode : String) (field : FieldId)
    (change : Value → Dom → Dom) : Store σ :=
  painted (s.report (.bound expression mode true)) keys expression field change

/-- The store after a node has been bound, given what the paint does to the nodes. -/
def boundStore (s : Store σ) (keys : List String) (data : ObjectId) (expression mode : String)
    (repaint : Value → Routine σ) (field : FieldId) (change : Value → Dom → Dom) : Store σ :=
  let u := paintedStore s keys expression mode field change
  let v := (u.subscribe ⟨expression, .forwarding keys data, repaint⟩).withActive
    (some u.subscribers.size)
  ((sighted v keys expression field).1.withActive u.active).report (.created expression)

/-- The first paint leaves everything but the nodes, registrations and the journal alone. -/
theorem paintedStore_eq (s : Store σ) (keys : List String) (expression mode : String)
    (field : FieldId) (change : Value → Dom → Dom) :
    let u := paintedStore s keys expression mode field change
    u.objects = s.objects ∧ u.subscribers = s.subscribers ∧ u.active = s.active ∧
      u.dom = change (u.peek field) s.dom := by
  obtain ⟨hobjects, hdom, hsubscribers, hactive⟩ :=
    sighted_eq (s.report (.bound expression mode true)) keys expression field
  refine ⟨hobjects, hsubscribers, hactive, ?_⟩
  show change _ (sighted (s.report (.bound expression mode true)) keys expression field).1.dom = _
  rw [hdom]
  rfl

theorem bindWith_ok {compiler : Compiler σ} {limit : Nat} {update : Updater σ} {node : NodeId}
    {expression mode : String} {keys : List String} {data : ObjectId}
    {change : Value → Dom → Dom} {binding : Binding} {s t : Store σ}
    (hsource : compiler.source = .forwarding keys data)
    (hupdate : update node = fun value => .edit (change value))
    (h : compiler.bindWith limit (some update) node expression mode s = some (.ok binding, t)) :
    ∃ field, s.field? data expression = some field ∧
      binding = ⟨node, expression, mode, s.subscribers.size⟩ ∧
      t = boundStore s keys data expression mode (update node) field change := by
  unfold bindWith at h
  rw [report_bind] at h
  obtain ⟨_, u, hpaint, h⟩ := bind_ok.1 h
  obtain ⟨subscriber, w, hwatch, h⟩ := bind_ok.1 h
  obtain ⟨rfl, rfl⟩ := pure_ok.1 h
  obtain ⟨first, hpaint, hfirst⟩ := mapError_eq_some.1 hpaint
  obtain ⟨second, hwatch, hsecond⟩ := mapError_eq_some.1 hwatch
  dsimp only at hpaint hwatch
  rw [hsource, hupdate] at hpaint
  -- The first paint fails only if the data lacks the key.
  have hpainted : run limit _ _ = _ := runWith_paint keys data expression change
    (s.report (.bound expression mode true))
  have hlook : (s.report (.bound expression mode true)).field? data expression =
      s.field? data expression := rfl
  rw [hlook] at hpainted
  cases hfield : s.field? data expression with
  | none =>
      rw [hfield] at hpainted
      obtain ⟨rfl, -⟩ := Prod.mk.inj (Option.some.inj (hpaint.symm.trans hpainted))
      cases hfirst
  | some field =>
      rw [hfield] at hpainted
      obtain ⟨-, rfl⟩ := Prod.mk.inj (Option.some.inj (hpaint.symm.trans hpainted))
      obtain ⟨hobjects, hsubscribers, hactive, -⟩ :=
        paintedStore_eq s keys expression mode field change
      refine ⟨field, rfl, ?_⟩
      rw [hsource] at hwatch
      obtain ⟨value?, after, hread, hlast⟩ := construct_eq_some.1 hwatch
      -- The subscriber reads the same key once more, and objects have not changed meanwhile.
      have hforwarded : run limit _ _ = _ := runWith_read_forwarding keys data expression
        (((paintedStore s keys expression mode field change).subscribe
          ⟨expression, .forwarding keys data, update node⟩).withActive
            (some (paintedStore s keys expression mode field change).subscribers.size))
      have hagain : (((paintedStore s keys expression mode field change).subscribe
          ⟨expression, .forwarding keys data, update node⟩).withActive
            (some (paintedStore s keys expression mode field change).subscribers.size)).field? data
              expression = some field := by
        rw [← hfield]
        exact Store.field?_congr ((Store.subscribe_objects _ _).trans hobjects) data expression
      rw [hagain] at hforwarded
      obtain ⟨rfl, rfl⟩ := Prod.mk.inj (Option.some.inj (hread.symm.trans hforwarded))
      rcases hlast with ⟨_, -, rfl, rfl⟩ | ⟨_, habsurd, -⟩
      · obtain rfl := Except.ok.inj hsecond
        refine ⟨?_, rfl⟩
        exact congrArg (Binding.mk node expression mode) (congrArg Array.size hsubscribers)
      · cases habsurd

variable {s : Store σ} {keys : List String} {data : ObjectId} {expression mode : String}
  {repaint : Value → Routine σ} {field : FieldId} {change : Value → Dom → Dom}

theorem boundStore_subscribers :
    (boundStore s keys data expression mode repaint field change).subscribers =
      s.subscribers.push ⟨expression, .forwarding keys data, repaint⟩ := by
  obtain ⟨-, hsubscribers, -, -⟩ := paintedStore_eq s keys expression mode field change
  unfold boundStore
  dsimp only
  rw [← hsubscribers, ← Store.subscribe_subscribers]
  exact (sighted_eq _ keys expression field).2.2.1

theorem boundStore_objects :
    (boundStore s keys data expression mode repaint field change).objects = s.objects := by
  obtain ⟨hobjects, -, -, -⟩ := paintedStore_eq s keys expression mode field change
  rw [← hobjects]
  exact (sighted_eq _ keys expression field).1.trans (Store.subscribe_objects _ _)

theorem boundStore_dom :
    (boundStore s keys data expression mode repaint field change).dom =
      (paintedStore s keys expression mode field change).dom :=
  (sighted_eq _ keys expression field).2.1.trans (Store.subscribe_dom _ _)

/-- The value of the field does not change while a node is bound, and the new subscriber is
registered with the field. -/
theorem boundStore_field {cell : FieldCell} (hcell : s.fields[field]? = some cell) :
    ∃ later, (boundStore s keys data expression mode repaint field change).fields[field]? =
        some later ∧ later.value = (paintedStore s keys expression mode field change).peek field ∧
      later.policy = cell.policy ∧ s.subscribers.size ∈ later.registrations := by
  obtain ⟨-, hsubscribers, -, -⟩ := paintedStore_eq s keys expression mode field change
  let u := paintedStore s keys expression mode field change
  let v := (u.subscribe ⟨expression, .forwarding keys data, repaint⟩).withActive
    (some u.subscribers.size)
  have hreported : (s.report (.bound expression mode true)).fields[field]? = some cell := hcell
  obtain ⟨first, hfirst, -, hpolicy, -⟩ := sighted_field hreported keys expression
  have hpainted : u.fields[field]? = some first := hfirst
  have hentered : v.fields[field]? = some first := by
    rw [← hpainted]
    exact congrArg (fun fields => fields[field]?) (Store.subscribe_fields u _)
  obtain ⟨later, hlater, hvalue, hpolicy', hmem⟩ := sighted_field hentered keys expression
  refine ⟨later, hlater, ?_, hpolicy'.trans hpolicy, ?_⟩
  · rw [hvalue, Store.peek, hpainted]
    rfl
  · rw [← hsubscribers]
    exact hmem _ rfl

end Compiler

/-! ## Texts that are bound already, and the text that is bound now -/

namespace Spot

open Compiler Engine

variable {spot : Spot} {s : Store σ} {keys : List String} {data : ObjectId}
  {expression mode : String} {node : NodeId} {repaint : Value → Routine σ} {field : FieldId}
  {change : Value → Dom → Dom}

/-- A change of another node spares the text. -/
theorem spares_edit (hnode : spot.node ≠ node)
    (hchange : ∀ value dom, Dom.Reworked node dom (change value dom)) (value : Value) :
    spot.Spares (.edit (change value) : Request σ) := by
  intro dom text htext
  rw [(hchange value dom).others spot.node hnode (Dom.lt_size_of_cell? htext)]
  exact htext

/-- A subscriber that repaints another node spares the text. -/
theorem only_spares (hnode : spot.node ≠ node)
    (hchange : ∀ value dom, Dom.Reworked node dom (change value dom))
    (hrepaint : repaint = fun value => .edit (change value)) :
    (⟨expression, .forwarding keys data, repaint⟩ : Subscriber σ).Only spot.Spares := by
  refine ⟨(Source.only_read_forwarding keys data expression).mono fun r hr => ?_, fun value => ?_⟩
  · cases r with
    | field object key => trivial
    | get field => trivial
    | report event => trivial
    | _ => exact hr.elim
  · rw [hrepaint]
    exact ⟨spares_edit hnode hchange value, fun _ => trivial⟩

/-- Binding another node leaves a bound text as it is. -/
theorem kept_boundStore (hbound : spot.Bound s) (hfresh : spot.Fresh s) (hnode : spot.node ≠ node)
    (hchange : ∀ value dom, Dom.Reworked node dom (change value dom))
    (hrepaint : repaint = fun value => .edit (change value)) :
    spot.Bound (boundStore s keys data expression mode repaint field change) ∧
      spot.Fresh (boundStore s keys data expression mode repaint field change) := by
  have hpainted : spot.Kept s (paintedStore s keys expression mode field change) := by
    have hreport : spot.Kept s (s.report (.bound expression mode true)) := .of_eq rfl rfl rfl rfl
    exact (hreport.trans (.sighted _ keys expression field)).trans
      (.edit (spares_edit (σ := σ) hnode hchange _) _)
  have hcell : (⟨expression, .forwarding keys data, repaint⟩ : Subscriber σ).Only spot.Spares :=
    only_spares hnode hchange hrepaint
  have hbound' := (hbound.kept hpainted).subscribe hcell
  have hfresh' := (hfresh.kept hbound hpainted).subscribe
    ⟨expression, .forwarding keys data, repaint⟩
  -- Behind the construction there is only the tracked read of the new subscriber.
  have hread : spot.Kept ((paintedStore s keys expression mode field change).subscribe
      ⟨expression, .forwarding keys data, repaint⟩)
      (boundStore s keys data expression mode repaint field change) := by
    refine Kept.trans ?_ ((Kept.sighted _ keys expression field).trans (.of_eq rfl rfl rfl rfl))
    exact .of_eq rfl rfl rfl rfl
  exact ⟨hbound'.kept hread, hfresh'.kept hbound' hread⟩

/-- Binding a text to a key of the data binds it, and leaves it up to date. -/
theorem bound_boundStore (mode : String)
    (hlookup : s.field? spot.data spot.shown.expression = some spot.field)
    (hpolicy : ∃ cell, s.fields[spot.field]? = some cell ∧ cell.policy = spot.policy)
    (hsubscriber : spot.subscriber = s.subscribers.size)
    (htext : ∃ text, s.dom.cell? spot.node = some (.text text))
    (hothers : ∀ cell ∈ s.subscribers, cell.Only spot.Spares) :
    let t := boundStore s spot.keys spot.data spot.shown.expression mode
      (Updater.within spot.shown.before spot.shown.after Updater.text spot.node) spot.field
      fun value dom => dom.setText spot.node (spot.shown.render value.display)
    spot.Bound t ∧ spot.Fresh t := by
  intro t
  obtain ⟨cell, hcell, hsame⟩ := hpolicy
  obtain ⟨later, hlater, hvalue, hkept, hmem⟩ : ∃ later, t.fields[spot.field]? = some later ∧ _ :=
    boundStore_field hcell
  have hsubscribers : t.subscribers = s.subscribers.push spot.cell := boundStore_subscribers
  have hdom : t.dom.cell? spot.node =
      some (.text (spot.shown.render (t.peek spot.field).display)) := by
    obtain ⟨text, htext⟩ := htext
    have hpeek : t.peek spot.field = later.value := by
      unfold Store.peek
      rw [hlater]
      rfl
    have hnodes : t.dom = _ :=
      boundStore_dom.trans
        (paintedStore_eq s spot.keys spot.shown.expression mode spot.field _).2.2.2
    rw [hpeek, hvalue, hnodes]
    exact cell?_setText_self htext _
  refine ⟨⟨?_, ⟨later, hlater, hkept.trans hsame, hsubscriber ▸ hmem⟩, ?_, ⟨_, hdom⟩, ?_⟩, hdom⟩
  · rw [Store.field?_congr boundStore_objects]
    exact hlookup
  · rw [hsubscribers, hsubscriber]
    exact Array.getElem?_push_size
  · intro i other hi hother
    rw [hsubscribers, Array.getElem?_push, if_neg (fun h => hi (h.trans hsubscriber.symm))]
      at hother
    exact hothers other (Array.mem_of_getElem? hother)

end Spot

end LiveTemplate
