import LiveTemplate.Mount
import LiveTemplate.Proofs.Reactive.Fields
import LiveTemplate.Proofs.Reactive.Only
import LiveTemplate.Proofs.Reactive.Trace

/-!
# A text that follows its property

A text with an interpolation is bound to a key of the data: a subscriber that is registered with
the field of the key repaints it.  While nothing else writes the text or redefines the key, every
run that starts with the text showing the value of the field ends so, however the writes and
notifications of the run nest.  In the middle of a run the text may be out of date, but then a
notification that will reach its subscriber is still going on.
-/

namespace LiveTemplate

variable {σ α : Type}

/-- A text that shows a field, with the subscriber that repaints it. -/
structure Spot where
  /-- The data object. -/
  data : ObjectId
  /-- The keys that are forwarded to the data object without a report. -/
  keys : List String
  /-- The policy of the field. -/
  policy : NotifyPolicy
  node : NodeId
  /-- What the text showed when it was bound: the key, and the texts around its value. -/
  shown : Interpolation
  field : FieldId
  subscriber : SubscriberId

namespace Spot

/-- The subscriber that repaints the text. -/
def cell (spot : Spot) : Subscriber σ :=
  ⟨spot.shown.expression, Source.forwarding spot.keys spot.data,
    Updater.within spot.shown.before spot.shown.after Updater.text spot.node⟩

/-- The operation neither redefines the key nor writes the text. -/
def Spares (spot : Spot) : Request σ → Prop
  | .define object key _ => object = spot.data → key ≠ spot.shown.expression
  | .edit change => ∀ dom text, dom.cell? spot.node = some (.text text) →
      (change dom).cell? spot.node = some (.text text)
  | _ => True

/-- The text is bound to its field, and no other subscriber writes it or redefines the key. -/
structure Bound (spot : Spot) (s : Store σ) : Prop where
  lookup : s.field? spot.data spot.shown.expression = some spot.field
  registered : ∃ cell, s.fields[spot.field]? = some cell ∧ cell.policy = spot.policy ∧
    spot.subscriber ∈ cell.registrations
  own : s.subscribers[spot.subscriber]? = some spot.cell
  isText : ∃ text, s.dom.cell? spot.node = some (.text text)
  others : ∀ i cell, i ≠ spot.subscriber → s.subscribers[i]? = some cell → cell.Only spot.Spares

/-- The text shows the present value of the field. -/
def Fresh (spot : Spot) (s : Store σ) : Prop :=
  s.dom.cell? spot.node = some (.text (spot.shown.render (s.peek spot.field).display))

/-! ## Operations that spare the text -/

/-- Nothing has changed about the text and its field, but for further registrations. -/
structure Kept (spot : Spot) (s t : Store σ) : Prop where
  lookup : s.field? spot.data spot.shown.expression = some spot.field →
    t.field? spot.data spot.shown.expression = some spot.field
  field : ∀ cell, s.fields[spot.field]? = some cell → ∃ later, t.fields[spot.field]? = some later ∧
    later.value = cell.value ∧ later.policy = cell.policy ∧
    cell.registrations ⊆ later.registrations
  subscribers : t.subscribers = s.subscribers
  text : ∀ text, s.dom.cell? spot.node = some (.text text) →
    t.dom.cell? spot.node = some (.text text)

variable {spot : Spot} {s t u : Store σ}

namespace Kept

/-- A step that leaves objects, fields, subscribers and nodes alone. -/
theorem of_eq (hobjects : t.objects = s.objects) (hfields : t.fields = s.fields)
    (hsubscribers : t.subscribers = s.subscribers) (hdom : t.dom = s.dom) : spot.Kept s t where
  lookup h := by
    unfold Store.field? Store.fieldsOf at h ⊢
    rw [hobjects]
    exact h
  field cell h := ⟨cell, by rw [hfields]; exact h, rfl, rfl, List.Subset.refl _⟩
  subscribers := hsubscribers
  text text h := by
    rw [hdom]
    exact h

theorem refl (s : Store σ) : spot.Kept s s := of_eq rfl rfl rfl rfl

theorem trans (hst : spot.Kept s t) (htu : spot.Kept t u) : spot.Kept s u where
  lookup h := htu.lookup (hst.lookup h)
  field cell h := by
    obtain ⟨mid, hmid, hvalue, hpolicy, hregistrations⟩ := hst.field cell h
    obtain ⟨last, hlast, hvalue', hpolicy', hregistrations'⟩ := htu.field mid hmid
    exact ⟨last, hlast, hvalue'.trans hvalue, hpolicy'.trans hpolicy,
      List.Subset.trans hregistrations hregistrations'⟩
  subscribers := htu.subscribers.trans hst.subscribers
  text text h := htu.text text (hst.text text h)

theorem register (s : Store σ) (field : FieldId) (subscriber : SubscriberId) :
    spot.Kept s (s.register field subscriber) where
  lookup h := h
  field cell h := by
    obtain ⟨later, hlater, hvalue, hpolicy, hsubset, -⟩ :=
      Store.register_field s field subscriber h
    exact ⟨later, hlater, hvalue, hpolicy, hsubset⟩
  subscribers := rfl
  text _ h := h

theorem get (s : Store σ) (field : FieldId) : spot.Kept s (s.get field).1 := by
  have hreport : spot.Kept s (s.report (.gotten (s.fieldKey field))) := of_eq rfl rfl rfl rfl
  refine hreport.trans ?_
  unfold Store.get Store.track
  split
  · exact register _ _ _
  · exact refl _

theorem edit {change : Dom → Dom} (hchange : ∀ dom text,
      dom.cell? spot.node = some (.text text) → (change dom).cell? spot.node = some (.text text))
    (s : Store σ) : spot.Kept s { s with dom := change s.dom } where
  lookup h := h
  field cell h := ⟨cell, h, rfl, rfl, List.Subset.refl _⟩
  subscribers := rfl
  text text h := hchange s.dom text h

/-- A field that is there stays where it is when others are added. -/
theorem define {object : ObjectId} {key : String} (value : Value)
    (hkey : object = spot.data → key ≠ spot.shown.expression) (s : Store σ) :
    spot.Kept s (s.define object key value).1 where
  lookup h := by
    rw [Store.field?_define_of_ne s value hkey]
    exact h
  field cell h := by
    refine ⟨cell, ?_, rfl, rfl, List.Subset.refl _⟩
    rw [Store.getElem?_fields_define s object key value (Array.getElem?_eq_some_iff.1 h).1]
    exact h
  subscribers := rfl
  text _ h := h

theorem newObject (s : Store σ) (policy : NotifyPolicy) : spot.Kept s (s.newObject policy).1 where
  lookup h := by
    have hlt : spot.data < s.objects.size := Store.lt_of_field?_eq_some h
    unfold Store.field? Store.fieldsOf at h ⊢
    simp only [Store.newObject]
    rw [Array.getElem?_push_lt hlt, ← Array.getElem?_eq_getElem hlt]
    exact h
  field cell h := ⟨cell, h, rfl, rfl, List.Subset.refl _⟩
  subscribers := rfl
  text _ h := h

/-- Objects are observed into new ones, so the data object keeps its fields. -/
theorem observe (policy : NotifyPolicy) (s : Store σ) (json : Json)
    (hdata : spot.data < s.objects.size) : spot.Kept s (s.observe policy json).1 := by
  have hsize (s : Store σ) (object : ObjectId) (key : String) (value : Value) :
      (s.define object key value).1.objects.size = s.objects.size := by
    simp only [Store.define, Store.report, Store.record, Array.size_modify]
  refine (Store.observe.induct policy
    (fun s json => spot.data < s.objects.size → spot.Kept s (s.observe policy json).1 ∧
      spot.data < (s.observe policy json).1.objects.size)
    (fun s object members => spot.data < s.objects.size → object ≠ spot.data →
      spot.Kept s (s.observeMembers policy object members) ∧
        spot.data < (s.observeMembers policy object members).objects.size)
    ?null ?bool ?number ?string ?array ?object ?nil ?cons s json hdata).1
  case null => exact fun s hlt => ⟨refl s, hlt⟩
  case bool => exact fun s _ hlt => ⟨refl s, hlt⟩
  case number => exact fun s _ hlt => ⟨refl s, hlt⟩
  case string => exact fun s _ hlt => ⟨refl s, hlt⟩
  case array => exact fun s _ hlt => ⟨of_eq rfl rfl rfl rfl, hlt⟩
  case object =>
    -- The new object is made behind all others, so it is not the data object.
    intro s members t object hnew ih hlt
    obtain ⟨rfl, rfl⟩ := Prod.mk.inj hnew
    have hlater : spot.data < (s.newObject policy).1.objects.size := by
      simp only [Store.newObject, Array.size_push]
      exact Nat.lt_succ_of_lt hlt
    obtain ⟨hkept, hlast⟩ := ih hlater (Nat.ne_of_gt hlt)
    exact ⟨(newObject s policy).trans hkept, hlast⟩
  case nil => exact fun s object hlt _ => ⟨refl s, hlt⟩
  case cons =>
    intro s object key json rest t value hobserve u field hdefine ihjson ihrest hlt hobject
    rw [hobserve] at ihjson
    obtain ⟨hfirst, hmid⟩ := ihjson hlt
    have hsecond : spot.Kept t u := by
      have hkept : spot.Kept t (t.define object key value).1 :=
        define value (fun h => absurd h hobject) t
      rwa [hdefine] at hkept
    have hlater : spot.data < u.objects.size := by
      have hsame := hsize t object key value
      rw [hdefine] at hsame
      rw [hsame]
      exact hmid
    obtain ⟨hlast, hend⟩ := ihrest hlater hobject
    simp only [Store.observeMembers, hobserve, hdefine]
    exact ⟨(hfirst.trans hsecond).trans hlast, hend⟩

/-- An operation that spares the text keeps it. -/
theorem perform {r : Request σ} (hr : spot.Spares r)
    (hlookup : s.field? spot.data spot.shown.expression = some spot.field) :
    spot.Kept s (s.perform r).1 := by
  cases r with
  | get field => exact get s field
  | define object key value => exact define value hr s
  | observe json policy => exact observe policy s json (Store.lt_of_field?_eq_some hlookup)
  | register field subscriber => exact register s field subscriber
  | edit change => exact edit hr s
  | _ => exact of_eq rfl rfl rfl rfl

theorem peek (h : spot.Kept s t) (hregistered : ∃ cell, s.fields[spot.field]? = some cell) :
    t.peek spot.field = s.peek spot.field := by
  obtain ⟨cell, hcell⟩ := hregistered
  obtain ⟨later, hlater, hvalue, -⟩ := h.field cell hcell
  unfold Store.peek
  rw [hcell, hlater, Option.map_some, Option.map_some, hvalue]

end Kept

theorem Bound.kept (h : spot.Bound s) (hkept : spot.Kept s t) : spot.Bound t where
  lookup := hkept.lookup h.lookup
  registered := by
    obtain ⟨cell, hcell, hpolicy, hmem⟩ := h.registered
    obtain ⟨later, hlater, -, hsame, hsubset⟩ := hkept.field cell hcell
    exact ⟨later, hlater, hsame.trans hpolicy, hsubset hmem⟩
  own := by
    rw [hkept.subscribers]
    exact h.own
  isText := by
    obtain ⟨text, htext⟩ := h.isText
    exact ⟨text, hkept.text text htext⟩
  others := by
    rw [hkept.subscribers]
    exact h.others

theorem Bound.report (h : spot.Bound s) (event : Event) : spot.Bound (s.report event) :=
  h.kept (.of_eq rfl rfl rfl rfl)

theorem Bound.withActive (h : spot.Bound s) (subscriber : Option SubscriberId) :
    spot.Bound (s.withActive subscriber) :=
  h.kept (.of_eq rfl rfl rfl rfl)

theorem Fresh.kept (h : spot.Fresh s) (hbound : spot.Bound s) (hkept : spot.Kept s t) :
    spot.Fresh t := by
  obtain ⟨cell, hcell, -⟩ := hbound.registered
  unfold Fresh
  rw [hkept.peek ⟨cell, hcell⟩]
  exact hkept.text _ h

/-! ## Writes and new subscribers -/

theorem Bound.assign (h : spot.Bound s) (field : FieldId) (value : Value) :
    spot.Bound (s.assign field value) where
  lookup := by
    have hlookup := h.lookup
    unfold Store.field? Store.fieldsOf at hlookup ⊢
    rwa [Store.assign_objects]
  registered := by
    obtain ⟨cell, hcell, hpolicy, hmem⟩ := h.registered
    obtain ⟨later, hlater, hsame, hregistrations, -⟩ := Store.assign_field s field value hcell
    exact ⟨later, hlater, hsame.trans hpolicy, by rwa [hregistrations]⟩
  own := by
    rw [Store.assign_subscribers]
    exact h.own
  isText := by
    rw [Store.assign_dom]
    exact h.isText
  others := by
    rw [Store.assign_subscribers]
    exact h.others

theorem Fresh.assign (h : spot.Fresh s) (hbound : spot.Bound s) {field : FieldId}
    (hfield : field ≠ spot.field) (value : Value) : spot.Fresh (s.assign field value) := by
  obtain ⟨cell, hcell, -⟩ := hbound.registered
  obtain ⟨later, hlater, -, -, hvalue⟩ := Store.assign_field s field value hcell
  unfold Fresh Store.peek at h ⊢
  rw [hcell] at h
  rw [Store.assign_dom, hlater, Option.map_some, hvalue hfield]
  exact h

theorem Bound.subscribe (h : spot.Bound s) {cell : Subscriber σ} (hcell : cell.Only spot.Spares) :
    spot.Bound (s.subscribe cell) := by
  have hlt : spot.subscriber < s.subscribers.size := (Array.getElem?_eq_some_iff.1 h.own).1
  have hpushed : spot.Bound { s with subscribers := s.subscribers.push cell } := by
    refine ⟨h.lookup, h.registered, ?_, h.isText, ?_⟩
    · rw [Array.getElem?_push_lt hlt, ← Array.getElem?_eq_getElem hlt]
      exact h.own
    · intro i other hi hother
      rw [Array.getElem?_push] at hother
      split at hother
      · obtain rfl := Option.some.inj hother
        exact hcell
      · exact h.others i other hi hother
  refine hpushed.kept ?_
  unfold Store.subscribe
  simp only
  split
  · exact .of_eq rfl rfl rfl rfl
  · exact .refl _

theorem Fresh.subscribe (h : spot.Fresh s) (cell : Subscriber σ) :
    spot.Fresh (s.subscribe cell) := by
  unfold Store.subscribe
  simp only
  split <;> exact h

/-! ## Repainting -/

theorem cell?_setText_self {dom : Dom} {node : NodeId} {old : String}
    (h : dom.cell? node = some (.text old)) (text : String) :
    (dom.setText node text).cell? node = some (.text text) := by
  unfold Dom.setText
  rw [h]
  simp only [Dom.modify, Dom.cell?, Array.getElem?_modify, if_pos]
  unfold Dom.cell? at h
  rw [h]
  rfl

/-- Reading a key changes nothing about a text. -/
theorem Kept.sighted (s : Store σ) (forwarded : List String) (key : String) (field : FieldId) :
    spot.Kept s (Engine.sighted s forwarded key field).1 := by
  have hnoted : spot.Kept s (Engine.noted s forwarded key) := by
    unfold Engine.noted
    split
    · exact refl s
    · exact of_eq rfl rfl rfl rfl
  exact hnoted.trans (get _ field)

/-- A recomputation of the subscriber of the text leaves the text up to date, whatever it was
before. -/
theorem repaint {recompute : SubscriberId → Engine.ReactiveSession σ Value}
    {outcome : Except ReactiveError Value} (h : spot.Bound s)
    (hrun : Engine.runWith recompute
      (((Source.forwarding spot.keys spot.data).read spot.shown.expression).bind
        (Updater.within spot.shown.before spot.shown.after Updater.text spot.node)) s =
      some (outcome, t)) : spot.Bound t ∧ spot.Fresh t := by
  let change (value : Value) (dom : Dom) : Dom :=
    dom.setText spot.node (spot.shown.render value.display)
  have hpaint : some (outcome, t) = some (.ok .null,
      Engine.painted s spot.keys spot.shown.expression spot.field change) := by
    rw [← hrun]
    have hpaint : Engine.runWith recompute _ s = _ :=
      Engine.runWith_paint spot.keys spot.data spot.shown.expression change s
    rw [h.lookup] at hpaint
    exact hpaint
  obtain ⟨-, rfl⟩ := Prod.mk.inj (Option.some.inj hpaint)
  have hsighted : spot.Kept s (Engine.sighted s spot.keys spot.shown.expression spot.field).1 :=
    .sighted s _ _ _
  have hread := h.kept hsighted
  obtain ⟨old, hold⟩ := hread.isText
  have hshown := cell?_setText_self hold
  exact ⟨⟨hread.lookup, hread.registered, hread.own, ⟨_, hshown _⟩, hread.others⟩, hshown _⟩

end Spot

end LiveTemplate
