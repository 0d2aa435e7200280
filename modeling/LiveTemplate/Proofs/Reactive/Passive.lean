import LiveTemplate.Proofs.Reactive.Serving
import LiveTemplate.Proofs.Reactive.Slots
import LiveTemplate.Proofs.Reactive.Sources

/-!
# Passive routines

A passive routine reads, reports, fails, makes data reactive, constructs subscribers and changes
nodes, but it writes and defines no field, notifies nobody and recomputes nobody.  It comes to an
end, whoever is collecting and however deep recomputations may nest, and leaves the tables of all
objects and the values of all fields.  So does a notification of subscribers that are passive.
-/

namespace LiveTemplate

variable {σ : Type}

/-! ## What is passive -/

/-- The operation defines nothing. -/
def Request.Passive : Request σ → Prop
  | .define _ _ _ => False
  | _ => True

/-- The routine neither writes nor defines, and neither notifies nor recomputes anybody. -/
def Routine.Passive : Routine σ → Prop
  | .done _ => True
  | .fail _ => True
  | .request r next => r.Passive ∧ ∀ answer, (next answer).Passive
  | .untracked body next => body.Passive ∧ ∀ outcome, (next outcome).Passive
  | .watch read _ key _ next => (read key).Passive ∧ ∀ outcome, (next outcome).Passive
  | .set _ _ _ => False
  | .notify _ _ => False
  | .recompute _ _ => False

/-- A recomputation of the subscriber is passive. -/
def Subscriber.Passive (cell : Subscriber σ) : Prop :=
  (cell.source.read cell.key).Passive ∧ ∀ value, (cell.callback value).Passive

namespace Routine

theorem Passive.followedBy {routine : Routine σ} {next : Except ReactiveError Value → Routine σ}
    (hroutine : routine.Passive) (hnext : ∀ outcome, (next outcome).Passive) :
    (routine.followedBy next).Passive := by
  induction routine with
  | done value => exact hnext (.ok value)
  | fail error => exact hnext (.error error)
  | request r k ih => exact ⟨hroutine.1, fun answer => ih answer (hroutine.2 answer)⟩
  | untracked body k _ ih => exact ⟨hroutine.1, fun outcome => ih outcome (hroutine.2 outcome)⟩
  | watch read write key callback k _ _ _ ih =>
      exact ⟨hroutine.1, fun outcome => ih outcome (hroutine.2 outcome)⟩
  | set field value k ih => exact hroutine.elim
  | notify field k ih => exact hroutine.elim
  | recompute subscriber k ih => exact hroutine.elim

theorem Passive.bind {routine : Routine σ} {next : Value → Routine σ} (hroutine : routine.Passive)
    (hnext : ∀ value, (next value).Passive) : (routine.bind next).Passive := by
  refine hroutine.followedBy fun outcome => ?_
  cases outcome with
  | ok value => exact hnext value
  | error e => trivial

end Routine

theorem Source.passive_read_over (forwarded : Option (List String)) (object : ObjectId)
    (key : String) : ((Source.over forwarded object).read key : Routine σ).Passive := by
  have hread : ((ofObject object).read key : Routine σ).Passive := by
    refine ⟨trivial, fun answer => ?_⟩
    cases answer with
    | none => trivial
    | some field => exact ⟨trivial, fun _ => trivial⟩
  cases forwarded with
  | none => exact hread
  | some keys =>
      have hmiss : (reportMiss keys key : Routine σ).Passive := by
        unfold reportMiss
        split
        · trivial
        · exact ⟨trivial, fun _ => trivial⟩
      exact hmiss.bind fun _ => hread

/-! ## What is retained -/

namespace Store

/-- The objects and the fields are still there.  The objects have their tables, and the fields their
values and policies; there may be new objects, fields and subscribers, and new registrations. -/
structure Retains (s t : Store σ) : Prop where
  size_objects : s.objects.size ≤ t.objects.size
  tables : ∀ object < s.objects.size, t.fieldsOf object = s.fieldsOf object
  fields : ∀ (field : FieldId) (cell : FieldCell), s.fields[field]? = some cell →
    ∃ later, t.fields[field]? = some later ∧ later.policy = cell.policy ∧ later.value = cell.value
  subscribers : s.subscribers.toList <+: t.subscribers.toList

namespace Retains

variable {s t u : Store σ}

theorem of_same (hobjects : t.objects = s.objects) (hfields : t.fields = s.fields)
    (hsubscribers : t.subscribers = s.subscribers) : s.Retains t where
  size_objects := hobjects ▸ Nat.le_refl _
  tables object _ := by
    unfold fieldsOf
    rw [hobjects]
  fields field cell hcell := ⟨cell, hfields ▸ hcell, rfl, rfl⟩
  subscribers := hsubscribers ▸ List.prefix_rfl

theorem refl (s : Store σ) : s.Retains s := .of_same rfl rfl rfl

theorem trans (hst : s.Retains t) (htu : t.Retains u) : s.Retains u where
  size_objects := Nat.le_trans hst.size_objects htu.size_objects
  tables object hobject :=
    (htu.tables object (Nat.lt_of_lt_of_le hobject hst.size_objects)).trans
      (hst.tables object hobject)
  fields field cell hcell := by
    obtain ⟨mid, hmid, hpolicy, hvalue⟩ := hst.fields field cell hcell
    obtain ⟨later, hlater, hpolicy', hvalue'⟩ := htu.fields field mid hmid
    exact ⟨later, hlater, hpolicy'.trans hpolicy, hvalue'.trans hvalue⟩
  subscribers := hst.subscribers.trans htu.subscribers

theorem register (s : Store σ) (field : FieldId) (subscriber : SubscriberId) :
    s.Retains (s.register field subscriber) where
  size_objects := Nat.le_refl _
  tables _ _ := rfl
  fields other cell hcell := by
    simp only [Store.register, report, record, Array.getElem?_modify, hcell]
    split
    · exact ⟨_, rfl, rfl, rfl⟩
    · exact ⟨cell, rfl, rfl, rfl⟩
  subscribers := List.prefix_rfl

theorem get (s : Store σ) (field : FieldId) : s.Retains (s.get field).1 := by
  have hreported : s.Retains (s.report (.gotten (s.fieldKey field))) := .of_same rfl rfl rfl
  refine hreported.trans ?_
  unfold Store.get track
  split
  · exact register _ field _
  · exact .refl _

/-- Making data reactive leaves what was there. -/
theorem observe (policy : NotifyPolicy) (s : Store σ) (json : Json) :
    s.Retains (s.observe policy json).1 := by
  have hextended := Extended.observe policy s json
  refine ⟨hextended.size_objects, fun object hobject => ?_, fun field cell hcell => ?_, ?_⟩
  · unfold fieldsOf
    rw [hextended.objects object hobject]
  · have hlt := (Array.getElem?_eq_some_iff.1 hcell).1
    exact ⟨cell, (hextended.fields field hlt).trans hcell, rfl, rfl⟩
  · exact ⟨[], by rw [List.append_nil, RequestProgress.sameSubscribers.observe policy s json]⟩

theorem perform {r : Request σ} (hr : r.Passive) (s : Store σ) : s.Retains (s.perform r).1 := by
  cases r with
  | get field => exact get s field
  | define object key value => exact hr.elim
  | observe json policy => exact observe policy s json
  | register field subscriber => exact register s field subscriber
  | _ => exact .of_same rfl rfl rfl

/-- Who is collecting meanwhile makes no difference. -/
theorem collecting {subscriber collector : Option SubscriberId}
    (h : (s.withActive subscriber).Retains t) : s.Retains (t.withActive collector) :=
  ⟨h.size_objects, h.tables, h.fields, h.subscribers⟩

theorem subscribe (s : Store σ) (cell : Subscriber σ) : s.Retains (s.subscribe cell) where
  size_objects := Nat.le_of_eq (by rw [subscribe_objects])
  tables object _ := by
    unfold fieldsOf
    rw [subscribe_objects]
  fields field other hother := ⟨other, by rw [subscribe_fields]; exact hother, rfl, rfl⟩
  subscribers := by
    rw [subscribe_subscribers, Array.toList_push]
    exact List.prefix_append _ _

theorem peek (h : s.Retains t) {field : FieldId} (hfield : field < s.fields.size) :
    t.peek field = s.peek field := by
  have hcell := Array.getElem?_eq_getElem hfield
  obtain ⟨later, hlater, -, hvalue⟩ := h.fields field _ hcell
  rw [peek_of_getElem? hlater, peek_of_getElem? hcell, hvalue]

theorem size_fields (h : s.Retains t) : s.fields.size ≤ t.fields.size := by
  refine Nat.le_of_not_lt fun hlt => ?_
  obtain ⟨later, hlater, -⟩ := h.fields t.fields.size _ (Array.getElem?_eq_getElem hlt)
  exact absurd (Array.getElem?_eq_some_iff.1 hlater).1 (Nat.lt_irrefl _)

theorem getElem?_subscribers (h : s.Retains t) {subscriber : SubscriberId} {cell : Subscriber σ}
    (hcell : s.subscribers[subscriber]? = some cell) :
    t.subscribers[subscriber]? = some cell :=
  getElem?_subscribers_of_isPrefix h.subscribers hcell

end Retains

end Store

/-! ## Running passive routines -/

namespace Engine

open Session

/-- A passive routine comes to an end, in the same way however subscribers are recomputed.  Nobody
is recomputed. -/
theorem runWith_passive {routine : Routine σ} (h : routine.Passive) (s : Store σ) :
    ∃ outcome t, s.Retains t ∧ ∀ recompute inside,
      runWith recompute routine s = some (outcome, t) ∧
      (runMarksWith recompute inside routine s).filterMap Mark.recomputed? = [] := by
  have hpassedOn {ε α : Type} (outcome : Except ε α) (routine : Routine σ) {marks : List Mark}
      (hmarks : marks.filterMap Mark.recomputed? = []) :
      (unlessPassedOn outcome routine marks).filterMap Mark.recomputed? = [] := by
    unfold unlessPassedOn
    split
    · rfl
    · exact hmarks
  induction routine generalizing s with
  | done value => exact ⟨.ok value, s, .refl s, fun _ _ => ⟨rfl, rfl⟩⟩
  | fail error => exact ⟨.error error, s, .refl s, fun _ _ => ⟨rfl, rfl⟩⟩
  | request r next ih =>
      obtain ⟨outcome, t, hretains, hruns⟩ := ih _ (h.2 (s.perform r).2) (s.perform r).1
      exact ⟨outcome, t, (Store.Retains.perform h.1 s).trans hretains, hruns⟩
  | untracked body next ihbody ih =>
      obtain ⟨first, after, hbody, hfirst⟩ := ihbody h.1 (s.withActive none)
      obtain ⟨outcome, t, hnext, hlast⟩ := ih first (h.2 first) (after.withActive s.active)
      refine ⟨outcome, t, (Store.Retains.collecting hbody).trans hnext, fun recompute inside => ?_⟩
      have hcollecting : collecting none (runWith recompute body) s =
          some (first, after.withActive s.active) :=
        collecting_eq_some.2 ⟨after, (hfirst recompute inside).1, rfl⟩
      refine ⟨followedBy_eq_some.2 ⟨first, _, hcollecting, (hlast recompute inside).1⟩, ?_⟩
      rw [runMarksWith, List.filterMap_append, marksBehind_of_eq_some _ hcollecting,
        (hfirst recompute inside).2, hpassedOn first _ (hlast recompute inside).2]
      rfl
  | watch read write key callback next ihread _ _ ih =>
      let cell : Subscriber σ := ⟨key, ⟨read, write⟩, callback⟩
      obtain ⟨first, after, hread, hfirst⟩ :=
        ihread key h.1 ((s.subscribe cell).withActive (some s.subscribers.size))
      -- The construction ends as its read does, and puts back who was collecting either way.
      obtain ⟨made, u, hu, hmade⟩ : ∃ made u, s.Retains u ∧ ∀ recompute inside,
          construct ⟨read, write⟩ key callback (runWith recompute (read key)) s =
            some (made, u) ∧
          (runMarksWith recompute inside (read key)
            ((s.subscribe cell).withActive (some s.subscribers.size))).filterMap
              Mark.recomputed? = [] := by
        have hretains : s.Retains (after.withActive s.active) :=
          (Store.Retains.subscribe s cell).trans (.collecting hread)
        cases first with
        | ok value =>
            have hreported : s.Retains ((after.withActive s.active).report (.created key)) :=
              hretains.trans (.of_same rfl rfl rfl)
            exact ⟨_, _, hreported, fun recompute inside =>
              ⟨construct_eq_some.2 ⟨_, after, (hfirst recompute inside).1,
                .inl ⟨value, rfl, rfl, rfl⟩⟩, (hfirst recompute inside).2⟩⟩
        | error e =>
            exact ⟨_, _, hretains, fun recompute inside =>
              ⟨construct_eq_some.2 ⟨_, after, (hfirst recompute inside).1,
                .inr ⟨e, rfl, rfl, rfl⟩⟩, (hfirst recompute inside).2⟩⟩
      obtain ⟨outcome, t, hnext, hlast⟩ := ih made (h.2 made) u
      refine ⟨outcome, t, hu.trans hnext, fun recompute inside => ⟨followedBy_eq_some.2
        ⟨made, u, (hmade recompute inside).1, (hlast recompute inside).1⟩, ?_⟩⟩
      rw [runMarksWith, List.filterMap_append,
        marksBehind_of_eq_some _ (hmade recompute inside).1, (hmade recompute inside).2,
        hpassedOn made _ (hlast recompute inside).2]
      rfl
  | set field value next ih => exact h.elim
  | notify field next ih => exact h.elim
  | recompute subscriber next ih => exact h.elim

/-- A recomputation of a passive subscriber comes to an end. -/
theorem endsAlone_of_passive {subscriber : SubscriberId} {cell : Subscriber σ} {s : Store σ}
    (hcell : s.subscribers[subscriber]? = some cell) (h : cell.Passive) :
    ∃ outcome t, EndsAlone subscriber s outcome t ∧ s.Retains t := by
  obtain ⟨outcome, t, hretains, hruns⟩ := runWith_passive (h.1.bind h.2) s
  refine ⟨outcome, t, ⟨fun fuel => ?_, fun fuel => ?_⟩, hretains⟩
  · rw [recompute_succ_of_some hcell]
    exact (hruns _ (recomputeMarks fuel)).1
  · rw [recomputeMarks_succ_of_some hcell]
    exact (hruns _ _).2

end Engine

end LiveTemplate
