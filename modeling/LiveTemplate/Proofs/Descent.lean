import LiveTemplate.Proofs.Collector
import LiveTemplate.Proofs.Reactive.Slots
import LiveTemplate.Proofs.Reactive.Sources
import LiveTemplate.Proofs.Reactive.Trace

/-!
# Writes that descend

A write notifies before it returns, so callbacks that write in a circle nest forever.  They do not
where fields have ranks and the subscribers of a field write fields of lower rank only: then no
recomputation nests deeper than the rank of the field that is written first.  Nobody is collecting
meanwhile, so no read registers anybody, and the subscribers of each field stay those that the ranks
are about.
-/

namespace LiveTemplate

variable {σ ε ε' α β : Type}

/-! ## Routines that descend -/

/-- The operation defines no field of a given object and registers nobody by hand. -/
def Request.Mild : Request σ → Prop
  | .define _ _ _ => False
  | .register _ _ => False
  | _ => True

/-- What a look for a key can answer after such operations: the field that the key had to begin
with, or, in an object that has been made since, a field that has been made since. -/
def Request.Foreseen (base : Store σ) : (r : Request σ) → r.Answer → Prop
  | .field object key, answer =>
    if object < base.objects.size then answer = base.field? object key
    else ∀ field, answer = some field → base.fields.size ≤ field
  | _, _ => True

/-- The field has a rank below the bound, if it has subscribers at all. -/
def Store.Below (base : Store σ) (rank : FieldId → Nat) (bound : Nat) (field : FieldId) : Prop :=
  base.registrations field ≠ [] → rank field < bound

/-- The routine reads, reports, fails, goes on behind errors, converts data, and writes and notifies
fields below the bound.  It defines no field and constructs no subscriber. -/
def Routine.Descends (base : Store σ) (rank : FieldId → Nat) (bound : Nat) : Routine σ → Prop
  | .done _ => True
  | .fail _ => True
  | .request r next =>
    r.Mild ∧ ∀ answer, r.Foreseen base answer → (next answer).Descends base rank bound
  | .untracked body next =>
    body.Descends base rank bound ∧ ∀ outcome, (next outcome).Descends base rank bound
  | .watch _ _ _ _ _ => False
  | .set field _ next =>
    base.Below rank bound field ∧ ∀ outcome, (next outcome).Descends base rank bound
  | .notify field next =>
    base.Below rank bound field ∧ ∀ outcome, (next outcome).Descends base rank bound
  | .recompute _ _ => False

/-- The subscriber has an object as its source, plain or behind a table of forwarded keys, and its
callback descends, whatever value it gets. -/
structure Subscriber.Descends (base : Store σ) (rank : FieldId → Nat) (bound : Nat)
    (cell : Subscriber σ) : Prop where
  source : ∃ forwarded object, cell.source = .over forwarded object
  callback : ∀ value, (cell.callback value).Descends base rank bound

/-- The subscribers of each field descend from its rank. -/
def Store.Ranked (s : Store σ) (rank : FieldId → Nat) : Prop :=
  ∀ field, ∀ subscriber ∈ s.registrations field, ∀ cell, s.subscribers[subscriber]? = some cell →
    cell.Descends s rank (rank field)

variable {base s t : Store σ} {rank : FieldId → Nat} {bound : Nat}

theorem Store.below_of_size_le {field : FieldId} (h : base.fields.size ≤ field) :
    base.Below rank bound field :=
  fun hsubscribers => absurd (registrations_of_size_le h) hsubscribers

namespace Routine

theorem descends_ofExcept (outcome : Except ReactiveError Value) :
    (ofExcept outcome : Routine σ).Descends base rank bound := by
  cases outcome <;> trivial

theorem Descends.followedBy {routine : Routine σ} {next : Except ReactiveError Value → Routine σ}
    (hroutine : routine.Descends base rank bound)
    (hnext : ∀ outcome, (next outcome).Descends base rank bound) :
    (routine.followedBy next).Descends base rank bound := by
  induction routine with
  | done value => exact hnext (.ok value)
  | fail error => exact hnext (.error error)
  | request r k ih => exact ⟨hroutine.1, fun answer h => ih answer (hroutine.2 answer h)⟩
  | untracked body k _ ih => exact ⟨hroutine.1, fun outcome => ih outcome (hroutine.2 outcome)⟩
  | watch read write key callback k _ _ _ ih => exact hroutine.elim
  | set field value k ih => exact ⟨hroutine.1, fun outcome => ih outcome (hroutine.2 outcome)⟩
  | notify field k ih => exact ⟨hroutine.1, fun outcome => ih outcome (hroutine.2 outcome)⟩
  | recompute subscriber k ih => exact hroutine.elim

theorem Descends.bind {routine : Routine σ} {next : Value → Routine σ}
    (hroutine : routine.Descends base rank bound)
    (hnext : ∀ value, (next value).Descends base rank bound) :
    (routine.bind next).Descends base rank bound := by
  refine hroutine.followedBy fun outcome => ?_
  cases outcome with
  | ok value => exact hnext value
  | error e => trivial

theorem descends_setField {field : FieldId} (h : base.Below rank bound field) (value : Value) :
    (setField field value : Routine σ).Descends base rank bound :=
  ⟨h, descends_ofExcept⟩

end Routine

namespace Source

theorem descends_reportMiss (forwarded : List String) (key : String) :
    (reportMiss forwarded key : Routine σ).Descends base rank bound := by
  unfold reportMiss
  split
  · trivial
  · exact ⟨trivial, fun _ _ => trivial⟩

/-- What is done with the field of a key descends if it does with the field that is foreseen. -/
theorem descends_withField {object : ObjectId} {key : String} {use : FieldId → Routine σ}
    (huse : ∀ field, (base.field? object key = some field ∨ base.fields.size ≤ field) →
      (use field).Descends base rank bound) :
    (withField object key use).Descends base rank bound := by
  refine ⟨trivial, fun answer hanswer => ?_⟩
  cases answer with
  | none => trivial
  | some field =>
      refine huse field ?_
      simp only [Request.Foreseen] at hanswer
      split at hanswer
      · exact .inl hanswer.symm
      · exact .inr (hanswer field rfl)

theorem descends_read_over (forwarded : Option (List String)) (object : ObjectId) (key : String) :
    ((Source.over forwarded object).read key : Routine σ).Descends base rank bound := by
  have hread : ((ofObject object).read key : Routine σ).Descends base rank bound :=
    descends_withField fun _ _ => ⟨trivial, fun _ _ => trivial⟩
  cases forwarded with
  | none => exact hread
  | some keys => exact (descends_reportMiss keys key).bind fun _ => hread

/-- A write by key descends if the field that it finds is below the bound. -/
theorem descends_write_over (forwarded : Option (List String)) {object : ObjectId} {key : String}
    (hfield : ∀ field, base.field? object key = some field → base.Below rank bound field)
    (value : Value) :
    ((Source.over forwarded object).write key value : Routine σ).Descends base rank bound := by
  have hwrite : ((ofObject object).write key value : Routine σ).Descends base rank bound :=
    descends_withField fun field hfound =>
      Routine.descends_setField (hfound.elim (hfield field) Store.below_of_size_le) value
  cases forwarded with
  | none => exact hwrite
  | some keys => exact (descends_reportMiss keys key).bind fun _ => hwrite

theorem descends_writeJson_over (forwarded : Option (List String)) {object : ObjectId}
    {key : String}
    (hfield : ∀ field, base.field? object key = some field → base.Below rank bound field)
    (json : Json) :
    ((Source.over forwarded object).writeJson key json : Routine σ).Descends base rank bound :=
  ⟨trivial, fun value _ => descends_write_over forwarded hfield value⟩

end Source

/-! ## Stores that stay as they are -/

namespace Store

/-- Nobody collects.  The subscribers and the slots that there were to begin with are as they were,
and so are all registrations; objects that have been made since have fields of their own. -/
structure Steady (base t : Store σ) : Prop where
  idle : t.active = none
  subscribers : t.subscribers = base.subscribers
  size_objects : base.objects.size ≤ t.objects.size
  size_fields : base.fields.size ≤ t.fields.size
  slots : ∀ object < base.objects.size, ∀ key, t.field? object key = base.field? object key
  fresh : ∀ object key field, base.objects.size ≤ object → t.field? object key = some field →
    base.fields.size ≤ field
  registrations : ∀ field, t.registrations field = base.registrations field

namespace Steady

theorem refl (hidle : base.active = none) : base.Steady base where
  idle := hidle
  subscribers := rfl
  size_objects := Nat.le_refl _
  size_fields := Nat.le_refl _
  slots _ _ _ := rfl
  fresh _ _ _ hobject hfield := absurd (lt_of_field?_eq_some hfield) (Nat.not_lt.2 hobject)
  registrations _ := rfl

/-- What leaves the slots and the registrations of a steady store leaves it steady. -/
theorem of_same (h : base.Steady s) (hactive : t.active = s.active)
    (hsubscribers : t.subscribers = s.subscribers) (hobjects : t.objects = s.objects)
    (hfields : t.fields.size = s.fields.size)
    (hregistrations : ∀ field, t.registrations field = s.registrations field) :
    base.Steady t where
  idle := hactive.trans h.idle
  subscribers := hsubscribers.trans h.subscribers
  size_objects := hobjects ▸ h.size_objects
  size_fields := hfields ▸ h.size_fields
  slots object hobject key := (field?_congr hobjects object key).trans (h.slots object hobject key)
  fresh object key field hobject hfield :=
    h.fresh object key field hobject ((field?_congr hobjects object key).symm.trans hfield)
  registrations field := (hregistrations field).trans (h.registrations field)

theorem record (h : base.Steady s) (entry : Entry) : base.Steady (s.record entry) :=
  h.of_same rfl rfl rfl rfl fun _ => rfl

theorem report (h : base.Steady s) (event : Event) : base.Steady (s.report event) :=
  h.record (.event event)

theorem assign (h : base.Steady s) (field : FieldId) (value : Value) :
    base.Steady (s.assign field value) :=
  h.of_same (assign_active s field value) (assign_subscribers s field value)
    (assign_objects s field value) (size_fields_assign s field value)
    (registrations_assign s field value)

/-- Nobody is there to be registered by a read. -/
theorem get (h : base.Steady s) (field : FieldId) : base.Steady (s.get field).1 := by
  have hslot : (s.report (.gotten (s.fieldKey field))).active = none := h.idle
  unfold Store.get track
  rw [hslot]
  exact h.report _

/-- Data becomes new objects with new fields. -/
theorem observe (h : base.Steady s) (policy : NotifyPolicy) (json : Json) :
    base.Steady (s.observe policy json).1 := by
  have hextended := Extended.observe policy s json
  have hrenewed := Renewed.progress.observe policy s json
  exact
    { idle := (Progress.sameActive.observe policy s json).trans h.idle
      subscribers :=
        (RequestProgress.sameSubscribers.observe policy s json).trans h.subscribers
      size_objects := Nat.le_trans h.size_objects hextended.size_objects
      size_fields := Nat.le_trans h.size_fields hextended.size_fields
      slots := fun object hobject key =>
        (hextended.field? (Nat.lt_of_lt_of_le hobject h.size_objects) key).trans
          (h.slots object hobject key)
      fresh := fun object key field hobject hfield => by
        by_cases hlt : field < s.fields.size
        · exact h.fresh object key field hobject (hrenewed.slot object key field hfield hlt)
        · exact Nat.le_trans h.size_fields (Nat.le_of_not_lt hlt)
      registrations := fun field =>
        (registrations_progress.observe policy s json field).trans (h.registrations field) }

theorem perform (h : base.Steady s) {r : Request σ} (hr : r.Mild) :
    base.Steady (s.perform r).1 := by
  cases r with
  | get field => exact h.get field
  | define object key value => exact hr.elim
  | observe json policy => exact h.observe policy json
  | register field subscriber => exact hr.elim
  | report event => exact h.report event
  | log text => exact h.record (.line text)
  | _ => exact h.of_same rfl rfl rfl rfl fun _ => rfl

/-- A look for a key finds what was foreseen. -/
theorem foreseen (h : base.Steady s) (r : Request σ) : r.Foreseen base (s.perform r).2 := by
  cases r with
  | field object key =>
      simp only [Request.Foreseen, Store.perform]
      split
      · next hobject => exact h.slots object hobject key
      · next hobject => exact fun field => h.fresh object key field (Nat.le_of_not_lt hobject)
  | _ => trivial

/-- What is foreseen of a store is foreseen of the stores before it. -/
theorem foreseen_of_foreseen (h : base.Steady s) {r : Request σ} {answer : r.Answer}
    (hanswer : r.Foreseen s answer) : r.Foreseen base answer := by
  cases r with
  | field object key =>
      simp only [Request.Foreseen] at hanswer ⊢
      split
      · next hobject =>
          rw [if_pos (Nat.lt_of_lt_of_le hobject h.size_objects)] at hanswer
          exact hanswer.trans (h.slots object hobject key)
      · next hobject =>
          intro field hfield
          split at hanswer
          · exact h.fresh object key field (Nat.le_of_not_lt hobject) (hanswer.symm.trans hfield)
          · exact Nat.le_trans h.size_fields (hanswer field hfield)
  | _ => trivial

theorem descends (h : base.Steady s) {routine : Routine σ}
    (hroutine : routine.Descends base rank bound) : routine.Descends s rank bound := by
  have hbelow {field : FieldId} (hfield : base.Below rank bound field) :
      s.Below rank bound field :=
    fun hsubscribers => hfield (h.registrations field ▸ hsubscribers)
  induction routine with
  | done value => trivial
  | fail error => trivial
  | request r k ih =>
      exact ⟨hroutine.1,
        fun answer hanswer => ih answer (hroutine.2 answer (h.foreseen_of_foreseen hanswer))⟩
  | untracked body k ihbody ih =>
      exact ⟨ihbody hroutine.1, fun outcome => ih outcome (hroutine.2 outcome)⟩
  | watch read write key callback k _ _ _ ih => exact hroutine
  | set field value k ih =>
      exact ⟨hbelow hroutine.1, fun outcome => ih outcome (hroutine.2 outcome)⟩
  | notify field k ih =>
      exact ⟨hbelow hroutine.1, fun outcome => ih outcome (hroutine.2 outcome)⟩
  | recompute subscriber k ih => exact hroutine

/-- The ranks go on to fit, so there can be another write. -/
theorem ranked (h : base.Steady s) (hranked : base.Ranked rank) : s.Ranked rank := by
  intro field subscriber hsubscriber cell hcell
  rw [h.registrations] at hsubscriber
  rw [h.subscribers] at hcell
  have hdescends := hranked field subscriber hsubscriber cell hcell
  exact ⟨hdescends.source, fun value => h.descends (hdescends.callback value)⟩

end Steady

end Store

/-! ## Sessions that settle -/

namespace Session

/-- From a steady store, the session ends, and in a steady store. -/
def Settles (base : Store σ) (session : Session σ ε α) : Prop :=
  ∀ s, base.Steady s → ∃ outcome t, session s = some (outcome, t) ∧ base.Steady t

namespace Settles

theorem pure (a : α) : Settles base (Pure.pure a : Session σ ε α) :=
  fun s hs => ⟨.ok a, s, rfl, hs⟩

theorem throw (e : ε) : Settles base (MonadExcept.throw e : Session σ ε α) :=
  fun s hs => ⟨.error e, s, rfl, hs⟩

theorem followedBy {session : Session σ ε α} {next : Except ε α → Session σ ε' β}
    (hsession : Settles base session) (hnext : ∀ outcome, Settles base (next outcome)) :
    Settles base (session.followedBy next) := by
  intro s hs
  obtain ⟨first, u, hfirst, hu⟩ := hsession s hs
  obtain ⟨outcome, t, hlast, ht⟩ := hnext first u hu
  exact ⟨outcome, t, followedBy_eq_some.2 ⟨first, u, hfirst, hlast⟩, ht⟩

theorem bind {session : Session σ ε α} {next : α → Session σ ε β}
    (hsession : Settles base session) (hnext : ∀ a, Settles base (next a)) :
    Settles base (session >>= next) := by
  rw [bind_eq_followedBy]
  refine followedBy hsession fun outcome => ?_
  cases outcome with
  | ok a => exact hnext a
  | error e => exact throw e

/-- Nobody collects before, within or after. -/
theorem untracked {session : Session σ ε α} (hsession : Settles base session) :
    Settles base (Session.collecting none session) := by
  intro s hs
  obtain ⟨outcome, t, hrun, ht⟩ := hsession (s.withActive none)
    (hs.of_same hs.idle.symm rfl rfl rfl fun _ => rfl)
  refine ⟨outcome, t.withActive s.active, collecting_eq_some.2 ⟨t, hrun, rfl⟩, ?_⟩
  exact ht.of_same (hs.idle.trans ht.idle.symm) rfl rfl rfl fun _ => rfl

end Settles

end Session

namespace Engine

open Session

variable {recompute : SubscriberId → ReactiveSession σ Value}

theorem notifyFailFast_settles {subscribers : List SubscriberId}
    (hrecompute : ∀ i ∈ subscribers, Settles base (recompute i)) :
    Settles base (notifyFailFast recompute subscribers) := by
  induction subscribers with
  | nil => exact .pure _
  | cons subscriber rest ih =>
      refine (hrecompute subscriber List.mem_cons_self).bind fun _ => ih fun i hi => ?_
      exact hrecompute i (List.mem_cons_of_mem _ hi)

theorem collectFailures_settles {subscribers : List SubscriberId}
    (hrecompute : ∀ i ∈ subscribers, Settles base (recompute i)) :
    Settles base (collectFailures recompute subscribers) := by
  induction subscribers with
  | nil => exact .pure _
  | cons subscriber rest ih =>
      have hrest := ih fun i hi => hrecompute i (List.mem_cons_of_mem _ hi)
      refine (hrecompute subscriber List.mem_cons_self).followedBy fun outcome => ?_
      cases outcome with
      | ok value => exact hrest
      | error e =>
          refine .bind (fun s hs => ⟨.ok (), _, rfl, hs.report _⟩) fun _ => ?_
          exact hrest.bind fun failures => .pure (e :: failures)

theorem notifyIsolated_settles {subscribers : List SubscriberId}
    (hrecompute : ∀ i ∈ subscribers, Settles base (recompute i)) :
    Settles base (notifyIsolated recompute subscribers) := by
  refine (collectFailures_settles hrecompute).bind fun failures => ?_
  split
  · exact .pure _
  · exact .throw _

/-- A notification settles if the subscribers that the field had to begin with do. -/
theorem notify_settles {field : FieldId}
    (hrecompute : ∀ i ∈ base.registrations field, Settles base (recompute i)) :
    Settles base (notify recompute field) := by
  intro s hs
  cases hcell : s.fields[field]? with
  | none => exact ⟨.ok .null, s, notify_of_none hcell, hs⟩
  | some cell =>
      have hsame : cell.registrations = base.registrations field := by
        rw [← hs.registrations field, Store.registrations_of_getElem? hcell]
      rw [← hsame] at hrecompute
      have hreported := hs.report (.notified cell.registrations.length)
      cases hpolicy : cell.policy with
      | failFast =>
          rw [notify_of_failFast hcell hpolicy]
          exact notifyFailFast_settles hrecompute _ hreported
      | isolate =>
          rw [notify_of_isolate hcell hpolicy]
          exact notifyIsolated_settles hrecompute _ hreported

theorem set_settles_of_notify {field : FieldId} (h : Settles base (notify recompute field))
    (value : Value) : Settles base (set recompute field value) :=
  fun s hs => h (s.assign field value) (hs.assign field value)

/-- A routine settles if the notifications of the fields below its bound do. -/
theorem runWith_settles
    (hnotify : ∀ field, base.Below rank bound field → Settles base (notify recompute field))
    {routine : Routine σ} (hroutine : routine.Descends base rank bound) :
    Settles base (runWith recompute routine) := by
  induction routine with
  | done value => exact .pure value
  | fail error => exact .throw error
  | request r next ih =>
      intro s hs
      exact ih _ (hroutine.2 _ (hs.foreseen r)) _ (hs.perform hroutine.1)
  | untracked body next ihbody ih =>
      exact (ihbody hroutine.1).untracked.followedBy fun outcome => ih _ (hroutine.2 outcome)
  | watch read write key callback next _ _ _ ih => exact hroutine.elim
  | set field value next ih =>
      refine (set_settles_of_notify (hnotify field hroutine.1) value).followedBy fun outcome => ?_
      exact ih _ (hroutine.2 outcome)
  | notify field next ih =>
      exact (hnotify field hroutine.1).followedBy fun outcome => ih _ (hroutine.2 outcome)
  | recompute subscriber next ih => exact hroutine.elim

/-- Reading an object while nobody collects settles. -/
theorem read_over_settles (forwarded : Option (List String)) (object : ObjectId) (key : String) :
    Settles base (runWith recompute ((Source.over forwarded object).read key)) := by
  intro s hs
  have hheard : base.Steady (heard forwarded key s) := heard_induct hs (hs.report _)
  rw [runWith_read_over]
  cases s.field? object key with
  | none => exact ⟨_, _, rfl, hheard⟩
  | some field => exact ⟨_, _, rfl, hheard.get field⟩

/-- Recomputing a subscriber of a field takes no more nesting than the rank of the field.
Induction on the nesting: a callback notifies fields of lower rank only. -/
theorem recompute_settles (hranked : base.Ranked rank) (fuel : Nat) {field : FieldId}
    (hfuel : rank field < fuel) {subscriber : SubscriberId}
    (hsubscriber : subscriber ∈ base.registrations field) :
    Settles base (Engine.recompute fuel subscriber) := by
  induction fuel generalizing field subscriber with
  | zero => exact absurd hfuel (Nat.not_lt_zero _)
  | succ fuel ih =>
      intro s hs
      cases hcell : s.subscribers[subscriber]? with
      | none => exact ⟨_, _, recompute_succ_of_none hcell, hs⟩
      | some cell =>
          have hcell' : base.subscribers[subscriber]? = some cell := hs.subscribers ▸ hcell
          obtain ⟨⟨forwarded, object, hsource⟩, hcallback⟩ :=
            hranked field subscriber hsubscriber cell hcell'
          have hnotify (other : FieldId) (hbelow : base.Below rank (rank field) other) :
              Settles base (notify (Engine.recompute fuel) other) := by
            refine notify_settles fun i hi => ih ?_ hi
            have hlt : rank other < rank field := hbelow (List.ne_nil_of_mem hi)
            omega
          rw [recompute_succ_of_some hcell, runWith_bind, hsource]
          refine (read_over_settles forwarded object cell.key).bind (fun value => ?_) s hs
          exact runWith_settles hnotify (hcallback value)

/-- A routine that descends ends, with recomputations nested no deeper than its bound. -/
theorem run_settles (hranked : base.Ranked rank) {routine : Routine σ}
    (hroutine : routine.Descends base rank bound) : Settles base (run bound routine) := by
  refine runWith_settles (fun field hbelow => notify_settles fun i hi => ?_) hroutine
  exact recompute_settles hranked bound (hbelow (List.ne_nil_of_mem hi)) hi

/-! ## Writes -/

/-- With recomputations nested at most `limit` deep, or deeper, the routine ends, and in one way.
All registrations are as before, and so are the ranks. -/
def Returns (s : Store σ) (rank : FieldId → Nat) (limit : Nat) (routine : Routine σ) : Prop :=
  ∃ outcome t, (∀ fuel, limit ≤ fuel → run fuel routine s = some (outcome, t)) ∧
    (∀ field, t.registrations field = s.registrations field) ∧ t.active = none ∧ t.Ranked rank

theorem returns_of_descends (hidle : s.active = none) (hranked : s.Ranked rank)
    {routine : Routine σ} (hroutine : routine.Descends s rank bound) :
    Returns s rank bound routine := by
  obtain ⟨outcome, t, hrun, ht⟩ := run_settles hranked hroutine s (.refl hidle)
  exact ⟨outcome, t, fun fuel hfuel => (run_mono hfuel hrun).1, ht.registrations, ht.idle,
    ht.ranked hranked⟩

/-- In a store where nobody is collecting and every field's subscribers write fields of lower rank
only, every write ends: of a field, and of data under a key of an object.  It leaves all
registrations. -/
theorem writes_return (hidle : s.active = none) (hranked : s.Ranked rank) :
    (∀ field value, Returns s rank (rank field + 1) (.setField field value)) ∧
      ∀ forwarded object key json,
        ∃ limit, Returns s rank limit ((Source.over forwarded object).writeJson key json) := by
  constructor
  · intro field value
    refine returns_of_descends hidle hranked (Routine.descends_setField (fun _ => ?_) value)
    exact Nat.lt_succ_self _
  · intro forwarded object key json
    -- The limit is about the field that the key has, if it has one.
    refine ⟨((s.field? object key).map (rank · + 1)).getD 0, returns_of_descends hidle hranked ?_⟩
    refine Source.descends_writeJson_over forwarded (fun field hfield _ => ?_) json
    rw [hfield]
    exact Nat.lt_succ_self _

/-- The first subscriber writes the second field, whatever comes of it, and is registered twice.
The second field isolates failures.  Its first subscriber reads the field it is about to write, and
then fails; its other one is a subscriber of the first field as well. -/
def chain : Store Unit where
  objects := #[{ policy := .failFast, fields := [("first", 0), ("second", 1), ("third", 2)] }]
  fields := #[
    { key := "first", value := .null, policy := .failFast, registrations := [0, 0, 2] },
    { key := "second", value := .null, policy := .isolate, registrations := [1, 2] },
    { key := "third", value := .null, policy := .failFast }]
  subscribers := #[
    ⟨"first", .over none 0, fun value =>
      ((Source.over (some ["first"]) 0).write "second" value).followedBy fun _ => .log "went on"⟩,
    ⟨"second", .over (some ["second"]) 0, fun _ =>
      ((Source.over none 0).read "third").bind fun value =>
        ((Source.over none 0).write "third" value).andThen (.fail (.callback "full"))⟩,
    ⟨"second", .over none 0, fun _ => .log "seen"⟩]
  shared := ()

theorem ranked_chain : chain.Ranked (2 - ·) := by
  have hseen (bound : Nat) : Subscriber.Descends chain (2 - ·) bound
      ⟨"second", .over none 0, fun _ => .log "seen"⟩ :=
    ⟨⟨none, 0, rfl⟩, fun _ => ⟨trivial, fun _ _ => trivial⟩⟩
  intro field subscriber hsubscriber cell hcell
  -- The rank counts how far the end of the chain is.
  match field with
  | 0 =>
      have hwho : subscriber = 0 ∨ subscriber = 2 := by
        simpa [chain, Store.registrations] using hsubscriber
      rcases hwho with rfl | rfl
      · obtain rfl := Option.some.inj hcell
        refine ⟨⟨none, 0, rfl⟩, fun value => .followedBy ?_ fun _ => ⟨trivial, fun _ _ => trivial⟩⟩
        refine Source.descends_write_over _ (fun field hfield _ => ?_) value
        obtain rfl : 1 = field := Option.some.inj hfield
        decide
      · obtain rfl := Option.some.inj hcell
        exact hseen 2
  | 1 =>
      have hwho : subscriber = 1 ∨ subscriber = 2 := by
        simpa [chain, Store.registrations] using hsubscriber
      rcases hwho with rfl | rfl
      · obtain rfl := Option.some.inj hcell
        refine ⟨⟨some ["second"], 0, rfl⟩, fun _ =>
          (Source.descends_read_over none 0 "third").bind fun value => .bind ?_ fun _ => trivial⟩
        refine Source.descends_write_over _ (fun field hfield _ => ?_) value
        obtain rfl : 2 = field := Option.some.inj hfield
        decide
      · obtain rfl := Option.some.inj hcell
        exact hseen 1
  | 2 => cases hsubscriber
  | field + 3 =>
      rw [Store.registrations_of_size_le (Nat.le_add_left 3 field)] at hsubscriber
      cases hsubscriber

/-- A write of the second field fails, as one of its subscribers does, and ends all the same. -/
theorem writes_return_chain :
    Returns chain (2 - ·) 3 (.setField 0 (.bool true)) ∧
      (∃ limit, Returns chain (2 - ·) limit
        ((Source.over (some ["first"]) 0).writeJson "second" (.object [("x", .null)]))) ∧
      ∃ t, run 2 (.setField 1 (.bool true)) chain =
        some (.error (.cascade [.callback "full"]), t) := by
  obtain ⟨hfields, hkeys⟩ := writes_return rfl ranked_chain
  exact ⟨hfields 0 (.bool true), hkeys _ 0 "second" _, _, rfl⟩

end Engine

end LiveTemplate
