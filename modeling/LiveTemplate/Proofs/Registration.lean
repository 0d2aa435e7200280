import LiveTemplate.Proofs.Reactive.Running
import LiveTemplate.Reactive.Source

/-!
# Who registers where

A subscriber is constructed on a source that does a list of stages around its own read.  The ledger
of the stages says which subscriber is registered with which field, in order: the new one for each
tracked read, and each one constructed on the way for the one read of its construction.  The main
statement is that construction appends the ledger to the registrations and nothing else, whoever was
collecting before.
-/

namespace LiveTemplate

variable {σ : Type}

/-- A registration to make: with a field, of a subscriber. -/
abbrev Registration := FieldId × SubscriberId

/-- What comes to pass unless there was an error before. -/
def unlessFailed {α : Type} : Option ReactiveError → List α → List α
  | none, later => later
  | some _, _ => []

@[simp] theorem unlessFailed_nil {α : Type} (error? : Option ReactiveError) :
    unlessFailed error? ([] : List α) = [] := by
  cases error? <;> rfl

/-- The fields after registrations were made one after another. -/
def enroll (fields : Array FieldCell) (ledger : List Registration) : Array FieldCell :=
  ledger.foldl (fun fields entry => fields.modify entry.1 fun cell =>
    { cell with registrations := cell.registrations ++ [entry.2] }) fields

/-- The subscribers that a ledger registers with a field, in order. -/
def registeredWith (field : FieldId) (ledger : List Registration) : List SubscriberId :=
  ledger.filterMap fun entry => if entry.1 = field then some entry.2 else none

theorem enroll_append (fields : Array FieldCell) (first second : List Registration) :
    enroll fields (first ++ second) = enroll (enroll fields first) second :=
  List.foldl_append

@[simp] theorem size_enroll (fields : Array FieldCell) (ledger : List Registration) :
    (enroll fields ledger).size = fields.size := by
  induction ledger generalizing fields with
  | nil => rfl
  | cons entry rest ih =>
      show (enroll (fields.modify entry.1 _) rest).size = fields.size
      rw [ih, Array.size_modify]

/-- Registrations change nothing but the list of the field they are made with. -/
theorem getElem?_enroll (fields : Array FieldCell) (ledger : List Registration)
    (field : FieldId) :
    (enroll fields ledger)[field]? = fields[field]?.map fun cell =>
      { cell with registrations := cell.registrations ++ registeredWith field ledger } := by
  induction ledger generalizing fields with
  | nil =>
      show fields[field]? = _
      cases fields[field]? <;> simp [registeredWith]
  | cons entry rest ih =>
      show (enroll (fields.modify entry.1 _) rest)[field]? = _
      rw [ih, Array.getElem?_modify]
      by_cases hfield : entry.1 = field
      · simp only [hfield, if_pos]
        cases fields[field]? <;> simp [registeredWith, hfield]
      · simp only [hfield, if_neg, not_false_eq_true]
        cases fields[field]? <;> simp [registeredWith, hfield]

/-! ## Stages -/

namespace Stage

/-- The error of a look at a key, if the object lacks it. -/
def missing? (s : Store σ) (object : ObjectId) (key : String) : Option ReactiveError :=
  match s.field? object key with
  | some _ => none
  | none => some (.unknownProperty key)

/-- The error of a stage, if it fails: a peek never does. -/
def error? (s : Store σ) : Stage σ → Option ReactiveError
  | get object key => missing? s object key
  | untracked object key => missing? s object key
  | peek _ _ => none
  | watch object key _ => missing? s object key

/-- The registrations that a stage makes: a tracked read registers the subscriber that is
collecting, and a construction registers the subscriber constructed. -/
def entries (s : Store σ) (collecting constructed : SubscriberId) : Stage σ → List Registration
  | get object key => ((s.field? object key).map (·, collecting)).toList
  | watch object key _ => ((s.field? object key).map (·, constructed)).toList
  | untracked _ _ => []
  | peek _ _ => []

/-- The subscriber that a stage makes. -/
def built : Stage σ → List (Subscriber σ)
  | watch object key callback => [⟨key, .ofObject object, callback⟩]
  | _ => []

/-- The registrations that stages make in order, up to the first that fails.  The next subscriber
to be constructed has the given name. -/
def ledger (s : Store σ) (collecting : SubscriberId) :
    SubscriberId → List (Stage σ) → List Registration
  | _, [] => []
  | next, stage :: rest =>
    stage.entries s collecting next ++
      unlessFailed (stage.error? s) (ledger s collecting (next + stage.built.length) rest)

/-- The subscribers that stages make in order, up to the first stage that fails. -/
def builtBy (s : Store σ) : List (Stage σ) → List (Subscriber σ)
  | [] => []
  | stage :: rest => stage.built ++ unlessFailed (stage.error? s) (builtBy s rest)

theorem findSome?_error_cons (s : Store σ) (stage : Stage σ) (rest : List (Stage σ)) :
    (stage :: rest).findSome? (error? s) = (stage.error? s).or (rest.findSome? (error? s)) := by
  rw [List.findSome?_cons]
  cases stage.error? s <;> rfl

theorem builtBy_append (s : Store σ) (first second : List (Stage σ)) :
    builtBy s (first ++ second) =
      builtBy s first ++ unlessFailed (first.findSome? (error? s)) (builtBy s second) := by
  induction first with
  | nil => rfl
  | cons stage rest ih =>
      simp only [List.cons_append, builtBy, List.findSome?_cons]
      cases stage.error? s with
      | none => simp [unlessFailed, ih]
      | some e => simp [unlessFailed]

theorem ledger_append (s : Store σ) (collecting next : SubscriberId)
    (first second : List (Stage σ)) :
    ledger s collecting next (first ++ second) =
      ledger s collecting next first ++ unlessFailed (first.findSome? (error? s))
        (ledger s collecting (next + (builtBy s first).length) second) := by
  induction first generalizing next with
  | nil => rfl
  | cons stage rest ih =>
      simp only [List.cons_append, ledger, builtBy, List.findSome?_cons]
      cases stage.error? s with
      | none => simp [unlessFailed, ih, Nat.add_assoc]
      | some e => simp [unlessFailed]

end Stage

/-! ## Stores that differ by registrations -/

/-- The store after differs from the one before by the registrations of a ledger, by subscribers
that were built, and by what was recorded. -/
structure Store.Enrolled (s t : Store σ) (ledger : List Registration)
    (built : List (Subscriber σ)) : Prop where
  fields : t.fields = enroll s.fields ledger
  objects : t.objects = s.objects
  subscribers : t.subscribers.toList = s.subscribers.toList ++ built
  active : t.active = s.active

namespace Store.Enrolled

variable {s t u : Store σ} {ledger later : List Registration} {built more : List (Subscriber σ)}

theorem refl (s : Store σ) : Enrolled s s [] [] := ⟨rfl, rfl, by simp, rfl⟩

theorem record (s : Store σ) (entry : Entry) : Enrolled s (s.record entry) [] [] :=
  ⟨rfl, rfl, by simp [Store.record], rfl⟩

theorem report (s : Store σ) (event : Event) : Enrolled s (s.report event) [] [] :=
  record s (.event event)

theorem register (s : Store σ) (field : FieldId) (subscriber : SubscriberId) :
    Enrolled s (s.register field subscriber) [(field, subscriber)] [] :=
  ⟨rfl, rfl, by simp [Store.register, Store.report, Store.record], rfl⟩

theorem subscribe (s : Store σ) (cell : Subscriber σ) :
    Enrolled s (s.subscribe cell) [] [cell] := by
  simp only [Store.subscribe]
  split
  · exact ⟨rfl, rfl, by simp [Store.report, Store.record], rfl⟩
  · exact ⟨rfl, rfl, by simp, rfl⟩

theorem trans (hst : Enrolled s t ledger built) (htu : Enrolled t u later more) :
    Enrolled s u (ledger ++ later) (built ++ more) where
  fields := by rw [htu.fields, hst.fields, enroll_append]
  objects := htu.objects.trans hst.objects
  subscribers := by rw [htu.subscribers, hst.subscribers, List.append_assoc]
  active := htu.active.trans hst.active

/-- Who is collecting meanwhile makes no difference if the slot is put back. -/
theorem collecting {subscriber : Option SubscriberId}
    (h : Enrolled (s.withActive subscriber) t ledger built) :
    Enrolled s (t.withActive s.active) ledger built :=
  ⟨h.fields, h.objects, h.subscribers, rfl⟩

theorem size_subscribers (h : Enrolled s t ledger built) :
    t.subscribers.size = s.subscribers.size + built.length := by
  rw [← Array.length_toList, h.subscribers, List.length_append, Array.length_toList]

theorem field? (h : Enrolled s t ledger built) (object : ObjectId) (key : String) :
    t.field? object key = s.field? object key := by
  unfold Store.field? Store.fieldsOf
  rw [h.objects]

theorem registrations (h : Enrolled s t ledger built) {field : FieldId}
    (hfield : field < s.fields.size) :
    t.registrations field = s.registrations field ++ registeredWith field ledger := by
  unfold Store.registrations
  rw [h.fields, getElem?_enroll, Array.getElem?_eq_getElem hfield]
  rfl

theorem registrations_of_nil (h : Enrolled s t [] built) (field : FieldId) :
    t.registrations field = s.registrations field := by
  unfold Store.registrations
  rw [h.fields]
  rfl

theorem getElem?_subscribers (h : Enrolled s t ledger built) {subscriber : SubscriberId}
    {cell : Subscriber σ} (hcell : s.subscribers[subscriber]? = some cell) :
    t.subscribers[subscriber]? = some cell :=
  getElem?_subscribers_of_isPrefix (h.subscribers ▸ List.prefix_append _ _) hcell

theorem get_of_active {collector : SubscriberId} (hactive : s.active = some collector)
    (field : FieldId) : Enrolled s (s.get field).1 [(field, collector)] [] := by
  have htrack : (s.get field).1 =
      (s.report (.gotten (s.fieldKey field))).register field collector := by
    simp only [Store.get, Store.track, Store.report, Store.record, hactive]
  rw [htrack]
  exact (report s _).trans (register _ field collector)

theorem get_of_idle (hactive : s.active = none) (field : FieldId) :
    Enrolled s (s.get field).1 [] [] := by
  have htrack : (s.get field).1 = s.report (.gotten (s.fieldKey field)) := by
    simp only [Store.get, Store.track, Store.report, Store.record, hactive]
  rw [htrack]
  exact report s _

end Store.Enrolled

/-! ## Running stages -/

namespace Engine

open Session

variable {recompute : SubscriberId → ReactiveSession σ Value}

/-- The outcome of what fails with an error, if there is one, and else gives a value. -/
def outcomeOf {ε α : Type} (a : α) : Option ε → Except ε α
  | none => .ok a
  | some e => .error e

/-- Constructing a subscriber makes the registrations that its read makes with the new subscriber
collecting, and ends as the read ends. -/
theorem construct_enrolled (source : Source σ) (key : String) (callback : Value → Routine σ)
    {read : ReactiveSession σ Value} {s : Store σ} {ledger : List Registration}
    {built : List (Subscriber σ)} {error? : Option ReactiveError}
    (hread : ∀ u : Store σ, u.objects = s.objects → u.active = some s.subscribers.size →
      u.subscribers.size = s.subscribers.size + 1 →
      ∃ value t, read u = some (outcomeOf value error?, t) ∧ u.Enrolled t ledger built) :
    ∃ t, construct source key callback read s = some (outcomeOf s.subscribers.size error?, t) ∧
      s.Enrolled t ledger (⟨key, source, callback⟩ :: built) := by
  -- The new subscriber is there, and in the slot, before its key is read.
  let entered := s.subscribe ⟨key, source, callback⟩
  have hentered : s.Enrolled entered [] [⟨key, source, callback⟩] := .subscribe s _
  obtain ⟨value, after, hafter, henrolled⟩ :=
    hread (entered.withActive (some s.subscribers.size)) hentered.objects rfl
      hentered.size_subscribers
  have hsofar : s.Enrolled (after.withActive s.active) ledger
      (⟨key, source, callback⟩ :: built) := by
    rw [← Store.subscribe_active s ⟨key, source, callback⟩]
    exact hentered.trans (.collecting henrolled)
  cases error? with
  | none =>
      refine ⟨_, construct_eq_some.2 ⟨_, _, hafter, .inl ⟨value, rfl, rfl, rfl⟩⟩, ?_⟩
      simpa only [List.append_nil] using hsofar.trans (.report _ (.created key))
  | some e => exact ⟨_, construct_eq_some.2 ⟨_, _, hafter, .inr ⟨e, rfl, rfl, rfl⟩⟩, hsofar⟩

/-- A routine ends with the given error, if any, and makes the registrations of a ledger. -/
def Makes (recompute : SubscriberId → ReactiveSession σ Value) (routine : Routine σ) (s : Store σ)
    (error? : Option ReactiveError) (ledger : List Registration) (built : List (Subscriber σ)) :
    Prop :=
  ∃ value t, runWith recompute routine s = some (outcomeOf value error?, t) ∧
    s.Enrolled t ledger built

/-- What follows a routine makes its registrations behind those of the routine, unless it fails. -/
theorem Makes.bind {routine : Routine σ} {next : Value → Routine σ} {s : Store σ}
    {error? later? : Option ReactiveError} {ledger later : List Registration}
    {built more : List (Subscriber σ)} (hfirst : Makes recompute routine s error? ledger built)
    (hnext : ∀ value t, s.Enrolled t ledger built →
      Makes recompute (next value) t later? later more) :
    Makes recompute (routine.bind next) s (error?.or later?)
      (ledger ++ unlessFailed error? later) (built ++ unlessFailed error? more) := by
  obtain ⟨value, t, hrun, henrolled⟩ := hfirst
  cases error? with
  | none =>
      obtain ⟨last, u, hlast, hlater⟩ := hnext value t henrolled
      refine ⟨last, u, ?_, henrolled.trans hlater⟩
      rw [runWith_bind]
      exact bind_eq_some.2 (.inl ⟨value, t, hrun, hlast⟩)
  | some e =>
      refine ⟨value, t, ?_, by simpa [unlessFailed] using henrolled⟩
      rw [runWith_bind]
      exact bind_eq_some.2 (.inr ⟨e, hrun, rfl⟩)

/-- A value that a routine ends with in place of its own changes nothing else. -/
theorem Makes.andThen_done {routine : Routine σ} {s : Store σ} {error? : Option ReactiveError}
    {ledger : List Registration} {built : List (Subscriber σ)}
    (h : Makes recompute routine s error? ledger built) (value : Value) :
    Makes recompute (routine.andThen (.done value)) s error? ledger built := by
  have hvalue (_ : Value) (t : Store σ) (_ : s.Enrolled t ledger built) :
      Makes recompute (.done value) t none [] [] := ⟨value, t, rfl, .refl t⟩
  rw [Routine.andThen]
  simpa only [unlessFailed_nil, List.append_nil, Option.or_none] using h.bind hvalue

variable (recompute)

/-- A stage, run while a subscriber is collecting, makes its registrations. -/
theorem makes_stage (stage : Stage σ) {s u : Store σ} {collector : SubscriberId}
    (hobjects : u.objects = s.objects) (hactive : u.active = some collector) :
    Makes recompute stage.routine u (stage.error? s)
      (stage.entries s collector u.subscribers.size) stage.built := by
  have hfield (v : Store σ) (hv : v.objects = s.objects) (object : ObjectId) (key : String) :
      v.field? object key = s.field? object key := by
    unfold Store.field? Store.fieldsOf
    rw [hv]
  cases stage with
  | get object key =>
      simp only [Makes, Stage.routine, runWith_read, hfield u hobjects, Stage.entries,
        Stage.error?, Stage.missing?, Stage.built]
      cases s.field? object key with
      | none => exact ⟨.null, _, rfl, .refl u⟩
      | some field => exact ⟨_, _, rfl, .get_of_active hactive field⟩
  | untracked object key =>
      have hread : runWith recompute ((Source.ofObject object).read key) (u.withActive none) = _ :=
        runWith_read object key _
      simp only [hfield (u.withActive none) hobjects] at hread
      simp only [Stage.entries, Stage.error?, Stage.missing?, Stage.built]
      cases hkey : s.field? object key with
      | none =>
          simp only [hkey] at hread
          exact ⟨.null, u,
            followedBy_eq_some.2 ⟨_, _, collecting_eq_some.2 ⟨_, hread, rfl⟩, rfl⟩, .refl u⟩
      | some field =>
          simp only [hkey] at hread
          exact ⟨_, _, followedBy_eq_some.2 ⟨_, _, collecting_eq_some.2 ⟨_, hread, rfl⟩, rfl⟩,
            .collecting (.get_of_idle rfl field)⟩
  | peek object key =>
      simp only [Makes, Stage.routine, runWith, Store.perform, Stage.entries, Stage.error?,
        Stage.built]
      cases u.field? object key with
      | none => exact ⟨_, _, rfl, .refl u⟩
      | some field => exact ⟨_, _, rfl, .refl u⟩
  | watch object key callback =>
      -- The nested construction has a collector of its own: the subscriber that is constructed.
      have hread (v : Store σ) (hv : v.objects = u.objects)
          (hcollecting : v.active = some u.subscribers.size) :
          Makes recompute ((Source.ofObject object).read key) v (Stage.missing? s object key)
            ((s.field? object key).map (·, u.subscribers.size)).toList [] := by
        rw [Makes, runWith_read, hfield v (hv.trans hobjects), Stage.missing?]
        cases s.field? object key with
        | none => exact ⟨.null, _, rfl, .refl v⟩
        | some field => exact ⟨_, _, rfl, .get_of_active hcollecting field⟩
      obtain ⟨t, hconstruct, henrolled⟩ := construct_enrolled (Source.ofObject object) key callback
        fun v hv hcollecting _ => hread v hv hcollecting
      refine ⟨.null, t, followedBy_eq_some.2 ⟨_, _, hconstruct, ?_⟩, henrolled⟩
      show runWith recompute _ t = some (outcomeOf .null (Stage.missing? s object key), t)
      cases Stage.missing? s object key <;> rfl

/-- Induction on the stages.  Looks at keys answer as they did in the beginning, and who is
collecting is so again after each stage. -/
theorem makes_stages (stages : List (Stage σ)) {s u : Store σ} {collector : SubscriberId}
    (hobjects : u.objects = s.objects) (hactive : u.active = some collector) :
    Makes recompute (.inOrder (stages.map Stage.routine)) u (stages.findSome? (Stage.error? s))
      (Stage.ledger s collector u.subscribers.size stages) (Stage.builtBy s stages) := by
  induction stages generalizing u with
  | nil => exact ⟨.null, u, rfl, .refl u⟩
  | cons stage rest ih =>
      have hstage := makes_stage recompute stage hobjects hactive
      have hsequence := hstage.bind fun _ t henrolled => by
        have hrest := ih (henrolled.objects.trans hobjects) (henrolled.active.trans hactive)
        rwa [henrolled.size_subscribers] at hrest
      rw [Stage.findSome?_error_cons]
      exact hsequence

/-- A read of a source with stages around its own read makes the registrations of all of them, its
own read being a tracked one among them. -/
theorem makes_around (before after : List (Stage σ)) (object : ObjectId) (key : String)
    {s u : Store σ} {collector : SubscriberId} (hobjects : u.objects = s.objects)
    (hactive : u.active = some collector) :
    Makes recompute ((Source.around (before.map Stage.routine) (after.map Stage.routine)
        (.ofObject object)).read key) u
      ((before ++ .get object key :: after).findSome? (Stage.error? s))
      (Stage.ledger s collector u.subscribers.size (before ++ .get object key :: after))
      (Stage.builtBy s (before ++ .get object key :: after)) := by
  have hbefore := makes_stages recompute before hobjects hactive
  rw [List.findSome?_append, Stage.findSome?_error_cons, Stage.ledger_append,
    Stage.builtBy_append]
  refine hbefore.bind fun _ t hfirst => ?_
  -- The stages before have put the slot back, so the own read registers the collector too.
  have hobjects' := hfirst.objects.trans hobjects
  have hactive' := hfirst.active.trans hactive
  rw [← hfirst.size_subscribers]
  have hown := makes_stage recompute (.get object key) hobjects' hactive'
  refine hown.bind fun value v hsecond => ?_
  have hafter := makes_stages recompute after
    (hsecond.objects.trans hobjects') (hsecond.active.trans hactive')
  rw [hsecond.size_subscribers] at hafter
  exact hafter.andThen_done value

/-- Constructing a subscriber on a source with stages around its own read appends to each field, in
order, the new subscriber for each tracked read among the stages and each subscriber constructed on
the way for its own read, up to the first stage that fails, and nothing else.  Whoever was
collecting before is so again. -/
theorem watch_registrations (limit : Nat) (before after : List (Stage σ)) (object : ObjectId)
    (key : String) (callback : Value → Routine σ) (s : Store σ) :
    let source := Source.around (before.map Stage.routine) (after.map Stage.routine)
      (.ofObject object)
    let self := s.subscribers.size
    let stages := before ++ .get object key :: after
    ∃ t, watch limit source key callback s =
        some (outcomeOf self (stages.findSome? (Stage.error? s)), t) ∧
      (∀ field < s.fields.size, t.registrations field =
        s.registrations field ++ registeredWith field (Stage.ledger s self (self + 1) stages)) ∧
      t.fields.size = s.fields.size ∧
      t.subscribers.toList =
        s.subscribers.toList ++ ⟨key, source, callback⟩ :: Stage.builtBy s stages ∧
      t.active = s.active := by
  intro source self stages
  obtain ⟨t, hconstruct, henrolled⟩ :=
    construct_enrolled source key callback fun u hobjects hactive hsize => by
      have hread := makes_around (recompute limit) before after object key hobjects hactive
      rwa [hsize] at hread
  refine ⟨t, hconstruct, fun field hfield => henrolled.registrations hfield, ?_,
    henrolled.subscribers, henrolled.active⟩
  rw [henrolled.fields, size_enroll]

end Engine

end LiveTemplate
