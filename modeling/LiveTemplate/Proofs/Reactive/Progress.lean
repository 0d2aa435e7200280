import LiveTemplate.Proofs.Session

/-!
# What every run keeps

A relation between the store before and the store after that holds over each primitive step, and
that can be followed through, holds over every run.  The engine is taken apart here once, so that a
property of whole runs only has to be checked on primitive steps.
-/

namespace LiveTemplate

variable {σ ε ε' α β : Type}

/-- A relation between the store before and after that holds over making objects and fields. -/
structure ObserveProgress (R : Store σ → Store σ → Prop) : Prop where
  refl (s : Store σ) : R s s
  trans {s t u : Store σ} : R s t → R t u → R s u
  record (s : Store σ) (entry : Entry) : R s (s.record entry)
  newObject (s : Store σ) (policy : NotifyPolicy) : R s (s.newObject policy).1
  newArray (s : Store σ) (items : List Json) : R s (s.newArray items).1
  define (s : Store σ) (object : ObjectId) (key : String) (value : Value) :
    R s (s.define object key value).1

/-- A relation between the store before and after that every operation keeps which runs no other
routine. -/
structure RequestProgress (R : Store σ → Store σ → Prop) : Prop extends ObserveProgress R where
  register (s : Store σ) (field : FieldId) (subscriber : SubscriberId) :
    R s (s.register field subscriber)
  edit (s : Store σ) (change : Dom → Dom) : R s { s with dom := change s.dom }
  share (s : Store σ) (change : σ → σ) : R s { s with shared := change s.shared }

/-- A relation between the store before and after that is passed on by what the engine does of its
own accord: it follows one session with another, reports and lets subscribers collect. -/
structure Passage (R : Store σ → Store σ → Prop) : Prop where
  refl (s : Store σ) : R s s
  trans {s t u : Store σ} : R s t → R t u → R s u
  record (s : Store σ) (entry : Entry) : R s (s.record entry)
  collecting {s t : Store σ} (subscriber : Option SubscriberId) :
    R (s.withActive subscriber) t → R s (t.withActive s.active)

/-- A relation between the store before and after that every primitive step keeps. -/
structure Progress (R : Store σ → Store σ → Prop) : Prop extends RequestProgress R, Passage R where
  assign (s : Store σ) (field : FieldId) (value : Value) : R s (s.assign field value)
  push (s : Store σ) (cell : Subscriber σ) :
    R s { s with subscribers := s.subscribers.push cell }

namespace ObserveProgress

variable {R : Store σ → Store σ → Prop}

theorem report (hR : ObserveProgress R) (s : Store σ) (event : Event) : R s (s.report event) :=
  hR.record s (.event event)

/-- Data is made reactive by making objects and arrays and by defining fields. -/
theorem observe_and_observeMembers (hR : ObserveProgress R) (policy : NotifyPolicy) :
    (∀ (s : Store σ) (json : Json), R s (s.observe policy json).1) ∧
      ∀ (s : Store σ) (object : ObjectId) (members : List (String × Json)),
        R s (s.observeMembers policy object members) := by
  refine Store.observe.mutual_induct policy (fun s json => R s (s.observe policy json).1)
    (fun s object members => R s (s.observeMembers policy object members))
    ?null ?bool ?number ?string ?array ?object ?nil ?cons
  case null => exact fun s => hR.refl s
  case bool => exact fun s _ => hR.refl s
  case number => exact fun s _ => hR.refl s
  case string => exact fun s _ => hR.refl s
  case array => exact fun s items => hR.newArray s items
  case object =>
    intro s members s₁ object hnew ih
    have hfirst : R s s₁ := by simpa only [hnew] using hR.newObject s policy
    simpa only [Store.observe, hnew] using hR.trans hfirst ih
  case nil =>
    intro s object
    simpa only [Store.observeMembers] using hR.refl s
  case cons =>
    intro s object key json rest s₁ value hobserve s₂ field hdefine ihjson ihrest
    have hfirst : R s s₁ := by simpa only [hobserve] using ihjson
    have hsecond : R s₁ s₂ := by simpa only [hdefine] using hR.define s₁ object key value
    simpa only [Store.observeMembers, hobserve, hdefine] using
      hR.trans hfirst (hR.trans hsecond ihrest)

theorem observe (hR : ObserveProgress R) (policy : NotifyPolicy) (s : Store σ) (json : Json) :
    R s (s.observe policy json).1 :=
  (hR.observe_and_observeMembers policy).1 s json

theorem observeMembers (hR : ObserveProgress R) (policy : NotifyPolicy) (s : Store σ)
    (object : ObjectId) (members : List (String × Json)) :
    R s (s.observeMembers policy object members) :=
  (hR.observe_and_observeMembers policy).2 s object members

end ObserveProgress

/-- Observing data adds no nodes. -/
theorem ObserveProgress.sameDom : ObserveProgress fun s t : Store σ => t.dom = s.dom where
  refl _ := rfl
  trans hst htu := htu.trans hst
  record _ _ := rfl
  newObject _ _ := rfl
  newArray _ _ := rfl
  define _ _ _ _ := rfl

namespace RequestProgress

variable {R : Store σ → Store σ → Prop}

theorem get (hR : RequestProgress R) (s : Store σ) (field : FieldId) : R s (s.get field).1 := by
  refine hR.trans (hR.report s (.gotten (s.fieldKey field))) ?_
  unfold Store.get Store.track
  split
  · exact hR.register _ _ _
  · exact hR.refl _

theorem perform (hR : RequestProgress R) (s : Store σ) (request : Request σ) :
    R s (s.perform request).1 := by
  cases request with
  | get field => exact hR.get s field
  | define object key value => exact hR.define s object key value
  | observe json policy => exact hR.observe policy s json
  | register field subscriber => exact hR.register s field subscriber
  | report event => exact hR.report s event
  | log text => exact hR.record s (.line text)
  | edit change => exact hR.edit s change
  | share change => exact hR.share s change
  | _ => exact hR.refl s

end RequestProgress

/-- No operation constructs a subscriber. -/
theorem RequestProgress.sameSubscribers :
    RequestProgress fun s t : Store σ => t.subscribers = s.subscribers where
  refl _ := rfl
  trans hst htu := htu.trans hst
  record _ _ := rfl
  newObject _ _ := rfl
  newArray _ _ := rfl
  define _ _ _ _ := rfl
  register _ _ _ := rfl
  edit _ _ := rfl
  share _ _ := rfl

theorem Store.perform_subscribers (s : Store σ) (r : Request σ) :
    (s.perform r).1.subscribers = s.subscribers :=
  RequestProgress.sameSubscribers.perform s r

theorem Passage.report {R : Store σ → Store σ → Prop} (hR : Passage R) (s : Store σ)
    (event : Event) : R s (s.report event) :=
  hR.record s (.event event)

theorem Passage.subscribe {R : Store σ → Store σ → Prop} (hR : Passage R) {cell : Subscriber σ}
    (hpush : ∀ s : Store σ, R s { s with subscribers := s.subscribers.push cell })
    (s : Store σ) : R s (s.subscribe cell) := by
  simp only [Store.subscribe]
  split
  · exact hR.trans (hpush s) (hR.report _ _)
  · exact hpush s

namespace Session

/-- Whatever outcome a session has, the stores before and after it are related. -/
def Keeps (R : Store σ → Store σ → Prop) (session : Session σ ε α) : Prop :=
  ∀ s outcome t, session s = some (outcome, t) → R s t

namespace Keeps

variable {R : Store σ → Store σ → Prop}

theorem pure (hR : Passage R) (a : α) : Keeps R (Pure.pure a : Session σ ε α) := by
  intro s outcome t h
  obtain ⟨-, rfl⟩ := Prod.mk.inj (pure_eq_some.1 h)
  exact hR.refl s

theorem throw (hR : Passage R) (e : ε) : Keeps R (MonadExcept.throw e : Session σ ε α) := by
  intro s outcome t h
  obtain ⟨-, rfl⟩ := Prod.mk.inj (throw_eq_some.1 h)
  exact hR.refl s

theorem followedBy (hR : Passage R) {session : Session σ ε α}
    {next : Except ε α → Session σ ε' β} (hsession : Keeps R session)
    (hnext : ∀ outcome, Keeps R (next outcome)) : Keeps R (session.followedBy next) := by
  intro s outcome u h
  obtain ⟨first, t, hs, ht⟩ := followedBy_eq_some.1 h
  exact hR.trans (hsession s first t hs) (hnext first t outcome u ht)

theorem bind (hR : Passage R) {session : Session σ ε α} {next : α → Session σ ε β}
    (hsession : Keeps R session) (hnext : ∀ a, Keeps R (next a)) :
    Keeps R (session >>= next) := by
  rw [bind_eq_followedBy]
  refine followedBy hR hsession fun outcome => ?_
  cases outcome with
  | ok a => exact hnext a
  | error e => exact throw hR e

theorem collecting (hR : Passage R) {session : Session σ ε α}
    (subscriber : Option SubscriberId) (hsession : Keeps R session) :
    Keeps R (Session.collecting subscriber session) := by
  intro s outcome t h
  obtain ⟨after, hafter, rfl⟩ := collecting_eq_some.1 h
  exact hR.collecting subscriber (hsession _ _ _ hafter)

end Keeps

end Session

namespace Passage

open Session Engine

variable {R : Store σ → Store σ → Prop} {recompute : SubscriberId → ReactiveSession σ Value}

theorem notifyFailFast (hR : Passage R) (hrecompute : ∀ i, Keeps R (recompute i))
    (subscribers : List SubscriberId) : Keeps R (Engine.notifyFailFast recompute subscribers) := by
  induction subscribers with
  | nil => exact Keeps.pure hR _
  | cons subscriber rest ih => exact Keeps.bind hR (hrecompute subscriber) fun _ => ih

theorem collectFailures (hR : Passage R) (hrecompute : ∀ i, Keeps R (recompute i))
    (subscribers : List SubscriberId) :
    Keeps R (Engine.collectFailures recompute subscribers) := by
  induction subscribers with
  | nil => exact Keeps.pure hR _
  | cons subscriber rest ih =>
      refine Keeps.followedBy hR (hrecompute subscriber) fun outcome => ?_
      cases outcome with
      | ok _ => exact ih
      | error e =>
          refine Keeps.bind hR ?_ fun _ => Keeps.bind hR ih fun _ => Keeps.pure hR _
          intro s outcome t h
          obtain ⟨-, rfl⟩ := Prod.mk.inj (Option.some.inj h)
          exact hR.report s _

theorem notifyIsolated (hR : Passage R) (hrecompute : ∀ i, Keeps R (recompute i))
    (subscribers : List SubscriberId) : Keeps R (Engine.notifyIsolated recompute subscribers) := by
  refine Keeps.bind hR (hR.collectFailures hrecompute subscribers) fun failures => ?_
  split
  · exact Keeps.pure hR _
  · exact Keeps.throw hR _

theorem notify (hR : Passage R) (hrecompute : ∀ i, Keeps R (recompute i)) (field : FieldId) :
    Keeps R (Engine.notify recompute field) := by
  intro s outcome t h
  cases hcell : s.fields[field]? with
  | none =>
      rw [notify_of_none hcell] at h
      obtain ⟨-, rfl⟩ := Prod.mk.inj (Option.some.inj h)
      exact hR.refl s
  | some cell =>
      refine hR.trans (hR.report s (.notified cell.registrations.length)) ?_
      cases hpolicy : cell.policy with
      | failFast =>
          rw [notify_of_failFast hcell hpolicy] at h
          exact hR.notifyFailFast hrecompute _ _ _ _ h
      | isolate =>
          rw [notify_of_isolate hcell hpolicy] at h
          exact hR.notifyIsolated hrecompute _ _ _ _ h

/-- A write keeps what storing its value keeps. -/
theorem set (hR : Passage R) (hrecompute : ∀ i, Keeps R (recompute i)) (field : FieldId)
    {value : Value} (hassign : ∀ s : Store σ, R s (s.assign field value)) :
    Keeps R (Engine.set recompute field value) := fun s _ _ h =>
  hR.trans (hassign s) (hR.notify hrecompute field _ _ _ h)

/-- The construction of a subscriber keeps what adding it keeps. -/
theorem construct (hR : Passage R) {source : Source σ} {key : String}
    {callback : Value → Routine σ}
    (hpush : ∀ s : Store σ,
      R s { s with subscribers := s.subscribers.push ⟨key, source, callback⟩ })
    {read : ReactiveSession σ Value} (hread : Keeps R read) :
    Keeps R (Engine.construct source key callback read) := by
  intro s outcome t h
  obtain ⟨first, after, hafter, hlast⟩ := construct_eq_some.1 h
  -- The new subscriber collects within the read only; what relates the stores is the whole of it.
  have hcollected : R (s.subscribe ⟨key, source, callback⟩) (after.withActive s.active) := by
    refine Keeps.collecting hR (some s.subscribers.size) hread _ first _ ?_
    exact collecting_eq_some.2 ⟨after, hafter, by rw [Store.subscribe_active]⟩
  have hentered := hR.trans (hR.subscribe hpush s) hcollected
  rcases hlast with ⟨value, -, -, rfl⟩ | ⟨e, -, -, rfl⟩
  · exact hR.trans hentered (hR.report _ _)
  · exact hentered

end Passage

namespace Engine

open Session

variable {R : Store σ → Store σ → Prop} {recompute : SubscriberId → ReactiveSession σ Value}

theorem notify_keeps (hR : Progress R) (hrecompute : ∀ i, Keeps R (recompute i))
    (field : FieldId) : Keeps R (notify recompute field) :=
  hR.notify hrecompute field

/-- A routine keeps what recomputations and primitive steps keep. -/
theorem runWith_keeps (hR : Progress R) (hrecompute : ∀ i, Keeps R (recompute i))
    (routine : Routine σ) : Keeps R (runWith recompute routine) := by
  have hpass := hR.toPassage
  induction routine with
  | done value => exact Keeps.pure hpass value
  | fail error => exact Keeps.throw hpass error
  | request r next ih =>
      intro s outcome t h
      exact hR.trans (hR.perform s r) (ih _ _ _ _ h)
  | untracked body next ihbody ih =>
      exact Keeps.followedBy hpass (Keeps.collecting hpass none ihbody) ih
  | watch read write key callback next ihread _ _ ih =>
      exact Keeps.followedBy hpass (hpass.construct (fun s => hR.push s _) (ihread key)) ih
  | set field value next ih =>
      exact Keeps.followedBy hpass
        (hpass.set hrecompute field fun s => hR.assign s field value) ih
  | notify field next ih =>
      exact Keeps.followedBy hpass (hpass.notify hrecompute field) ih
  | recompute subscriber next ih =>
      exact Keeps.followedBy hpass (hrecompute subscriber) ih

/-- Induction on the nesting: one recomputation is a routine over recomputations nested less. -/
theorem recompute_keeps (hR : Progress R) (fuel : Nat) (subscriber : SubscriberId) :
    Keeps R (Engine.recompute fuel subscriber) := by
  induction fuel generalizing subscriber with
  | zero =>
      intro s outcome t h
      cases h
  | succ fuel ih =>
      intro s outcome t h
      cases hcell : s.subscribers[subscriber]? with
      | none =>
          rw [recompute_succ_of_none hcell] at h
          obtain ⟨-, rfl⟩ := Prod.mk.inj (Option.some.inj h)
          exact hR.refl s
      | some cell =>
          rw [recompute_succ_of_some hcell] at h
          exact runWith_keeps hR ih _ _ _ _ h

theorem run_keeps (hR : Progress R) (fuel : Nat) (routine : Routine σ) :
    Keeps R (run fuel routine) :=
  runWith_keeps hR (recompute_keeps hR fuel) routine

theorem watch_keeps (hR : Progress R) (fuel : Nat) (source : Source σ) (key : String)
    (callback : Value → Routine σ) : Keeps R (watch fuel source key callback) :=
  hR.construct (fun s => hR.push s _) (run_keeps hR fuel _)

end Engine

end LiveTemplate
