import LiveTemplate.Proofs.Session
import LiveTemplate.Reactive.Source

/-!
# Running routines in sequence

To run a routine and what follows it is to run the routine and then what follows.  A recomputation
of a registered subscriber is a read followed by its callback.
-/

namespace LiveTemplate

variable {σ ε ε' ε'' α β γ : Type}

theorem Session.followedBy_assoc (session : Session σ ε α) (next : Except ε α → Session σ ε' β)
    (last : Except ε' β → Session σ ε'' γ) :
    (session.followedBy next).followedBy last =
      session.followedBy fun outcome => (next outcome).followedBy last := by
  funext s
  simp only [followedBy]
  cases session s with
  | none => rfl
  | some first => rfl

namespace Engine

open Session

variable {recompute : SubscriberId → ReactiveSession σ Value}

theorem runWith_request (r : Request σ) (next : r.Answer → Routine σ) (s : Store σ) :
    runWith recompute (.request r next) s =
      runWith recompute (next (s.perform r).2) (s.perform r).1 := rfl

theorem runWith_followedBy (routine : Routine σ)
    (next : Except ReactiveError Value → Routine σ) :
    runWith recompute (routine.followedBy next) =
      (runWith recompute routine).followedBy fun outcome => runWith recompute (next outcome) := by
  induction routine with
  | done value => rfl
  | fail error => rfl
  | request r k ih =>
      funext s
      exact congrFun (ih (s.perform r).2) (s.perform r).1
  | untracked body k _ ih =>
      simp only [Routine.followedBy, runWith, followedBy_assoc, ih]
  | watch read write key callback k _ _ _ ih =>
      simp only [Routine.followedBy, runWith, followedBy_assoc, ih]
  | set field value k ih =>
      simp only [Routine.followedBy, runWith, followedBy_assoc, ih]
  | notify field k ih =>
      simp only [Routine.followedBy, runWith, followedBy_assoc, ih]
  | recompute subscriber k ih =>
      simp only [Routine.followedBy, runWith, followedBy_assoc, ih]

theorem runWith_bind (routine : Routine σ) (next : Value → Routine σ) :
    runWith recompute (routine.bind next) =
      runWith recompute routine >>= fun value => runWith recompute (next value) := by
  rw [Routine.bind, runWith_followedBy, bind_eq_followedBy]
  congr 1
  funext outcome
  cases outcome <;> rfl

/-- To hand an outcome on is to do nothing more. -/
theorem followedBy_ofExcept (session : ReactiveSession σ Value) :
    (session.followedBy fun outcome => runWith recompute (.ofExcept outcome)) = session := by
  funext s
  unfold Session.followedBy
  cases session s with
  | none => rfl
  | some result =>
      obtain ⟨outcome, t⟩ := result
      cases outcome <;> rfl

theorem runWith_setField (field : FieldId) (value : Value) :
    runWith recompute (.setField field value) = set recompute field value :=
  followedBy_ofExcept _

theorem runWith_notify (field : FieldId) :
    runWith recompute (.notify field .ofExcept) = notify recompute field :=
  followedBy_ofExcept _

/-! ## Reading keys -/

/-- A tracked read of an object, with whoever is collecting. -/
theorem runWith_read (object : ObjectId) (key : String) (s : Store σ) :
    runWith recompute ((Source.ofObject object).read key) s =
      match s.field? object key with
      | some field => some (.ok (s.get field).2, (s.get field).1)
      | none => some (.error (.unknownProperty key), s) := by
  simp only [Source.ofObject, Source.withField, runWith, Store.perform]
  cases s.field? object key <;> rfl

/-- The store after a look at the table of forwarded keys. -/
def noted (s : Store σ) (forwarded : List String) (key : String) : Store σ :=
  if forwarded.contains key then s else s.report (.forwardMiss key)

/-- A tracked read through a table of forwarded keys, with whoever is collecting. -/
theorem runWith_read_forwarding (forwarded : List String) (object : ObjectId) (key : String)
    (s : Store σ) :
    runWith recompute ((Source.forwarding forwarded object).read key) s =
      match s.field? object key with
      | some field =>
        some (.ok ((noted s forwarded key).get field).2, ((noted s forwarded key).get field).1)
      | none => some (.error (.unknownProperty key), noted s forwarded key) := by
  have hlook : (noted s forwarded key).field? object key = s.field? object key := by
    unfold noted
    split <;> rfl
  have hread : ((Source.forwarding forwarded object).read key : Routine σ) =
      (Source.reportMiss forwarded key).bind fun _ => (Source.ofObject object).read key :=
    rfl
  rw [← hlook, ← runWith_read, hread, runWith_bind]
  unfold Source.reportMiss noted
  split <;> rfl

/-- The store after a tracked read through a table of forwarded keys. -/
def sighted (s : Store σ) (forwarded : List String) (key : String) (field : FieldId) :
    Store σ × Value :=
  (noted s forwarded key).get field

/-- The store after a tracked read whose value goes into nodes. -/
def painted (s : Store σ) (forwarded : List String) (key : String) (field : FieldId)
    (change : Value → Dom → Dom) : Store σ :=
  let first := sighted s forwarded key field
  { first.1 with dom := change first.2 first.1.dom }

/-- A read that goes into nodes succeeds if the key is there. -/
theorem runWith_paint (forwarded : List String) (object : ObjectId) (key : String)
    (change : Value → Dom → Dom) (s : Store σ) :
    runWith recompute (((Source.forwarding forwarded object).read key).bind
        fun value => .edit (change value)) s =
      match s.field? object key with
      | some field => some (.ok .null, painted s forwarded key field change)
      | none => some (.error (.unknownProperty key), noted s forwarded key) := by
  have hread : runWith recompute ((Source.forwarding forwarded object).read key) s = _ :=
    runWith_read_forwarding forwarded object key s
  rw [runWith_bind, bind_eq_followedBy]
  unfold Session.followedBy
  rw [hread]
  cases s.field? object key <;> rfl

/-! ## Notifications that go on behind failures -/

theorem collectFailures_cons {subscriber : SubscriberId} {rest : List SubscriberId}
    {s t : Store σ} {outcome : Except ReactiveError (List ReactiveError)}
    (h : collectFailures recompute (subscriber :: rest) s = some (outcome, t)) :
    (∃ value u, recompute subscriber s = some (.ok value, u) ∧
      collectFailures recompute rest u = some (outcome, t)) ∨
    ∃ e u later, recompute subscriber s = some (.error e, u) ∧
      collectFailures recompute rest
        (u.report (.notifyFailed (u.subscriberKey subscriber) e.message)) = some (later, t) ∧
      outcome = later.map (e :: ·) := by
  obtain ⟨first, u, hu, hrest⟩ := followedBy_eq_some.1 h
  cases first with
  | ok value => exact .inl ⟨value, u, hu, hrest⟩
  | error e =>
      refine .inr ⟨e, u, ?_⟩
      rcases bind_eq_some.1 hrest with ⟨_, v, hv, hcollect⟩ | ⟨_, hreport, -⟩
      · obtain ⟨-, rfl⟩ := Prod.mk.inj (Option.some.inj hv)
        rcases bind_eq_some.1 hcollect with ⟨failures, w, hw, hlast⟩ | ⟨e', hw, rfl⟩
        · obtain ⟨rfl, rfl⟩ := Prod.mk.inj (pure_eq_some.1 hlast)
          exact ⟨_, hu, hw, rfl⟩
        · exact ⟨_, hu, hw, rfl⟩
      · cases hreport

theorem collectFailures_ok {subscribers : List SubscriberId} {s t : Store σ}
    {outcome : Except ReactiveError (List ReactiveError)}
    (h : collectFailures recompute subscribers s = some (outcome, t)) :
    ∃ failures, outcome = .ok failures := by
  induction subscribers generalizing s outcome with
  | nil =>
      obtain ⟨rfl, -⟩ := Prod.mk.inj (pure_eq_some.1 h)
      exact ⟨[], rfl⟩
  | cons subscriber rest ih =>
      rcases collectFailures_cons h with ⟨_, u, -, hrest⟩ | ⟨e, u, later, -, hrest, rfl⟩
      · exact ih hrest
      · obtain ⟨failures, rfl⟩ := ih hrest
        exact ⟨e :: failures, rfl⟩

/-- How a notification ends that goes on behind failures. -/
def outcomeOfFailures (failures : List ReactiveError) : Except ReactiveError Value :=
  if failures.isEmpty then .ok .null else .error (.cascade failures)

theorem notifyIsolated_eq_some {subscribers : List SubscriberId} {s t : Store σ}
    {outcome : Except ReactiveError Value}
    (h : notifyIsolated recompute subscribers s = some (outcome, t)) :
    ∃ failures, collectFailures recompute subscribers s = some (.ok failures, t) ∧
      outcome = outcomeOfFailures failures := by
  rcases bind_eq_some.1 h with ⟨failures, u, hu, hlast⟩ | ⟨e, he, -⟩
  · refine ⟨failures, ?_⟩
    unfold outcomeOfFailures
    split at hlast
    · next hempty =>
        obtain ⟨rfl, rfl⟩ := Prod.mk.inj (pure_eq_some.1 hlast)
        exact ⟨hu, by rw [if_pos hempty]⟩
    · next hfailed =>
        obtain ⟨rfl, rfl⟩ := Prod.mk.inj (throw_eq_some.1 hlast)
        exact ⟨hu, by rw [if_neg hfailed]⟩
  · obtain ⟨_, habsurd⟩ := collectFailures_ok he
    cases habsurd

end Engine

end LiveTemplate
