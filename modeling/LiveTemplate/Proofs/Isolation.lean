import LiveTemplate.Proofs.FailFast
import LiveTemplate.Proofs.Reactive.Chronicle
import LiveTemplate.Proofs.Reactive.Growth
import LiveTemplate.Proofs.Reactive.Sources

/-!
# Isolating runs lose no failure

Where every dependency goes on behind failures and every routine ends with the first error it meets,
a failure is wrapped once at each notification that it passes.  The leaves of the error in the end
are the failures where they arose, in the order in which they arose: a notification puts together
the failures of its subscribers from left to right, and they were recomputed in that order.

What a session adds to the count of warnings, to the failures that arose and to the error it ends
with is one account, `Reckoning`.  It adds up along the run.
-/

namespace LiveTemplate

variable {σ α β : Type}

/-! ## Routines that end with the first error they meet -/

/-- The operation reports no failure of a subscriber: that is for notifications to do. -/
def Request.Quiet : Request σ → Prop
  | .report (.notifyFailed _ _) => False
  | _ => True

/-- The routine, and every routine it registers, ends with the first error that it meets. -/
def Routine.Candid : Routine σ → Prop
  | .done _ => True
  | .fail _ => True
  | .request r next => r.Quiet ∧ ∀ answer, (next answer).Candid
  | .untracked body next =>
    body.Candid ∧ (∀ e, next (.error e) = .fail e) ∧ ∀ value, (next (.ok value)).Candid
  | .watch read _ key callback next =>
    ((read key).Candid ∧ ∀ value, (callback value).Candid) ∧
      (∀ e, next (.error e) = .fail e) ∧ ∀ subscriber, (next (.ok subscriber)).Candid
  | .set _ _ next => (∀ e, next (.error e) = .fail e) ∧ ∀ value, (next (.ok value)).Candid
  | .notify _ next => (∀ e, next (.error e) = .fail e) ∧ ∀ value, (next (.ok value)).Candid
  | .recompute _ next => (∀ e, next (.error e) = .fail e) ∧ ∀ value, (next (.ok value)).Candid

/-- The read of the subscriber's key and its callback are candid. -/
def Subscriber.Candid (cell : Subscriber σ) : Prop :=
  (cell.source.read cell.key).Candid ∧ ∀ value, (cell.callback value).Candid

/-- Every subscriber is candid. -/
def Store.Candid (s : Store σ) : Prop := ∀ cell ∈ s.subscribers, cell.Candid

theorem Routine.Candid.followedBy {routine : Routine σ}
    {next : Except ReactiveError Value → Routine σ} (hroutine : routine.Candid)
    (hpass : ∀ e, next (.error e) = .fail e) (hnext : ∀ value, (next (.ok value)).Candid) :
    (routine.followedBy next).Candid := by
  induction routine with
  | done value => exact hnext value
  | fail error =>
      rw [Routine.followedBy, hpass]
      trivial
  | request r k ih => exact ⟨hroutine.1, fun answer => ih answer (hroutine.2 answer)⟩
  | untracked body k _ ih =>
      obtain ⟨hbody, hk, hk'⟩ := hroutine
      exact ⟨hbody, Routine.followedBy_of_error hk hpass, fun value => ih _ (hk' value)⟩
  | watch read write key callback k _ _ _ ih =>
      obtain ⟨hsubscriber, hk, hk'⟩ := hroutine
      exact ⟨hsubscriber, Routine.followedBy_of_error hk hpass, fun subscriber => ih _ (hk' subscriber)⟩
  | set field value k ih =>
      exact ⟨Routine.followedBy_of_error hroutine.1 hpass, fun value => ih _ (hroutine.2 value)⟩
  | notify field k ih =>
      exact ⟨Routine.followedBy_of_error hroutine.1 hpass, fun value => ih _ (hroutine.2 value)⟩
  | recompute subscriber k ih =>
      exact ⟨Routine.followedBy_of_error hroutine.1 hpass, fun value => ih _ (hroutine.2 value)⟩

theorem Routine.Candid.bind {routine : Routine σ} {next : Value → Routine σ}
    (hroutine : routine.Candid) (hnext : ∀ value, (next value).Candid) :
    (routine.bind next).Candid :=
  hroutine.followedBy (fun _ => rfl) hnext

namespace Store

theorem Candid.of_subscribers {s t : Store σ} (hs : s.Candid)
    (h : t.subscribers = s.subscribers) : t.Candid := by
  intro cell hcell
  rw [h] at hcell
  exact hs cell hcell

theorem Candid.subscribe {s : Store σ} (hs : s.Candid) {cell : Subscriber σ}
    (hcell : cell.Candid) : (s.subscribe cell).Candid := by
  intro other hother
  rw [subscribe_subscribers, Array.mem_push] at hother
  rcases hother with hother | rfl
  · exact hs other hother
  · exact hcell

end Store

/-! ## Warnings -/

/-- Whether the entry says that a subscriber failed and the notification went on. -/
def Entry.warns : Entry → Bool
  | .event (.notifyFailed _ _) => true
  | _ => false

namespace Store

/-- The number of warnings about failed subscribers. -/
def warnings (s : Store σ) : Nat := s.journal.countP Entry.warns

theorem warnings_record (s : Store σ) (entry : Entry) (hentry : entry.warns = false) :
    (s.record entry).warnings = s.warnings := by
  simp [warnings, record, hentry]

theorem warnings_subscribe (s : Store σ) (cell : Subscriber σ) :
    (s.subscribe cell).warnings = s.warnings := by
  unfold subscribe
  dsimp only
  split
  · exact s.warnings_record (.event .nested) rfl
  · rfl

end Store

/-! ## What failed in a run -/

/-- The failure that arises at a mark. -/
def Mark.origin? : Mark → Option ReactiveError
  | .raised error => some error
  | _ => none

/-- Whether a recomputation ends with an error here. -/
def Mark.failed : Mark → Bool
  | .ended _ _ (.error _) => true
  | _ => false

/-- Whether a recomputation ends with an error here that a notification made. -/
def Mark.warned : Mark → Bool
  | .ended false _ (.error _) => true
  | _ => false

/-- The failures of a run where they arose, in chronological order. -/
def origins (marks : List Mark) : List ReactiveError := marks.filterMap Mark.origin?

theorem origins_append (first second : List Mark) :
    origins (first ++ second) = origins first ++ origins second :=
  List.filterMap_append

/-- The account of a session from one store to another, by its marks and outcome. -/
structure Reckoning (s t : Store σ) (marks : List Mark) (outcome : Except ReactiveError α) :
    Prop where
  candid : t.Candid
  warnings : t.warnings = s.warnings + marks.countP Mark.warned
  ok : ∀ a, outcome = .ok a → origins marks = [] ∧ marks.countP Mark.failed = 0
  error : ∀ e, outcome = .error e → e.leaves = (origins marks).flatMap ReactiveError.leaves

namespace Reckoning

variable {s t u : Store σ} {marks later : List Mark}

theorem of_ok (a : α) (ht : t.Candid) (hwarnings : t.warnings = s.warnings) :
    Reckoning s t [] (.ok a : Except ReactiveError α) :=
  ⟨ht, hwarnings, fun _ _ => ⟨rfl, rfl⟩, nofun⟩

theorem congr {s' t' : Store σ} {outcome : Except ReactiveError α}
    (h : Reckoning s t marks outcome) (hs : s.warnings = s'.warnings)
    (hsubscribers : t'.subscribers = t.subscribers) (ht : t'.warnings = t.warnings) :
    Reckoning s' t' marks outcome :=
  ⟨h.candid.of_subscribers hsubscribers, by rw [ht, h.warnings, hs], h.ok, h.error⟩

/-- The account of what follows a success is added to that of the success. -/
theorem append {a : α} {outcome : Except ReactiveError β}
    (h : Reckoning s t marks (.ok a : Except ReactiveError α))
    (hlater : Reckoning t u later outcome) : Reckoning s u (marks ++ later) outcome := by
  obtain ⟨horigins, hfailed⟩ := h.ok a rfl
  refine ⟨hlater.candid, ?_, fun b hb => ?_, fun e he => ?_⟩
  · rw [hlater.warnings, h.warnings, List.countP_append, Nat.add_assoc]
  · obtain ⟨horigins', hfailed'⟩ := hlater.ok b hb
    exact ⟨by rw [origins_append, horigins, horigins']; rfl,
      by rw [List.countP_append, hfailed, hfailed']⟩
  · rw [hlater.error e he, origins_append, horigins, List.nil_append]

/-- The end of a notification is no failure. -/
theorem closed {outcome : Except ReactiveError α} (h : Reckoning s t marks outcome)
    (registrations : List SubscriberId) :
    Reckoning s t (marks ++ [.closed registrations]) outcome := by
  have horigins : origins (marks ++ [.closed registrations]) = origins marks := by
    rw [origins_append]
    exact List.append_nil _
  refine ⟨h.candid, ?_, ?_, ?_⟩
  · rw [h.warnings, List.countP_append]
    rfl
  · rw [horigins, List.countP_append]
    exact h.ok
  · rw [horigins]
    exact h.error

theorem error_cast {e : ReactiveError}
    (h : Reckoning s t marks (.error e : Except ReactiveError α)) :
    Reckoning s t marks (.error e : Except ReactiveError β) :=
  ⟨h.candid, h.warnings, nofun, fun e' he' => h.error e' (by cases he'; rfl)⟩

end Reckoning

namespace Engine

open Session

/-- A session whose runs are accounted for by its marks, if all dependencies isolate in the end. -/
def Reckoned (session : Session σ ReactiveError α) (marks : Store σ → List Mark) : Prop :=
  ∀ s outcome t, s.Candid → session s = some (outcome, t) → t.Isolating →
    Reckoning s t (marks s) outcome

/-- What follows a session and passes errors on is accounted for if both are. -/
theorem Reckoned.followedBy {session : Session σ ReactiveError α} {marks : Store σ → List Mark}
    {next : Except ReactiveError α → Session σ ReactiveError β}
    {later : Except ReactiveError α → Store σ → List Mark} (hsession : Reckoned session marks)
    (hpass : ∀ e t, next (.error e) t = some (.error e, t) ∧ later (.error e) t = [])
    (hgrown : ∀ a, Keeps Store.Grown (next (.ok a)))
    (hnext : ∀ a, Reckoned (next (.ok a)) (later (.ok a))) :
    Reckoned (session.followedBy next) fun s => marks s ++ marksBehind session later s := by
  intro s outcome t hs hrun hisolating
  obtain ⟨first, u, hu, hlast⟩ := followedBy_eq_some.1 hrun
  dsimp only
  rw [marksBehind_of_eq_some _ hu]
  cases first with
  | error e =>
      obtain ⟨hsame, hmarks⟩ := hpass e u
      rw [hsame] at hlast
      obtain ⟨rfl, rfl⟩ := Prod.mk.inj (Option.some.inj hlast)
      rw [hmarks, List.append_nil]
      exact (hsession s _ u hs hu hisolating).error_cast
  | ok a =>
      have hfirst := hsession s _ u hs hu (hisolating.before (hgrown a u _ t hlast))
      exact hfirst.append (hnext a u _ t hfirst.candid hlast hisolating)

theorem Reckoned.collecting {session : Session σ ReactiveError α} {marks : Store σ → List Mark}
    (h : Reckoned session marks) (subscriber : Option SubscriberId) :
    Reckoned (Session.collecting subscriber session) fun s =>
      marks (s.withActive subscriber) := by
  intro s outcome t hs hrun hisolating
  obtain ⟨after, hafter, rfl⟩ := collecting_eq_some.1 hrun
  have hentered : (s.withActive subscriber).Candid := hs
  have hafter' : after.Isolating := hisolating
  exact (h _ _ after hentered hafter hafter').congr rfl rfl rfl

theorem Reckoned.construct {source : Source σ} {key : String} {callback : Value → Routine σ}
    {read : ReactiveSession σ Value} {marks : Store σ → List Mark} (h : Reckoned read marks)
    (hcell : (⟨key, source, callback⟩ : Subscriber σ).Candid) :
    Reckoned (construct source key callback read) fun s =>
      marks ((s.subscribe ⟨key, source, callback⟩).withActive (some s.subscribers.size)) := by
  intro s outcome t hs hrun hisolating
  obtain ⟨first, after, hread, hlast⟩ := construct_eq_some.1 hrun
  have hentered : ((s.subscribe ⟨key, source, callback⟩).withActive
    (some s.subscribers.size)).Candid := hs.subscribe hcell
  have hwarnings : ((s.subscribe ⟨key, source, callback⟩).withActive
    (some s.subscribers.size)).warnings = s.warnings := s.warnings_subscribe _
  rcases hlast with ⟨value, rfl, rfl, rfl⟩ | ⟨e, rfl, rfl, rfl⟩
  · have hbody := (h _ _ after hentered hread hisolating).congr hwarnings rfl rfl
    have hcreated : Reckoning after ((after.withActive s.active).report (.created key)) []
        (.ok s.subscribers.size : Except ReactiveError SubscriberId) :=
      .of_ok _ hbody.candid (Store.warnings_record _ (.event (.created key)) rfl)
    simpa using hbody.append hcreated
  · have hbody : Reckoning s (after.withActive s.active) _
        (.error e : Except ReactiveError Value) :=
      (h _ _ after hentered hread hisolating).congr hwarnings rfl rfl
    exact hbody.error_cast

variable {recompute : SubscriberId → ReactiveSession σ Value}
  {inside : SubscriberId → Store σ → List Mark}

/-! ## Recomputations and notifications -/

theorem countP_recomputationMarks {byHand : Bool} {subscriber : SubscriberId} {s t : Store σ}
    {outcome : Except ReactiveError Value} (hrun : recompute subscriber s = some (outcome, t))
    {counted : Mark → Bool} (hbegan : counted (.began byHand subscriber) = false) :
    (recomputationMarks recompute inside byHand subscriber s).countP counted =
      (inside subscriber s).countP counted +
        if counted (.ended byHand subscriber outcome) then 1 else 0 := by
  rw [recomputationMarks_of_eq_some hrun]
  simp [hbegan]

theorem origins_recomputationMarks {byHand : Bool} {subscriber : SubscriberId} {s t : Store σ}
    {outcome : Except ReactiveError Value} (hrun : recompute subscriber s = some (outcome, t)) :
    origins (recomputationMarks recompute inside byHand subscriber s) =
      origins (inside subscriber s) := by
  rw [recomputationMarks_of_eq_some hrun, origins_append]
  exact List.append_nil _

/-- A recomputation that succeeds, or that a routine has made by hand, warns of nothing. -/
theorem Reckoned.recomputation {byHand : Bool} {subscriber : SubscriberId} {s t : Store σ}
    {outcome : Except ReactiveError Value}
    (h : Reckoning s t (inside subscriber s) outcome)
    (hrun : recompute subscriber s = some (outcome, t))
    (hquiet : (Mark.ended byHand subscriber outcome).warned = false) :
    Reckoning s t (recomputationMarks recompute inside byHand subscriber s) outcome := by
  refine ⟨h.candid, ?_, fun a ha => ?_, fun e he => ?_⟩
  · rw [h.warnings, countP_recomputationMarks hrun rfl, hquiet]
    rfl
  · obtain ⟨horigins, hfailed⟩ := h.ok a ha
    subst ha
    exact ⟨by rw [origins_recomputationMarks hrun, horigins],
      by rw [countP_recomputationMarks hrun rfl, hfailed]; rfl⟩
  · rw [h.error e he, origins_recomputationMarks hrun]

theorem runMarksWith_write_over (forwarded : Option (List String)) {object : ObjectId}
    {key : String} {s : Store σ} {field : FieldId} (hfield : s.field? object key = some field)
    (value : Value) :
    runMarksWith recompute inside ((Source.over forwarded object).write key value) s =
      notifyMarks recompute inside field ((heard forwarded key s).assign field value) := by
  have hwrite (t : Store σ) (ht : t.field? object key = some field) :
      runMarksWith recompute inside ((Source.ofObject object).write key value) t =
        notifyMarks recompute inside field (t.assign field value) := by
    rw [← runMarksWith_setField]
    simp only [Source.ofObject, Source.withField, runMarksWith, Store.perform]
    rw [ht]
  rcases write_over_cases forwarded object key value s with ⟨hrun, hheard⟩ | ⟨hrun, hheard⟩
  · rw [hrun, hheard]
    exact hwrite s hfield
  · rw [hrun, hheard]
    exact hwrite (s.report (.forwardMiss key)) hfield

end Engine

end LiveTemplate
