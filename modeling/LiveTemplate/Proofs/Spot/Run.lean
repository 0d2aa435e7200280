import LiveTemplate.Proofs.Reactive.Trace
import LiveTemplate.Proofs.Spot.Basic

/-!
# Runs that leave a text up to date

Two things are carried through a run: the text stays bound, and if it was up to date before, it is
so afterwards.  A write of its field breaks the second one for a while; the notification that
follows has the subscriber of the text on its list and repairs it, and whatever it recomputes before
and after keeps the text bound.
-/

namespace LiveTemplate.Spot

variable {σ ε ε' α β : Type} {spot : Spot}

open Session Engine

/-- No failure cuts a notification of the field short: it goes on behind failures, or there are
none. -/
def Calm (policy : NotifyPolicy) (trace : List (Act σ)) : Prop :=
  policy = .isolate ∨ ∀ subscriber e, .recomputed subscriber (.error e) ∉ trace

theorem Calm.left {policy : NotifyPolicy} {first second : List (Act σ)}
    (h : Calm policy (first ++ second)) : Calm policy first :=
  h.imp_right fun hnone subscriber e hmem =>
    hnone subscriber e (List.mem_append_left second hmem)

theorem Calm.right {policy : NotifyPolicy} {first second : List (Act σ)}
    (h : Calm policy (first ++ second)) : Calm policy second :=
  h.imp_right fun hnone subscriber e hmem =>
    hnone subscriber e (List.mem_append_right first hmem)

theorem Calm.tail {policy : NotifyPolicy} {act : Act σ} {rest : List (Act σ)}
    (h : Calm policy (act :: rest)) : Calm policy rest :=
  h.imp_right fun hnone subscriber e hmem => hnone subscriber e (List.mem_cons_of_mem act hmem)

/-- A session keeps the text bound and, where it is calm, up to date. -/
structure Maintains (spot : Spot) (session : Session σ ε α) (trace : Store σ → List (Act σ)) :
    Prop where
  bound : ∀ s outcome t, spot.Bound s → session s = some (outcome, t) → spot.Bound t
  fresh : ∀ s outcome t, spot.Bound s → spot.Fresh s → Calm spot.policy (trace s) →
    session s = some (outcome, t) → spot.Fresh t

/-- A session leaves the text up to date, whatever it was before. -/
def Refreshes (spot : Spot) (session : Session σ ε α) (trace : Store σ → List (Act σ)) : Prop :=
  ∀ s outcome t, spot.Bound s → Calm spot.policy (trace s) → session s = some (outcome, t) →
    spot.Fresh t

theorem Maintains.idle (outcome : Except ε α) (trace : Store σ → List (Act σ)) :
    Maintains spot (fun s => some (outcome, s) : Session σ ε α) trace where
  bound s outcome t h hrun := by
    obtain ⟨-, rfl⟩ := Prod.mk.inj (Option.some.inj hrun)
    exact h
  fresh s outcome t _ h _ hrun := by
    obtain ⟨-, rfl⟩ := Prod.mk.inj (Option.some.inj hrun)
    exact h

theorem Maintains.followedBy {session : Session σ ε α} {trace : Store σ → List (Act σ)}
    {next : Except ε α → Session σ ε' β} {later : Except ε α → Store σ → List (Act σ)}
    (hsession : Maintains spot session trace)
    (hnext : ∀ outcome, Maintains spot (next outcome) (later outcome)) :
    Maintains spot (session.followedBy next) fun s =>
      trace s ++ traceBehind session later s where
  bound s last u h hrun := by
    obtain ⟨outcome, t, ht, hu⟩ := followedBy_eq_some.1 hrun
    exact (hnext outcome).bound t last u (hsession.bound s outcome t h ht) hu
  fresh s last u h hfresh hcalm hrun := by
    obtain ⟨outcome, t, ht, hu⟩ := followedBy_eq_some.1 hrun
    rw [traceBehind_of_eq_some _ ht] at hcalm
    have hmid := hsession.fresh s outcome t h hfresh hcalm.left ht
    exact (hnext outcome).fresh t last u (hsession.bound s outcome t h ht) hmid hcalm.right hu

theorem Maintains.collecting {session : Session σ ε α} {trace : Store σ → List (Act σ)}
    (h : Maintains spot session trace) (subscriber : Option SubscriberId) :
    Maintains spot (Session.collecting subscriber session) fun s =>
      trace (s.withActive subscriber) where
  bound s outcome t hbound hrun := by
    obtain ⟨after, hafter, rfl⟩ := collecting_eq_some.1 hrun
    exact (h.bound _ _ _ (hbound.withActive subscriber) hafter).withActive s.active
  fresh s outcome t hbound hfresh hcalm hrun := by
    obtain ⟨after, hafter, rfl⟩ := collecting_eq_some.1 hrun
    exact h.fresh _ _ after (hbound.withActive subscriber) hfresh hcalm hafter

theorem Maintains.construct {source : Source σ} {key : String} {callback : Value → Routine σ}
    {read : ReactiveSession σ Value} {trace : Store σ → List (Act σ)}
    (h : Maintains spot read trace)
    (hcell : (⟨key, source, callback⟩ : Subscriber σ).Only spot.Spares) :
    Maintains spot (construct source key callback read) fun s =>
      trace ((s.subscribe ⟨key, source, callback⟩).withActive (some s.subscribers.size)) where
  bound s outcome t hbound hrun := by
    obtain ⟨first, after, hafter, hlast⟩ := construct_eq_some.1 hrun
    have hentered := (hbound.subscribe hcell).withActive (some s.subscribers.size)
    have hread := h.bound _ _ _ hentered hafter
    rcases hlast with ⟨_, -, -, rfl⟩ | ⟨_, -, -, rfl⟩
    · exact (hread.withActive s.active).report (.created key)
    · exact hread.withActive s.active
  fresh s outcome t hbound hfresh hcalm hrun := by
    obtain ⟨first, after, hafter, hlast⟩ := construct_eq_some.1 hrun
    have hentered := (hbound.subscribe hcell).withActive (some s.subscribers.size)
    have hread := h.fresh _ _ _ hentered (hfresh.subscribe _) hcalm hafter
    rcases hlast with ⟨_, -, -, rfl⟩ | ⟨_, -, -, rfl⟩
    · exact hread
    · exact hread

/-! ## Notifications -/

/-- What the engine knows about the recomputations it nests. -/
structure Recomputes (spot : Spot) (recompute : SubscriberId → ReactiveSession σ Value)
    (trace : SubscriberId → Store σ → List (Act σ)) : Prop where
  maintains : ∀ i, Maintains spot (recompute i) (trace i)
  repaints : ∀ s outcome t, spot.Bound s → recompute spot.subscriber s = some (outcome, t) →
    spot.Fresh t
  failures : ∀ i s e t, recompute i s = some (.error e, t) → .recomputed i (.error e) ∈ trace i s

variable {recompute : SubscriberId → ReactiveSession σ Value}
  {trace : SubscriberId → Store σ → List (Act σ)}

theorem notifyFailFast_maintains (hrecompute : Recomputes spot recompute trace)
    (subscribers : List SubscriberId) :
    Maintains spot (notifyFailFast recompute subscribers)
      (failFastTrace recompute trace subscribers) := by
  induction subscribers with
  | nil => exact .idle _ _
  | cons subscriber rest ih =>
      rw [notifyFailFast, bind_eq_followedBy]
      refine (hrecompute.maintains subscriber).followedBy fun outcome => ?_
      cases outcome with
      | ok _ => exact ih
      | error e => exact .idle _ _

theorem collectFailures_maintains (hrecompute : Recomputes spot recompute trace)
    (subscribers : List SubscriberId) :
    Maintains spot (collectFailures recompute subscribers)
      (isolatedTrace recompute trace subscribers) := by
  induction subscribers with
  | nil => exact .idle _ _
  | cons subscriber rest ih =>
      constructor
      · intro s outcome t h hrun
        rcases collectFailures_cons hrun with ⟨value, u, hu, hrest⟩ | ⟨e, u, later, hu, hrest, -⟩
        · exact ih.bound _ _ _ ((hrecompute.maintains subscriber).bound _ _ _ h hu) hrest
        · have hreported := (hrecompute.maintains subscriber).bound _ _ _ h hu
          exact ih.bound _ _ _ (hreported.report _) hrest
      · intro s outcome t h hfresh hcalm hrun
        rw [isolatedTrace] at hcalm
        rcases collectFailures_cons hrun with ⟨value, u, hu, hrest⟩ | ⟨e, u, later, hu, hrest, -⟩
        · rw [traceBehind_of_eq_some _ hu] at hcalm
          have hmid := (hrecompute.maintains subscriber).fresh _ _ _ h hfresh hcalm.left hu
          exact ih.fresh _ _ _ ((hrecompute.maintains subscriber).bound _ _ _ h hu) hmid
            hcalm.right hrest
        · rw [traceBehind_of_eq_some _ hu] at hcalm
          have hmid := (hrecompute.maintains subscriber).fresh _ _ _ h hfresh hcalm.left hu
          have hreported := (hrecompute.maintains subscriber).bound _ _ _ h hu
          exact ih.fresh _ _ _ (hreported.report _) hmid hcalm.right hrest

/-- Without failures, a notification reaches the subscriber of the text, and what comes behind it
keeps the text up to date. -/
theorem notifyFailFast_refreshes (hrecompute : Recomputes spot recompute trace)
    (hpolicy : spot.policy = .failFast) {subscribers : List SubscriberId}
    (hmem : spot.subscriber ∈ subscribers) :
    Refreshes spot (notifyFailFast recompute subscribers)
      (failFastTrace recompute trace subscribers) := by
  induction subscribers with
  | nil => cases hmem
  | cons subscriber rest ih =>
      intro s outcome t h hcalm hrun
      rw [notifyFailFast, bind_eq_followedBy] at hrun
      obtain ⟨first, u, hu, hrest⟩ := followedBy_eq_some.1 hrun
      rw [failFastTrace, traceBehind_of_eq_some _ hu] at hcalm
      have hbound := (hrecompute.maintains subscriber).bound _ _ _ h hu
      cases first with
      | error e =>
          -- Under this policy a calm notification meets no failure.
          rcases hcalm.left with hisolate | hnone
          · rw [hpolicy] at hisolate
            cases hisolate
          · exact absurd (hrecompute.failures _ _ _ _ hu) (hnone _ _)
      | ok value =>
          by_cases hown : spot.subscriber = subscriber
          · subst hown
            have hpainted := hrecompute.repaints _ _ _ h hu
            exact (notifyFailFast_maintains hrecompute rest).fresh _ _ _ hbound hpainted
              hcalm.right hrest
          · have hlater := (List.mem_cons.1 hmem).resolve_left hown
            exact ih hlater _ _ _ hbound hcalm.right hrest

/-- Failures do not keep a notification that goes on from the subscriber of the text. -/
theorem collectFailures_refreshes (hrecompute : Recomputes spot recompute trace)
    {subscribers : List SubscriberId} (hmem : spot.subscriber ∈ subscribers) :
    Refreshes spot (collectFailures recompute subscribers)
      (isolatedTrace recompute trace subscribers) := by
  induction subscribers with
  | nil => cases hmem
  | cons subscriber rest ih =>
      intro s outcome t h hcalm hrun
      -- What comes behind goes on from a store that may have one report more, after a failure.
      have hbehind (v : Store σ) (last : Except ReactiveError (List ReactiveError))
          (hbound : spot.Bound v) (hown : spot.subscriber = subscriber → spot.Fresh v)
          (hcalm : Calm spot.policy (isolatedTrace recompute trace rest v))
          (hlast : collectFailures recompute rest v = some (last, t)) : spot.Fresh t := by
        by_cases hsame : spot.subscriber = subscriber
        · exact (collectFailures_maintains hrecompute rest).fresh v last t hbound (hown hsame)
            hcalm hlast
        · exact ih ((List.mem_cons.1 hmem).resolve_left hsame) v last t hbound hcalm hlast
      have hpainted (u : Store σ) (first : Except ReactiveError Value)
          (hu : recompute subscriber s = some (first, u)) (hown : spot.subscriber = subscriber) :
          spot.Fresh u := by
        subst hown
        exact hrecompute.repaints s first u h hu
      rw [isolatedTrace] at hcalm
      rcases collectFailures_cons hrun with ⟨value, u, hu, hlast⟩ | ⟨e, u, later, hu, hlast, -⟩
      · rw [traceBehind_of_eq_some _ hu] at hcalm
        have hbound := (hrecompute.maintains subscriber).bound _ _ _ h hu
        exact hbehind u _ hbound (hpainted u _ hu) hcalm.right hlast
      · rw [traceBehind_of_eq_some _ hu] at hcalm
        have hbound := (hrecompute.maintains subscriber).bound _ _ _ h hu
        exact hbehind _ _ (hbound.report _) (hpainted u _ hu) hcalm.right hlast

theorem notify_maintains (hrecompute : Recomputes spot recompute trace) (field : FieldId) :
    Maintains spot (notify recompute field) (notifyTrace recompute trace field) := by
  constructor
  · intro s outcome t h hrun
    cases hcell : s.fields[field]? with
    | none =>
        rw [notify_of_none hcell] at hrun
        obtain ⟨-, rfl⟩ := Prod.mk.inj (Option.some.inj hrun)
        exact h
    | some cell =>
        have hreported := h.report (.notified cell.registrations.length)
        cases hpolicy : cell.policy with
        | failFast =>
            rw [notify_of_failFast hcell hpolicy] at hrun
            exact (notifyFailFast_maintains hrecompute _).bound _ _ _ hreported hrun
        | isolate =>
            rw [notify_of_isolate hcell hpolicy] at hrun
            obtain ⟨failures, hcollect, -⟩ := notifyIsolated_eq_some hrun
            exact (collectFailures_maintains hrecompute _).bound _ _ _ hreported hcollect
  · intro s outcome t h hfresh hcalm hrun
    cases hcell : s.fields[field]? with
    | none =>
        rw [notify_of_none hcell] at hrun
        obtain ⟨-, rfl⟩ := Prod.mk.inj (Option.some.inj hrun)
        exact hfresh
    | some cell =>
        have hreported := h.report (.notified cell.registrations.length)
        cases hpolicy : cell.policy with
        | failFast =>
            rw [notifyTrace_of_failFast hcell hpolicy] at hcalm
            rw [notify_of_failFast hcell hpolicy] at hrun
            exact (notifyFailFast_maintains hrecompute _).fresh _ _ _ hreported hfresh hcalm hrun
        | isolate =>
            rw [notifyTrace_of_isolate hcell hpolicy] at hcalm
            rw [notify_of_isolate hcell hpolicy] at hrun
            obtain ⟨failures, hcollect, -⟩ := notifyIsolated_eq_some hrun
            exact (collectFailures_maintains hrecompute _).fresh _ _ _ hreported hfresh hcalm
              hcollect

/-- A notification of the field of the text leaves the text up to date. -/
theorem notify_refreshes (hrecompute : Recomputes spot recompute trace) :
    Refreshes spot (notify recompute spot.field) (notifyTrace recompute trace spot.field) := by
  intro s outcome t h hcalm hrun
  obtain ⟨cell, hcell, hpolicy, hmem⟩ := h.registered
  have hreported := h.report (.notified cell.registrations.length)
  cases hown : cell.policy with
  | failFast =>
      rw [notifyTrace_of_failFast hcell hown] at hcalm
      rw [notify_of_failFast hcell hown] at hrun
      exact notifyFailFast_refreshes hrecompute (hpolicy.symm.trans hown) hmem _ _ _ hreported
        hcalm hrun
  | isolate =>
      rw [notifyTrace_of_isolate hcell hown] at hcalm
      rw [notify_of_isolate hcell hown] at hrun
      obtain ⟨failures, hcollect, -⟩ := notifyIsolated_eq_some hrun
      exact collectFailures_refreshes hrecompute hmem _ _ _ hreported hcalm hcollect

theorem set_maintains (hrecompute : Recomputes spot recompute trace) (field : FieldId)
    (value : Value) :
    Maintains spot (set recompute field value) fun s =>
      .wrote field value :: notifyTrace recompute trace field (s.assign field value) where
  bound s outcome t h hrun :=
    (notify_maintains hrecompute field).bound _ outcome t (h.assign field value) hrun
  fresh s outcome t h hfresh hcalm hrun := by
    have hassigned := h.assign field value
    by_cases hfield : field = spot.field
    · -- The text is out of date now, so what counts is that it is on the list of this notification.
      subst hfield
      exact notify_refreshes hrecompute _ outcome t hassigned hcalm.tail hrun
    · exact (notify_maintains hrecompute field).fresh _ outcome t hassigned
        (hfresh.assign h hfield value) hcalm.tail hrun

/-! ## Whole runs -/

/-- Induction on the routine: no operation of it touches the text, and what it registers spares the
text too. -/
theorem runWith_maintains (hrecompute : Recomputes spot recompute trace) {routine : Routine σ}
    (hroutine : routine.Only spot.Spares) :
    Maintains spot (runWith recompute routine) (runTraceWith recompute trace routine) := by
  induction routine with
  | done value => exact .idle (.ok value) _
  | fail error => exact .idle (.error error) _
  | request r next ih =>
      obtain ⟨hr, hnext⟩ := hroutine
      constructor
      · intro s outcome t h hrun
        rw [runWith_request] at hrun
        exact (ih _ (hnext _)).bound _ _ _ (h.kept (.perform hr h.lookup)) hrun
      · intro s outcome t h hfresh hcalm hrun
        rw [runWith_request] at hrun
        rw [runTraceWith] at hcalm
        have hkept : spot.Kept s (s.perform r).1 := .perform hr h.lookup
        exact (ih _ (hnext _)).fresh _ _ _ (h.kept hkept) (hfresh.kept h hkept) hcalm.tail hrun
  | untracked body next ihbody ih =>
      exact ((ihbody hroutine.1).collecting none).followedBy fun outcome =>
        ih outcome (hroutine.2 outcome)
  | watch read write key callback next ihread _ _ ih =>
      obtain ⟨hcell, hnext⟩ := hroutine
      have hsubscriber : (⟨key, ⟨read, write⟩, callback⟩ : Subscriber σ).Only spot.Spares := hcell
      exact ((ihread key hcell.1).construct hsubscriber).followedBy fun outcome =>
        ih outcome (hnext outcome)
  | set field value next ih =>
      exact (set_maintains hrecompute field value).followedBy fun outcome =>
        ih outcome (hroutine outcome)
  | notify field next ih =>
      exact (notify_maintains hrecompute field).followedBy fun outcome =>
        ih outcome (hroutine outcome)
  | recompute subscriber next ih =>
      exact (hrecompute.maintains subscriber).followedBy fun outcome =>
        ih outcome (hroutine outcome)

/-- Induction on the bound.  The subscriber of the text repaints it, and every other one spares
it. -/
theorem recompute_recomputes (fuel : Nat) :
    Recomputes spot (Engine.recompute fuel : SubscriberId → ReactiveSession σ Value)
      (recomputeTrace fuel) := by
  induction fuel with
  | zero =>
      refine ⟨fun i => ⟨?_, ?_⟩, ?_, ?_⟩
      · intro s outcome t _ hrun
        cases hrun
      · intro s outcome t _ _ _ hrun
        cases hrun
      · intro s outcome t _ hrun
        cases hrun
      · intro i s e t hrun
        cases hrun
  | succ fuel ih =>
      have hrepaint (s : Store σ) (outcome : Except ReactiveError Value) (t : Store σ)
          (h : spot.Bound s)
          (hrun : Engine.recompute (fuel + 1) spot.subscriber s = some (outcome, t)) :
          spot.Bound t ∧ spot.Fresh t := by
        rw [recompute_succ_of_some h.own] at hrun
        exact repaint h hrun
      -- Every other subscriber runs a routine that spares the text.
      refine ⟨fun i => ⟨?_, ?_⟩, fun s outcome t h hrun => (hrepaint s outcome t h hrun).2, ?_⟩
      · intro s outcome t h hrun
        by_cases hown : i = spot.subscriber
        · subst hown
          exact (hrepaint s outcome t h hrun).1
        · cases hcell : s.subscribers[i]? with
          | none =>
              rw [recompute_succ_of_none hcell] at hrun
              obtain ⟨-, rfl⟩ := Prod.mk.inj (Option.some.inj hrun)
              exact h
          | some cell =>
              rw [recompute_succ_of_some hcell] at hrun
              have honly := h.others i cell hown hcell
              exact (runWith_maintains ih (honly.1.bind honly.2)).bound s outcome t h hrun
      · intro s outcome t h hfresh hcalm hrun
        by_cases hown : i = spot.subscriber
        · subst hown
          exact (hrepaint s outcome t h hrun).2
        · cases hcell : s.subscribers[i]? with
          | none =>
              rw [recompute_succ_of_none hcell] at hrun
              obtain ⟨-, rfl⟩ := Prod.mk.inj (Option.some.inj hrun)
              exact hfresh
          | some cell =>
              rw [recomputeTrace_succ_of_some hcell hrun] at hcalm
              rw [recompute_succ_of_some hcell] at hrun
              have honly := h.others i cell hown hcell
              exact (runWith_maintains ih (honly.1.bind honly.2)).fresh s outcome t h hfresh
                hcalm.left hrun
      · intro i s e t hrun
        cases hcell : s.subscribers[i]? with
        | none =>
            rw [recompute_succ_of_none hcell] at hrun
            cases hrun
        | some cell =>
            rw [recomputeTrace_succ_of_some hcell hrun]
            exact List.mem_append_right _ (List.mem_singleton.2 rfl)

/-- A run of a routine that spares the text. -/
theorem run_maintains (limit : Nat) {routine : Routine σ} (hroutine : routine.Only spot.Spares) :
    Maintains spot (run limit routine) (runTrace limit routine) :=
  runWith_maintains (recompute_recomputes limit) hroutine

end LiveTemplate.Spot
