import LiveTemplate.Proofs.Activation

/-!
# Notifications that come to an end

A notification serves its subscribers one after another.  If each recomputation comes to an end from
wherever the ones before it have led, and starts no recomputation itself, then so does the
notification, at every depth, and the recomputations of the whole run are those of its subscribers.
What has been served so far may be part of what the recomputations keep.
-/

namespace LiveTemplate

variable {σ : Type}

/-- The recomputation that a mark ends, with its outcome. -/
def Mark.recomputed? : Mark → Option (SubscriberId × Except ReactiveError Value)
  | .ended _ subscriber outcome => some (subscriber, outcome)
  | _ => none

namespace Engine

open Session

/-- The recomputation of a subscriber comes to an end, at every depth, and starts no other one. -/
structure EndsAlone (subscriber : SubscriberId) (s : Store σ)
    (outcome : Except ReactiveError Value) (t : Store σ) : Prop where
  run (fuel : Nat) : recompute (fuel + 1) subscriber s = some (outcome, t)
  alone (fuel : Nat) : (recomputeMarks (fuel + 1) subscriber s).filterMap Mark.recomputed? = []

variable {subscriber : SubscriberId} {subscribers : List SubscriberId} {s t : Store σ}
  {outcome : Except ReactiveError Value}

theorem EndsAlone.recomputed (h : EndsAlone subscriber s outcome t) (fuel : Nat) (byHand : Bool) :
    (recomputationMarks (recompute (fuel + 1)) (recomputeMarks (fuel + 1)) byHand subscriber
      s).filterMap Mark.recomputed? = [(subscriber, outcome)] := by
  rw [recomputationMarks_of_eq_some (h.run fuel), List.filterMap_append, List.filterMap_cons,
    h.alone fuel]
  rfl

/-- From wherever the invariant holds, the recomputation of each of the subscribers ends, and the
invariant holds with it among those that have been served.  Reports keep the invariant. -/
structure Carries (subscribers : List SubscriberId)
    (I : List (SubscriberId × Except ReactiveError Value) → Store σ → Prop) : Prop where
  step : ∀ {served : List (SubscriberId × Except ReactiveError Value)} {u : Store σ},
    I served u → ∀ subscriber ∈ subscribers, ∃ outcome v, EndsAlone subscriber u outcome v ∧
      I (served ++ [(subscriber, outcome)]) v
  report : ∀ {served : List (SubscriberId × Except ReactiveError Value)} {u : Store σ},
    I served u → ∀ event, I served (u.report event)

variable {I : List (SubscriberId × Except ReactiveError Value) → Store σ → Prop}
  {before : List (SubscriberId × Except ReactiveError Value)}

theorem Carries.tail {rest : List SubscriberId} (h : Carries (subscriber :: rest) I) :
    Carries rest I where
  step hu other hother := h.step hu other (List.mem_cons_of_mem _ hother)
  report := h.report

/-- Under the fail-fast policy they are served up to the first that fails. -/
theorem failFast_carries (h : Carries subscribers I) (hs : I before s) :
    ∃ served outcome t, UpToFailure subscribers served ∧ I (before ++ served) t ∧ ∀ fuel,
      notifyFailFast (recompute (fuel + 1)) subscribers s = some (outcome, t) ∧
      (failFastMarks (recompute (fuel + 1)) (recomputeMarks (fuel + 1)) subscribers
        s).filterMap Mark.recomputed? = served := by
  induction subscribers generalizing s before with
  | nil => exact ⟨[], .ok .null, s, .done, (List.append_nil before).symm ▸ hs, fun _ => ⟨rfl, rfl⟩⟩
  | cons subscriber rest ih =>
      obtain ⟨first, u, hfirst, hu⟩ := h.step hs subscriber List.mem_cons_self
      cases first with
      | error e =>
          refine ⟨[(subscriber, .error e)], .error e, u, .fails subscriber e rest, hu,
            fun fuel => ⟨bind_eq_some.2 (.inr ⟨e, hfirst.run fuel, rfl⟩), ?_⟩⟩
          rw [failFastMarks, marksBehind_of_eq_some _ (hfirst.run fuel), List.append_nil]
          exact hfirst.recomputed fuel false
      | ok value =>
          obtain ⟨served, outcome, t, hserved, ht, hrest⟩ := ih h.tail hu
          rw [List.append_assoc] at ht
          refine ⟨(subscriber, .ok value) :: served, outcome, t, .succeeds subscriber value hserved,
            ht, fun fuel => ⟨bind_eq_some.2 (.inl ⟨value, u, hfirst.run fuel, (hrest fuel).1⟩), ?_⟩⟩
          rw [failFastMarks, marksBehind_of_eq_some _ (hfirst.run fuel), List.filterMap_append,
            hfirst.recomputed fuel false]
          dsimp only
          rw [(hrest fuel).2]
          rfl

/-- Under the isolating policy all of them are served. -/
theorem isolated_carries (h : Carries subscribers I) (hs : I before s) :
    ∃ served failures t, served.map Prod.fst = subscribers ∧ I (before ++ served) t ∧ ∀ fuel,
      collectFailures (recompute (fuel + 1)) subscribers s = some (.ok failures, t) ∧
      (isolatedMarks (recompute (fuel + 1)) (recomputeMarks (fuel + 1)) subscribers
        s).filterMap Mark.recomputed? = served := by
  induction subscribers generalizing s before with
  | nil => exact ⟨[], [], s, rfl, (List.append_nil before).symm ▸ hs, fun _ => ⟨rfl, rfl⟩⟩
  | cons subscriber rest ih =>
      obtain ⟨first, u, hfirst, hu⟩ := h.step hs subscriber List.mem_cons_self
      cases first with
      | error e =>
          -- The failure is reported before the next one is served.
          obtain ⟨served, failures, t, hserved, ht, hrest⟩ := ih h.tail
            (h.report hu (.notifyFailed (u.subscriberKey subscriber) e.message))
          rw [List.append_assoc] at ht
          refine ⟨(subscriber, .error e) :: served, e :: failures, t, by rw [List.map_cons, hserved],
            ht, fun fuel => ⟨followedBy_eq_some.2 ⟨_, u, hfirst.run fuel, ?_⟩, ?_⟩⟩
          · exact bind_ok.2 ⟨(), _, rfl, bind_ok.2 ⟨failures, t, (hrest fuel).1, rfl⟩⟩
          · rw [isolatedMarks_of_error (hfirst.run fuel), List.filterMap_append,
              hfirst.recomputed fuel false, (hrest fuel).2]
            rfl
      | ok value =>
          obtain ⟨served, failures, t, hserved, ht, hrest⟩ := ih h.tail hu
          rw [List.append_assoc] at ht
          refine ⟨(subscriber, .ok value) :: served, failures, t, by rw [List.map_cons, hserved], ht,
            fun fuel => ⟨followedBy_eq_some.2 ⟨_, u, hfirst.run fuel, (hrest fuel).1⟩, ?_⟩⟩
          rw [isolatedMarks_of_ok (hfirst.run fuel), List.filterMap_append,
            hfirst.recomputed fuel false, (hrest fuel).2]
          rfl

/-- All of the subscribers have been served, or, under the fail-fast policy, those up to the first
that has failed. -/
structure ServedUnder (policy : NotifyPolicy) (subscribers : List SubscriberId)
    (served : List (SubscriberId × Except ReactiveError Value)) : Prop where
  isolate : policy = .isolate → served.map Prod.fst = subscribers
  failFast : policy = .failFast → UpToFailure subscribers served

/-- Nobody but the subscribers of the field is recomputed. -/
theorem notify_carries {field : FieldId} {cell : FieldCell} (hcell : s.fields[field]? = some cell)
    (h : Carries cell.registrations I) (hs : I [] s) :
    ∃ served outcome t, ServedUnder cell.policy cell.registrations served ∧ I served t ∧ ∀ fuel,
      notify (recompute (fuel + 1)) field s = some (outcome, t) ∧
      (notifyMarks (recompute (fuel + 1)) (recomputeMarks (fuel + 1)) field
        s).filterMap Mark.recomputed? = served := by
  have hentered := h.report hs (.notified cell.registrations.length)
  cases hpolicy : cell.policy with
  | failFast =>
      obtain ⟨served, outcome, t, hserved, ht, hruns⟩ := failFast_carries h hentered
      refine ⟨served, outcome, t, ⟨nofun, fun _ => hserved⟩, ht, fun fuel => ?_⟩
      have hrun : notify (recompute (fuel + 1)) field s = some (outcome, t) := by
        rw [notify_of_failFast hcell hpolicy]
        exact (hruns fuel).1
      refine ⟨hrun, ?_⟩
      rw [notifyMarks_of_failFast hcell hpolicy hrun, List.filterMap_append, List.filterMap_cons,
        (hruns fuel).2]
      exact List.append_nil served
  | isolate =>
      obtain ⟨served, failures, t, hserved, ht, hruns⟩ := isolated_carries h hentered
      refine ⟨served, outcomeOfFailures failures, t, ⟨fun _ => hserved, nofun⟩, ht, fun fuel => ?_⟩
      have hrun : notify (recompute (fuel + 1)) field s =
          some (outcomeOfFailures failures, t) := by
        rw [notify_of_isolate hcell hpolicy]
        unfold notifyIsolated outcomeOfFailures
        refine bind_eq_some.2 (.inl ⟨failures, t, (hruns fuel).1, ?_⟩)
        split <;> rfl
      refine ⟨hrun, ?_⟩
      rw [notifyMarks_of_isolate hcell hpolicy hrun, List.filterMap_append, List.filterMap_cons,
        (hruns fuel).2]
      exact List.append_nil served

end Engine

end LiveTemplate
