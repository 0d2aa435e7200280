import LiveTemplate.Proofs.Reactive.Running

/-!
# What a run does

The trace of a run lists, in chronological order, every operation with its answer, every write, and
every recomputation with its outcome when it ends.  It follows the engine: each part of a run has
the trace of its own run, and the store it is run from is the one that the engine runs it from.

A run with an outcome has the same outcome and the same trace under every larger bound, so the bound
only decides whether there is an outcome.
-/

namespace LiveTemplate

variable {σ ε α : Type}

/-- Something that a run does. -/
inductive Act (σ : Type)
  /-- An operation that runs no other routine, with its answer. -/
  | performed (request : Request σ) (answer : request.Answer)
  /-- A write of a field. -/
  | wrote (field : FieldId) (value : Value)
  /-- The end of a recomputation. -/
  | recomputed (subscriber : SubscriberId) (outcome : Except ReactiveError Value)

namespace Engine

/-- The trace of what follows a session. -/
def traceBehind (session : Session σ ε α) (next : Except ε α → Store σ → List (Act σ))
    (s : Store σ) : List (Act σ) :=
  match session s with
  | some (outcome, t) => next outcome t
  | none => []

section

variable (recompute : SubscriberId → ReactiveSession σ Value)
  (trace : SubscriberId → Store σ → List (Act σ))

/-- The trace of recomputing subscribers up to the first that fails. -/
def failFastTrace : List SubscriberId → Store σ → List (Act σ)
  | [], _ => []
  | subscriber :: rest, s =>
    trace subscriber s ++ traceBehind (recompute subscriber) (fun
      | .ok _, t => failFastTrace rest t
      | .error _, _ => []) s

/-- The trace of recomputing every subscriber. -/
def isolatedTrace : List SubscriberId → Store σ → List (Act σ)
  | [], _ => []
  | subscriber :: rest, s =>
    trace subscriber s ++ traceBehind (recompute subscriber) (fun
      | .ok _, t => isolatedTrace rest t
      | .error e, t =>
        isolatedTrace rest (t.report (.notifyFailed (t.subscriberKey subscriber) e.message))) s

/-- The trace of a notification. -/
def notifyTrace (field : FieldId) (s : Store σ) : List (Act σ) :=
  match s.fields[field]? with
  | none => []
  | some cell =>
    let s := s.report (.notified cell.registrations.length)
    match cell.policy with
    | .failFast => failFastTrace recompute trace cell.registrations s
    | .isolate => isolatedTrace recompute trace cell.registrations s

/-- The trace of a routine, with the given way to recompute a subscriber and its trace. -/
def runTraceWith : Routine σ → Store σ → List (Act σ)
  | .done _, _ => []
  | .fail _, _ => []
  | .request r next, s =>
    .performed r (s.perform r).2 :: runTraceWith (next (s.perform r).2) (s.perform r).1
  | .untracked body next, s =>
    runTraceWith body (s.withActive none) ++
      traceBehind (Session.collecting none (runWith recompute body))
        (fun outcome => runTraceWith (next outcome)) s
  | .watch read write key callback next, s =>
    runTraceWith (read key)
        ((s.subscribe ⟨key, ⟨read, write⟩, callback⟩).withActive (some s.subscribers.size)) ++
      traceBehind (construct ⟨read, write⟩ key callback (runWith recompute (read key)))
        (fun outcome => runTraceWith (next outcome)) s
  | .set field value next, s =>
    .wrote field value :: notifyTrace recompute trace field (s.assign field value) ++
      traceBehind (set recompute field value) (fun outcome => runTraceWith (next outcome)) s
  | .notify field next, s =>
    notifyTrace recompute trace field s ++
      traceBehind (notify recompute field) (fun outcome => runTraceWith (next outcome)) s
  | .recompute subscriber next, s =>
    trace subscriber s ++
      traceBehind (recompute subscriber) (fun outcome => runTraceWith (next outcome)) s

end

/-- The trace of a recomputation. -/
def recomputeTrace : Nat → SubscriberId → Store σ → List (Act σ)
  | 0, _, _ => []
  | fuel + 1, subscriber, s =>
    match s.subscribers[subscriber]? with
    | none => []
    | some cell =>
      runTraceWith (recompute fuel) (recomputeTrace fuel)
          ((cell.source.read cell.key).bind cell.callback) s ++
        traceBehind (recompute (fuel + 1) subscriber)
          (fun outcome _ => [.recomputed subscriber outcome]) s

/-- The trace of a routine in which recomputations nest at most `fuel` deep. -/
def runTrace (fuel : Nat) (routine : Routine σ) (s : Store σ) : List (Act σ) :=
  runTraceWith (recompute fuel) (recomputeTrace fuel) routine s

/-! ## Larger bounds -/

/-- Every outcome of the first session is one of the second. -/
def Extends (first second : Session σ ε α) : Prop :=
  ∀ s result, first s = some result → second s = some result

namespace Extends

open Session

variable {ε' β : Type}

theorem refl (session : Session σ ε α) : Extends session session := fun _ _ h => h

theorem followedBy {first second : Session σ ε α} {next later : Except ε α → Session σ ε' β}
    (hfirst : Extends first second) (hnext : ∀ outcome, Extends (next outcome) (later outcome)) :
    Extends (first.followedBy next) (second.followedBy later) := by
  intro s result h
  obtain ⟨outcome, t, hs, ht⟩ := followedBy_eq_some.1 h
  exact followedBy_eq_some.2 ⟨outcome, t, hfirst s _ hs, hnext outcome t _ ht⟩

theorem bind {first second : Session σ ε α} {next later : α → Session σ ε β}
    (hfirst : Extends first second) (hnext : ∀ a, Extends (next a) (later a)) :
    Extends (first >>= next) (second >>= later) := by
  rw [bind_eq_followedBy, bind_eq_followedBy]
  refine followedBy hfirst fun outcome => ?_
  cases outcome with
  | ok a => exact hnext a
  | error e => exact refl _

theorem collecting {first second : Session σ ε α} (subscriber : Option SubscriberId)
    (h : Extends first second) :
    Extends (Session.collecting subscriber first) (Session.collecting subscriber second) := by
  intro s result hs
  obtain ⟨outcome, t⟩ := result
  obtain ⟨after, hafter, rfl⟩ := collecting_eq_some.1 hs
  exact collecting_eq_some.2 ⟨after, h _ _ hafter, rfl⟩

end Extends

variable {recompute recompute' : SubscriberId → ReactiveSession σ Value}

theorem notifyFailFast_extends (h : ∀ i, Extends (recompute i) (recompute' i))
    (subscribers : List SubscriberId) :
    Extends (notifyFailFast recompute subscribers) (notifyFailFast recompute' subscribers) := by
  induction subscribers with
  | nil => exact .refl _
  | cons subscriber rest ih => exact .bind (h subscriber) fun _ => ih

theorem collectFailures_extends (h : ∀ i, Extends (recompute i) (recompute' i))
    (subscribers : List SubscriberId) :
    Extends (collectFailures recompute subscribers) (collectFailures recompute' subscribers) := by
  induction subscribers with
  | nil => exact .refl _
  | cons subscriber rest ih =>
      refine .followedBy (h subscriber) fun outcome => ?_
      cases outcome with
      | ok _ => exact ih
      | error e => exact .bind (.refl _) fun _ => .bind ih fun _ => .refl _

theorem notify_extends (h : ∀ i, Extends (recompute i) (recompute' i)) (field : FieldId) :
    Extends (notify recompute field) (notify recompute' field) := by
  intro s result hs
  cases hcell : s.fields[field]? with
  | none =>
      rw [notify_of_none hcell] at hs ⊢
      exact hs
  | some cell =>
      cases hpolicy : cell.policy with
      | failFast =>
          rw [notify_of_failFast hcell hpolicy] at hs ⊢
          exact notifyFailFast_extends h _ _ _ hs
      | isolate =>
          rw [notify_of_isolate hcell hpolicy] at hs ⊢
          exact Extends.bind (collectFailures_extends h _) (fun _ => .refl _) _ _ hs

theorem set_extends (h : ∀ i, Extends (recompute i) (recompute' i)) (field : FieldId)
    (value : Value) : Extends (set recompute field value) (set recompute' field value) :=
  fun s result hs => notify_extends h field (s.assign field value) result hs

theorem construct_extends {read read' : ReactiveSession σ Value} (h : Extends read read')
    (source : Source σ) (key : String) (callback : Value → Routine σ) :
    Extends (construct source key callback read) (construct source key callback read') := by
  intro s result hs
  unfold construct at hs ⊢
  simp only at hs ⊢
  cases hcollect : Session.collecting (some s.subscribers.size) read
      (s.subscribe ⟨key, source, callback⟩) with
  | none => simp [hcollect] at hs
  | some first =>
      rw [hcollect] at hs
      rw [Extends.collecting _ h _ _ hcollect]
      exact hs

theorem runWith_extends (h : ∀ i, Extends (recompute i) (recompute' i)) (routine : Routine σ) :
    Extends (runWith recompute routine) (runWith recompute' routine) := by
  induction routine with
  | done value => exact .refl _
  | fail error => exact .refl _
  | request r next ih => exact fun s result hs => ih _ _ _ hs
  | untracked body next ihbody ih => exact .followedBy (.collecting none ihbody) ih
  | watch read write key callback next ihread _ _ ih =>
      exact .followedBy (construct_extends (ihread key) ⟨read, write⟩ key callback) ih
  | set field value next ih => exact .followedBy (set_extends h field value) ih
  | notify field next ih => exact .followedBy (notify_extends h field) ih
  | recompute subscriber next ih => exact .followedBy (h subscriber) ih

theorem recompute_extends (fuel : Nat) (subscriber : SubscriberId) :
    Extends (Engine.recompute (σ := σ) fuel subscriber)
      (Engine.recompute (fuel + 1) subscriber) := by
  induction fuel generalizing subscriber with
  | zero =>
      intro s result h
      cases h
  | succ fuel ih =>
      intro s result h
      cases hcell : s.subscribers[subscriber]? with
      | none =>
          rw [recompute_succ_of_none hcell] at h ⊢
          exact h
      | some cell =>
          rw [recompute_succ_of_some hcell] at h ⊢
          exact runWith_extends ih _ _ _ h

/-! ## Traces under larger bounds -/

theorem traceBehind_of_eq_some {session : Session σ ε α} {outcome : Except ε α} {s t : Store σ}
    (next : Except ε α → Store σ → List (Act σ)) (h : session s = some (outcome, t)) :
    traceBehind session next s = next outcome t := by
  unfold traceBehind
  rw [h]

variable {trace trace' : SubscriberId → Store σ → List (Act σ)}

theorem failFastTrace_extends (h : ∀ i, Extends (recompute i) (recompute' i))
    (htrace : ∀ i s result, recompute i s = some result → trace' i s = trace i s)
    (subscribers : List SubscriberId) {s : Store σ} {result : Except ReactiveError Value × Store σ}
    (hs : notifyFailFast recompute subscribers s = some result) :
    failFastTrace recompute' trace' subscribers s =
      failFastTrace recompute trace subscribers s := by
  induction subscribers generalizing s with
  | nil => rfl
  | cons subscriber rest ih =>
      obtain ⟨outcome, t⟩ := result
      rcases Session.bind_eq_some.1 hs with ⟨value, u, hu, hrest⟩ | ⟨e, ht, rfl⟩
      · simp only [failFastTrace, htrace _ _ _ hu, traceBehind_of_eq_some _ hu,
          traceBehind_of_eq_some _ (h _ _ _ hu), ih hrest]
      · simp only [failFastTrace, htrace _ _ _ ht, traceBehind_of_eq_some _ ht,
          traceBehind_of_eq_some _ (h _ _ _ ht)]

theorem isolatedTrace_extends (h : ∀ i, Extends (recompute i) (recompute' i))
    (htrace : ∀ i s result, recompute i s = some result → trace' i s = trace i s)
    (subscribers : List SubscriberId) {s : Store σ}
    {result : Except ReactiveError (List ReactiveError) × Store σ}
    (hs : collectFailures recompute subscribers s = some result) :
    isolatedTrace recompute' trace' subscribers s =
      isolatedTrace recompute trace subscribers s := by
  induction subscribers generalizing s result with
  | nil => rfl
  | cons subscriber rest ih =>
      rcases collectFailures_cons hs with ⟨value, u, hu, hrest⟩ | ⟨e, u, later, hu, hrest, -⟩
      · simp only [isolatedTrace, htrace _ _ _ hu, traceBehind_of_eq_some _ hu,
          traceBehind_of_eq_some _ (h _ _ _ hu), ih hrest]
      · simp only [isolatedTrace, htrace _ _ _ hu, traceBehind_of_eq_some _ hu,
          traceBehind_of_eq_some _ (h _ _ _ hu), ih hrest]

theorem notifyTrace_of_none {field : FieldId} {s : Store σ} (hcell : s.fields[field]? = none) :
    notifyTrace recompute trace field s = [] := by
  unfold notifyTrace
  rw [hcell]

theorem notifyTrace_of_failFast {field : FieldId} {s : Store σ} {cell : FieldCell}
    (hcell : s.fields[field]? = some cell) (hpolicy : cell.policy = .failFast) :
    notifyTrace recompute trace field s = failFastTrace recompute trace cell.registrations
      (s.report (.notified cell.registrations.length)) := by
  unfold notifyTrace
  simp only [hcell, hpolicy]

theorem notifyTrace_of_isolate {field : FieldId} {s : Store σ} {cell : FieldCell}
    (hcell : s.fields[field]? = some cell) (hpolicy : cell.policy = .isolate) :
    notifyTrace recompute trace field s = isolatedTrace recompute trace cell.registrations
      (s.report (.notified cell.registrations.length)) := by
  unfold notifyTrace
  simp only [hcell, hpolicy]

theorem notifyTrace_extends (h : ∀ i, Extends (recompute i) (recompute' i))
    (htrace : ∀ i s result, recompute i s = some result → trace' i s = trace i s)
    (field : FieldId) {s : Store σ} {result : Except ReactiveError Value × Store σ}
    (hs : notify recompute field s = some result) :
    notifyTrace recompute' trace' field s = notifyTrace recompute trace field s := by
  cases hcell : s.fields[field]? with
  | none => rw [notifyTrace_of_none hcell, notifyTrace_of_none hcell]
  | some cell =>
      cases hpolicy : cell.policy with
      | failFast =>
          rw [notifyTrace_of_failFast hcell hpolicy, notifyTrace_of_failFast hcell hpolicy]
          rw [notify_of_failFast hcell hpolicy] at hs
          exact failFastTrace_extends h htrace _ hs
      | isolate =>
          rw [notifyTrace_of_isolate hcell hpolicy, notifyTrace_of_isolate hcell hpolicy]
          rw [notify_of_isolate hcell hpolicy] at hs
          -- The subscribers are all recomputed, whether failures are reported in the end or not.
          obtain ⟨outcome, t⟩ := result
          rcases Session.bind_eq_some.1 hs with ⟨failures, u, hu, -⟩ | ⟨e, hu, -⟩
          · exact isolatedTrace_extends h htrace _ hu
          · exact isolatedTrace_extends h htrace _ hu

/-- A run with an outcome has the same trace under a larger bound. -/
theorem runTraceWith_extends (h : ∀ i, Extends (recompute i) (recompute' i))
    (htrace : ∀ i s result, recompute i s = some result → trace' i s = trace i s)
    (routine : Routine σ) {s : Store σ} {result : Except ReactiveError Value × Store σ}
    (hs : runWith recompute routine s = some result) :
    runTraceWith recompute' trace' routine s = runTraceWith recompute trace routine s := by
  induction routine generalizing s result with
  | done value => rfl
  | fail error => rfl
  | request r next ih =>
      rw [runWith_request] at hs
      simp only [runTraceWith, ih _ hs]
  | untracked body next ihbody ih =>
      obtain ⟨outcome, t, hbody, hnext⟩ := Session.followedBy_eq_some.1 hs
      obtain ⟨after, hafter, -⟩ := Session.collecting_eq_some.1 hbody
      have hlarger := Extends.collecting none (runWith_extends h body) _ _ hbody
      simp only [runTraceWith, ihbody hafter, traceBehind_of_eq_some _ hbody,
        traceBehind_of_eq_some _ hlarger, ih _ hnext]
  | watch read write key callback next ihread _ _ ih =>
      obtain ⟨outcome, t, hconstruct, hnext⟩ := Session.followedBy_eq_some.1 hs
      obtain ⟨first, after, hread, -⟩ := construct_eq_some.1 hconstruct
      have hlarger := construct_extends (runWith_extends h (read key)) ⟨read, write⟩ key callback
        _ _ hconstruct
      simp only [runTraceWith, ihread key hread, traceBehind_of_eq_some _ hconstruct,
        traceBehind_of_eq_some _ hlarger, ih _ hnext]
  | set field value next ih =>
      obtain ⟨outcome, t, hset, hnext⟩ := Session.followedBy_eq_some.1 hs
      simp only [runTraceWith, notifyTrace_extends h htrace field (s := s.assign field value) hset,
        traceBehind_of_eq_some _ hset,
        traceBehind_of_eq_some _ (set_extends h field value _ _ hset), ih _ hnext]
  | notify field next ih =>
      obtain ⟨outcome, t, hnotify, hnext⟩ := Session.followedBy_eq_some.1 hs
      simp only [runTraceWith, notifyTrace_extends h htrace field hnotify,
        traceBehind_of_eq_some _ hnotify,
        traceBehind_of_eq_some _ (notify_extends h field _ _ hnotify), ih _ hnext]
  | recompute subscriber next ih =>
      obtain ⟨outcome, t, hrecompute, hnext⟩ := Session.followedBy_eq_some.1 hs
      simp only [runTraceWith, htrace _ _ _ hrecompute, traceBehind_of_eq_some _ hrecompute,
        traceBehind_of_eq_some _ (h subscriber _ _ hrecompute), ih _ hnext]

/-- The trace of a recomputation that ends is that of its routine, and its end. -/
theorem recomputeTrace_succ_of_some {fuel : Nat} {subscriber : SubscriberId} {s : Store σ}
    {cell : Subscriber σ} {result : Except ReactiveError Value × Store σ}
    (hcell : s.subscribers[subscriber]? = some cell)
    (hrun : Engine.recompute (fuel + 1) subscriber s = some result) :
    recomputeTrace (fuel + 1) subscriber s =
      runTraceWith (Engine.recompute fuel) (recomputeTrace fuel)
        ((cell.source.read cell.key).bind cell.callback) s ++
          [.recomputed subscriber result.1] := by
  unfold recomputeTrace
  rw [hcell]
  simp only [traceBehind_of_eq_some _ hrun]

theorem recomputeTrace_succ_of_none {fuel : Nat} {subscriber : SubscriberId} {s : Store σ}
    (hcell : s.subscribers[subscriber]? = none) :
    recomputeTrace (fuel + 1) subscriber s = [] := by
  unfold recomputeTrace
  rw [hcell]

theorem recomputeTrace_extends (fuel : Nat) (subscriber : SubscriberId) {s : Store σ}
    {result : Except ReactiveError Value × Store σ}
    (hs : Engine.recompute fuel subscriber s = some result) :
    recomputeTrace (fuel + 1) subscriber s = recomputeTrace fuel subscriber s := by
  induction fuel generalizing subscriber s result with
  | zero => cases hs
  | succ fuel ih =>
      have hlarger := recompute_extends _ _ _ _ hs
      cases hcell : s.subscribers[subscriber]? with
      | none => rw [recomputeTrace_succ_of_none hcell, recomputeTrace_succ_of_none hcell]
      | some cell =>
          rw [recomputeTrace_succ_of_some hcell hs, recomputeTrace_succ_of_some hcell hlarger]
          rw [recompute_succ_of_some hcell] at hs
          rw [runTraceWith_extends (recompute_extends fuel) (fun i s result => ih i) _ hs]

theorem run_mono {fuel larger : Nat} (hle : fuel ≤ larger) {routine : Routine σ} {s : Store σ}
    {result : Except ReactiveError Value × Store σ} (h : run fuel routine s = some result) :
    run larger routine s = some result ∧
      runTrace larger routine s = runTrace fuel routine s := by
  induction hle with
  | refl => exact ⟨h, rfl⟩
  | step _ ih =>
      exact ⟨runWith_extends (recompute_extends _) routine _ _ ih.1,
        (runTraceWith_extends (recompute_extends _)
          (fun i s result => recomputeTrace_extends _ i) routine ih.1).trans ih.2⟩

end Engine

end LiveTemplate
