import LiveTemplate.Proofs.Reactive.Progress
import LiveTemplate.Proofs.Reactive.Trace
import LiveTemplate.Proofs.Reactive.WithPolicy

/-!
# Fail-fast runs as prefixes of isolating runs

Two runs of one routine start from stores that differ in their policies only: every object and
dependency is fail-fast in one and isolating in the other.  As long as nothing fails, the two runs
do the same.  At the first failure, at whatever depth, the fail-fast run does nothing more, and the
isolating run goes on and reports that failure first at every level it passes.

Routines are meant here that end with the first error they meet.
-/

namespace LiveTemplate

variable {σ α β : Type}

/-! ## Leftmost failures -/

namespace ReactiveError

/-- The failures that are no cascades, from left to right. -/
def leaves : ReactiveError → List ReactiveError
  | unknownProperty key => [unknownProperty key]
  | callback message => [callback message]
  | cascade failures => leavesOf failures
where
  /-- The leaves of each failure. -/
  leavesOf : List ReactiveError → List ReactiveError
    | [] => []
    | failure :: rest => leaves failure ++ leavesOf rest

/-- The error stands at the left end of another: it is the first failure of the first failure, and
so on. -/
inductive Leftmost (error : ReactiveError) : ReactiveError → Prop
  | here : Leftmost error error
  | first {failure : ReactiveError} {rest : List ReactiveError} :
    Leftmost error failure → Leftmost error (cascade (failure :: rest))

theorem Leftmost.head?_leaves {error whole : ReactiveError} (h : error.Leftmost whole)
    (hplain : ∀ failures, error ≠ cascade failures) : whole.leaves.head? = some error := by
  induction h with
  | here =>
      cases error with
      | unknownProperty key => rfl
      | callback message => rfl
      | cascade failures => exact absurd rfl (hplain failures)
  | first _ ih =>
      rw [leaves, leaves.leavesOf, List.head?_append, ih]
      rfl

end ReactiveError

/-! ## Routines that end with the first error they meet -/

/-- The operation makes objects, if any, under the default policy. -/
def Request.Default : Request σ → Prop
  | .observe _ policy => policy = ({} : ReactiveConfig).notifyPolicy
  | _ => True

/-- The routine, and every routine it registers, ends with the first error that it meets and fails
on its own account only with errors of the given kind.  New objects are made under the default
policy, so that a fail-fast store stays one. -/
def Routine.Forthright (raised : ReactiveError → Prop) : Routine σ → Prop
  | .done _ => True
  | .fail error => raised error
  | .request r next => r.Default ∧ ∀ answer, (next answer).Forthright raised
  | .untracked body next =>
    body.Forthright raised ∧ (∀ e, next (.error e) = .fail e) ∧
      ∀ value, (next (.ok value)).Forthright raised
  | .watch read _ key callback next =>
    ((read key).Forthright raised ∧ ∀ value, (callback value).Forthright raised) ∧
      (∀ e, next (.error e) = .fail e) ∧ ∀ subscriber, (next (.ok subscriber)).Forthright raised
  | .set _ _ next =>
    (∀ e, next (.error e) = .fail e) ∧ ∀ value, (next (.ok value)).Forthright raised
  | .notify _ next =>
    (∀ e, next (.error e) = .fail e) ∧ ∀ value, (next (.ok value)).Forthright raised
  | .recompute _ next =>
    (∀ e, next (.error e) = .fail e) ∧ ∀ value, (next (.ok value)).Forthright raised

/-- The read of the subscriber's key and its callback are forthright. -/
def Subscriber.Forthright (raised : ReactiveError → Prop) (cell : Subscriber σ) : Prop :=
  (cell.source.read cell.key).Forthright raised ∧ ∀ value, (cell.callback value).Forthright raised

/-- Every subscriber is forthright. -/
def Store.Forthright (raised : ReactiveError → Prop) (s : Store σ) : Prop :=
  ∀ cell ∈ s.subscribers, cell.Forthright raised

variable {raised : ReactiveError → Prop}

/-- What passes errors on does so in front of what passes them on. -/
theorem Routine.followedBy_of_error {β : Type} {first : Except ReactiveError β → Routine σ}
    {next : Except ReactiveError Value → Routine σ} (hfirst : ∀ e, first (.error e) = .fail e)
    (hnext : ∀ e, next (.error e) = .fail e) (e : ReactiveError) :
    (first (.error e)).followedBy next = .fail e := by
  rw [hfirst, Routine.followedBy, hnext]

theorem Routine.Forthright.followedBy {routine : Routine σ}
    {next : Except ReactiveError Value → Routine σ} (hroutine : routine.Forthright raised)
    (hpass : ∀ e, next (.error e) = .fail e)
    (hnext : ∀ value, (next (.ok value)).Forthright raised) :
    (routine.followedBy next).Forthright raised := by
  induction routine with
  | done value => exact hnext value
  | fail error =>
      rw [Routine.followedBy, hpass]
      exact hroutine
  | request r k ih => exact ⟨hroutine.1, fun answer => ih answer (hroutine.2 answer)⟩
  | untracked body k _ ih =>
      obtain ⟨hbody, hk, hk'⟩ := hroutine
      exact ⟨hbody, Routine.followedBy_of_error hk hpass, fun value => ih _ (hk' value)⟩
  | watch read write key callback k _ _ _ ih =>
      obtain ⟨hsubscriber, hk, hk'⟩ := hroutine
      exact ⟨hsubscriber, Routine.followedBy_of_error hk hpass, fun subscriber => ih _ (hk' subscriber)⟩
  | set field value k ih =>
      exact ⟨Routine.followedBy_of_error hroutine.1 hpass, fun value => ih _ (hroutine.2 value)⟩
  | notify field k ih =>
      exact ⟨Routine.followedBy_of_error hroutine.1 hpass, fun value => ih _ (hroutine.2 value)⟩
  | recompute subscriber k ih =>
      exact ⟨Routine.followedBy_of_error hroutine.1 hpass, fun value => ih _ (hroutine.2 value)⟩

theorem Routine.Forthright.bind {routine : Routine σ} {next : Value → Routine σ}
    (hroutine : routine.Forthright raised) (hnext : ∀ value, (next value).Forthright raised) :
    (routine.bind next).Forthright raised :=
  hroutine.followedBy (fun _ => rfl) hnext

theorem Routine.forthright_setField (field : FieldId) (value : Value) :
    (Routine.setField field value : Routine σ).Forthright raised :=
  ⟨fun _ => rfl, fun _ => trivial⟩

/-- A forthright operation does the same whatever the policies. -/
theorem Store.withPolicy_perform (s : Store σ) {r : Request σ} (hr : r.Default) :
    (s.withPolicy .failFast).perform r =
      ((s.perform r).1.withPolicy .failFast, (s.perform r).2) := by
  cases r with
  | field object key =>
      simp only [perform, withPolicy_field?]
  | get field => exact withPolicy_get .failFast s field
  | peek field =>
      simp only [perform, withPolicy_peek]
  | define object key value => exact withPolicy_define s object key value
  | observe json policy =>
      obtain rfl : policy = .failFast := hr
      exact withPolicy_observe s json
  | register field subscriber =>
      simp only [perform, withPolicy_register]
  | _ => rfl

theorem Store.Forthright.subscribe {s : Store σ} (hs : s.Forthright raised) {cell : Subscriber σ}
    (hcell : cell.Forthright raised) : (s.subscribe cell).Forthright raised := by
  intro other hother
  rw [subscribe_subscribers, Array.mem_push] at hother
  rcases hother with hother | rfl
  · exact hs other hother
  · exact hcell

/-- Every step only adds to the journal. -/
theorem Progress.journal : Progress fun s t : Store σ => s.journal <:+ t.journal where
  refl _ := List.suffix_rfl
  trans hst htu := hst.trans htu
  record s entry := List.suffix_cons entry s.journal
  newObject _ _ := List.suffix_rfl
  newArray _ _ := List.suffix_rfl
  define s _ key _ := List.suffix_cons (Entry.event (.defined key)) s.journal
  register s _ _ := List.suffix_cons _ s.journal
  assign s field value := by
    unfold Store.assign
    split
    · exact List.suffix_rfl
    · exact List.suffix_cons _ s.journal
  edit _ _ := List.suffix_rfl
  share _ _ := List.suffix_rfl
  push _ _ := List.suffix_rfl
  collecting _ h := h

/-! ## Abridged runs -/

/-- Whether a routine did it, rather than the engine for it. -/
def Act.isEffect : Act σ → Bool
  | .recomputed _ _ => false
  | _ => true

/-- What the routines of a run did. -/
def effects (trace : List (Act σ)) : List (Act σ) := trace.filter Act.isEffect

theorem effects_append (first second : List (Act σ)) :
    effects (first ++ second) = effects first ++ effects second :=
  List.filter_append ..

namespace Engine

open Session

theorem effects_recomputed (subscriber : SubscriberId) (outcome : Except ReactiveError Value) :
    effects [(.recomputed subscriber outcome : Act σ)] = [] := rfl

/-- A run, given by outcome, last store and trace, abridges another one: both succeed and do the
same, or it ends with an error, having done what the other one did first. -/
inductive Abridges (raised : ReactiveError → Prop) :
    Except ReactiveError α × Store σ → List (Act σ) →
      Except ReactiveError α × Store σ → List (Act σ) → Prop
  | ok (a : α) {t : Store σ} (trace : List (Act σ)) (ht : t.Forthright raised) :
    Abridges raised (.ok a, t.withPolicy .failFast) trace (.ok a, t) trace
  | error {e e' : ReactiveError} {t t' : Store σ} {trace trace' : List (Act σ)} (he : raised e)
    (hleft : e.Leftmost e') (hjournal : t.journal <:+ t'.journal)
    (heffects : effects trace <+: effects trace') :
    Abridges raised (.error e, t) trace (.error e', t') trace'

theorem Abridges.append {first second : Except ReactiveError α × Store σ}
    {trace trace' : List (Act σ)} (h : Abridges raised first trace second trace')
    (before : List (Act σ)) :
    Abridges raised first (before ++ trace) second (before ++ trace') := by
  cases h with
  | ok a trace ht => exact .ok a _ ht
  | error he hleft hjournal heffects =>
      refine .error he hleft hjournal ?_
      rw [effects_append, effects_append, List.prefix_append_right_inj]
      exact heffects

theorem Abridges.summary {outcome outcome' : Except ReactiveError α} {t t' : Store σ}
    {trace trace' : List (Act σ)} (h : Abridges raised (outcome, t) trace (outcome', t') trace') :
    effects trace <+: effects trace' ∧ t.journal <:+ t'.journal ∧
      (∀ a, outcome = .ok a →
        outcome' = .ok a ∧ effects trace' = effects trace ∧ t = t'.withPolicy .failFast) ∧
      ∀ e, outcome = .error e → raised e ∧ ∃ e', outcome' = .error e' ∧ e.Leftmost e' ∧
        ((∀ failures, e ≠ .cascade failures) → e'.leaves.head? = some e) := by
  cases h with
  | ok a trace ht =>
      refine ⟨List.prefix_rfl, List.suffix_rfl, ?_, ?_⟩
      · intro b hb
        exact ⟨hb, rfl, rfl⟩
      · intro e he
        cases he
  | error he hleft hjournal heffects =>
      refine ⟨heffects, hjournal, ?_, ?_⟩
      · intro a ha
        cases ha
      · intro e hsame
        obtain rfl := Except.error.inj hsame
        exact ⟨he, _, rfl, hleft, hleft.head?_leaves⟩

/-- The run of a session from the fail-fast version of a store abridges the run from the store. -/
def Abridged (raised : ReactiveError → Prop) (session : Session σ ReactiveError α)
    (trace : Store σ → List (Act σ)) : Prop :=
  ∀ s first second, s.Forthright raised → session (s.withPolicy .failFast) = some first →
    session s = some second →
    Abridges raised first (trace (s.withPolicy .failFast)) second (trace s)

theorem abridged_pure (a : α) : Abridged (σ := σ) raised (pure a) fun _ => [] := by
  intro s first second hs hfirst hsecond
  obtain rfl := pure_eq_some.1 hfirst
  obtain rfl := pure_eq_some.1 hsecond
  exact .ok a [] hs

/-- What follows a session and passes errors on keeps abridged what is abridged. -/
theorem Abridged.followedBy {session : Session σ ReactiveError α}
    {trace : Store σ → List (Act σ)} {next : Except ReactiveError α → Session σ ReactiveError β}
    {later : Except ReactiveError α → Store σ → List (Act σ)}
    (hsession : Abridged raised session trace)
    (hpass : ∀ e t, next (.error e) t = some (.error e, t) ∧ later (.error e) t = [])
    (hnext : ∀ a, Abridged raised (next (.ok a)) (later (.ok a))) :
    Abridged raised (session.followedBy next) fun s =>
      trace s ++ traceBehind session later s := by
  intro s first second hs hfirst hsecond
  obtain ⟨outcome, t, ht, hlast⟩ := followedBy_eq_some.1 hfirst
  obtain ⟨outcome', t', ht', hlast'⟩ := followedBy_eq_some.1 hsecond
  have hsofar := hsession s _ _ hs ht ht'
  simp only [traceBehind_of_eq_some _ ht, traceBehind_of_eq_some _ ht']
  -- The traces become variables, for they are indices of the relation that is taken apart.
  generalize trace (s.withPolicy .failFast) = before at hsofar
  generalize trace s = before' at hsofar
  cases hsofar with
  | ok a before hforthright =>
      exact (hnext a t' first second hforthright hlast hlast').append before
  | error he hleft hjournal heffects =>
      rw [(hpass _ _).1] at hlast hlast'
      obtain rfl := Option.some.inj hlast
      obtain rfl := Option.some.inj hlast'
      rw [(hpass _ _).2, (hpass _ _).2, List.append_nil, List.append_nil]
      exact .error he hleft hjournal heffects

variable {recompute : SubscriberId → ReactiveSession σ Value}
  {trace : SubscriberId → Store σ → List (Act σ)}

theorem notifyFailFast_abridged (hrecompute : ∀ i, Abridged raised (recompute i) (trace i))
    (subscribers : List SubscriberId) :
    Abridged raised (notifyFailFast recompute subscribers)
      (failFastTrace recompute trace subscribers) := by
  induction subscribers with
  | nil => exact abridged_pure _
  | cons subscriber rest ih =>
      rw [notifyFailFast, bind_eq_followedBy]
      exact Abridged.followedBy (hrecompute subscriber) (fun _ _ => ⟨rfl, rfl⟩) fun _ => ih

theorem isolated_abridged (hrecompute : ∀ i, Abridged raised (recompute i) (trace i))
    (hjournal : ∀ i, Keeps (fun s t : Store σ => s.journal <:+ t.journal) (recompute i))
    (subscribers : List SubscriberId) {s t : Store σ}
    {first : Except ReactiveError Value × Store σ} {failures : List ReactiveError}
    (hs : s.Forthright raised)
    (hfirst : notifyFailFast recompute subscribers (s.withPolicy .failFast) = some first)
    (hsecond : collectFailures recompute subscribers s = some (.ok failures, t)) :
    Abridges raised first (failFastTrace recompute trace subscribers (s.withPolicy .failFast))
      (outcomeOfFailures failures, t) (isolatedTrace recompute trace subscribers s) := by
  induction subscribers generalizing s failures with
  | nil =>
      obtain rfl := pure_eq_some.1 hfirst
      obtain ⟨rfl, rfl⟩ := pure_ok.1 hsecond
      exact .ok Value.null [] hs
  | cons subscriber rest ih =>
      rw [notifyFailFast, bind_eq_followedBy] at hfirst
      obtain ⟨outcome, u, hu, hlast⟩ := followedBy_eq_some.1 hfirst
      rw [failFastTrace, isolatedTrace, traceBehind_of_eq_some _ hu]
      rcases collectFailures_cons hsecond with
        ⟨value, u', hu', hrest⟩ | ⟨e', u', later, hu', hrest, hlater⟩
      · rw [traceBehind_of_eq_some _ hu']
        have hsofar := hrecompute subscriber s _ _ hs hu hu'
        generalize trace subscriber (s.withPolicy .failFast) = before at hsofar ⊢
        generalize trace subscriber s = before' at hsofar ⊢
        cases hsofar with
        | ok _ _ hforthright => exact (ih hforthright hlast hrest).append before
      · rw [traceBehind_of_eq_some _ hu']
        have hsofar := hrecompute subscriber s _ _ hs hu hu'
        generalize trace subscriber (s.withPolicy .failFast) = before at hsofar ⊢
        generalize trace subscriber s = before' at hsofar ⊢
        cases hsofar with
        | error he hleft hgrown heffects =>
            -- The fail-fast run is over here; the isolating one goes on and can only add.
            obtain ⟨others, rfl⟩ := collectFailures_ok hrest
            obtain rfl := Except.ok.inj hlater
            obtain rfl := throw_eq_some.1 hlast
            refine .error he (.first hleft) ?_ ?_
            · have hreport := Progress.journal.report u'
                (.notifyFailed (u'.subscriberKey subscriber) e'.message)
              exact hgrown.trans (hreport.trans
                (Progress.journal.collectFailures hjournal rest _ _ _ hrest))
            · rw [List.append_nil, effects_append]
              exact heffects.trans (List.prefix_append _ _)

theorem notify_abridged (hrecompute : ∀ i, Abridged raised (recompute i) (trace i))
    (hjournal : ∀ i, Keeps (fun s t : Store σ => s.journal <:+ t.journal) (recompute i))
    (field : FieldId) :
    Abridged raised (notify recompute field) (notifyTrace recompute trace field) := by
  intro s first second hs hfirst hsecond
  -- The fail-fast version of the store has the same field under the fail-fast policy.
  have hfields : (s.withPolicy .failFast).fields[field]? =
      s.fields[field]?.map (FieldCell.withPolicy .failFast) :=
    Array.getElem?_map ..
  cases hcell : s.fields[field]? with
  | none =>
      rw [hcell, Option.map_none] at hfields
      rw [notify_of_none hfields] at hfirst
      rw [notify_of_none hcell] at hsecond
      obtain rfl := Option.some.inj hfirst
      obtain rfl := Option.some.inj hsecond
      rw [notifyTrace_of_none hfields, notifyTrace_of_none hcell]
      exact .ok Value.null [] hs
  | some cell =>
      rw [hcell, Option.map_some] at hfields
      rw [notify_of_failFast hfields rfl] at hfirst
      rw [notifyTrace_of_failFast hfields rfl]
      have hentered : (s.report (.notified cell.registrations.length)).Forthright raised := hs
      cases hpolicy : cell.policy with
      | failFast =>
          rw [notify_of_failFast hcell hpolicy] at hsecond
          rw [notifyTrace_of_failFast hcell hpolicy]
          exact notifyFailFast_abridged hrecompute _ _ _ _ hentered hfirst hsecond
      | isolate =>
          rw [notify_of_isolate hcell hpolicy] at hsecond
          rw [notifyTrace_of_isolate hcell hpolicy]
          obtain ⟨outcome, t⟩ := second
          obtain ⟨failures, hcollect, rfl⟩ := notifyIsolated_eq_some hsecond
          exact isolated_abridged hrecompute hjournal _ hentered hfirst hcollect

theorem set_abridged (hrecompute : ∀ i, Abridged raised (recompute i) (trace i))
    (hjournal : ∀ i, Keeps (fun s t : Store σ => s.journal <:+ t.journal) (recompute i))
    (field : FieldId) (value : Value) :
    Abridged raised (set recompute field value) fun s =>
      .wrote field value :: notifyTrace recompute trace field (s.assign field value) := by
  intro s first second hs hfirst hsecond
  rw [set, Store.withPolicy_assign] at hfirst
  have hassigned : (s.assign field value).Forthright raised := by
    intro cell hcell
    rw [Store.assign_subscribers] at hcell
    exact hs cell hcell
  have hnotified := notify_abridged hrecompute hjournal field _ _ _ hassigned hfirst hsecond
  dsimp only
  rw [Store.withPolicy_assign]
  exact hnotified.append [.wrote field value]

theorem collecting_abridged {session : Session σ ReactiveError α}
    {during : Store σ → List (Act σ)} (h : Abridged raised session during)
    (subscriber : Option SubscriberId) :
    Abridged raised (Session.collecting subscriber session) fun s =>
      during (s.withActive subscriber) := by
  intro s first second hs hfirst hsecond
  obtain ⟨outcome, t⟩ := first
  obtain ⟨outcome', t'⟩ := second
  obtain ⟨after, hafter, rfl⟩ := collecting_eq_some.1 hfirst
  obtain ⟨after', hafter', rfl⟩ := collecting_eq_some.1 hsecond
  have hbody := h (s.withActive subscriber) _ _ hs hafter hafter'
  rw [← Store.withPolicy_withActive] at hbody
  dsimp only
  generalize during ((s.withPolicy .failFast).withActive subscriber) = before at hbody ⊢
  generalize during (s.withActive subscriber) = before' at hbody ⊢
  cases hbody with
  | ok a before hforthright =>
      have hlast : (after'.withActive s.active).Forthright raised := hforthright
      exact .ok a before hlast
  | error he hleft hgrown heffects => exact .error he hleft hgrown heffects

theorem construct_abridged {source : Source σ} {key : String} {callback : Value → Routine σ}
    {read : ReactiveSession σ Value} {during : Store σ → List (Act σ)}
    (hread : Abridged raised read during)
    (hcell : (⟨key, source, callback⟩ : Subscriber σ).Forthright raised) :
    Abridged raised (construct source key callback read) fun s =>
      during ((s.subscribe ⟨key, source, callback⟩).withActive (some s.subscribers.size)) := by
  intro s first second hs hfirst hsecond
  obtain ⟨outcome, t⟩ := first
  obtain ⟨outcome', t'⟩ := second
  obtain ⟨value?, after, hafter, hlast⟩ := construct_eq_some.1 hfirst
  obtain ⟨value?', after', hafter', hlast'⟩ := construct_eq_some.1 hsecond
  have hsize : (s.withPolicy .failFast).subscribers.size = s.subscribers.size := rfl
  have hslot : (s.withPolicy .failFast).active = s.active := rfl
  rw [Store.withPolicy_subscribe, Store.withPolicy_withActive, hsize] at hafter
  rw [hsize, hslot] at hlast
  have hentered : ((s.subscribe ⟨key, source, callback⟩).withActive
      (some s.subscribers.size)).Forthright raised := hs.subscribe hcell
  have hbody := hread _ _ _ hentered hafter hafter'
  dsimp only
  rw [Store.withPolicy_subscribe, Store.withPolicy_withActive, hsize]
  generalize during (((s.subscribe ⟨key, source, callback⟩).withActive
    (some s.subscribers.size)).withPolicy .failFast) = before at hbody ⊢
  generalize during ((s.subscribe ⟨key, source, callback⟩).withActive
    (some s.subscribers.size)) = before' at hbody ⊢
  -- The constructions end as the reads do, and put the same slot back.
  cases hbody with
  | ok a before hforthright =>
      rcases hlast with ⟨_, -, rfl, rfl⟩ | ⟨_, habsurd, -⟩
      · rcases hlast' with ⟨_, -, rfl, rfl⟩ | ⟨_, habsurd, -⟩
        · rw [Store.withPolicy_withActive, Store.withPolicy_report]
          exact .ok _ before hforthright
        · cases habsurd
      · cases habsurd
  | error he hleft hgrown heffects =>
      rcases hlast with ⟨_, habsurd, -⟩ | ⟨_, hsame, rfl, rfl⟩
      · cases habsurd
      · rcases hlast' with ⟨_, habsurd, -⟩ | ⟨_, hsame', rfl, rfl⟩
        · cases habsurd
        · obtain rfl := Except.error.inj hsame
          obtain rfl := Except.error.inj hsame'
          exact .error he hleft hgrown heffects

/-- Induction on the routine: in each step the two runs do the same and go on from stores that
differ in their policies only, or both routines are over. -/
theorem runWith_abridged (hrecompute : ∀ i, Abridged raised (recompute i) (trace i))
    (hjournal : ∀ i, Keeps (fun s t : Store σ => s.journal <:+ t.journal) (recompute i))
    (routine : Routine σ) (hroutine : routine.Forthright raised) :
    Abridged raised (runWith recompute routine) (runTraceWith recompute trace routine) := by
  have hpass {β : Type} {next : Except ReactiveError β → Routine σ}
      (hnext : ∀ e, next (.error e) = .fail e) (e : ReactiveError) (t : Store σ) :
      runWith recompute (next (.error e)) t = some (.error e, t) ∧
        runTraceWith recompute trace (next (.error e)) t = [] := by
    rw [hnext]
    exact ⟨rfl, rfl⟩
  induction routine with
  | done value => exact abridged_pure value
  | fail error =>
      intro s first second hs hfirst hsecond
      obtain rfl := throw_eq_some.1 hfirst
      obtain rfl := throw_eq_some.1 hsecond
      exact .error hroutine .here List.suffix_rfl List.prefix_rfl
  | request r next ih =>
      intro s first second hs hfirst hsecond
      rw [runWith_request] at hfirst hsecond
      rw [runTraceWith, runTraceWith]
      rw [Store.withPolicy_perform s hroutine.1] at hfirst ⊢
      have hperformed : (s.perform r).1.Forthright raised := by
        intro cell hcell
        rw [Store.perform_subscribers] at hcell
        exact hs cell hcell
      have hrest := ih _ (hroutine.2 _) _ _ _ hperformed hfirst hsecond
      exact hrest.append [.performed r (s.perform r).2]
  | untracked body next ihbody ih =>
      obtain ⟨hbody, hfail, hok⟩ := hroutine
      exact Abridged.followedBy (collecting_abridged (ihbody hbody) none) (hpass hfail)
        fun value => ih _ (hok value)
  | watch read write key callback next ihread _ _ ih =>
      obtain ⟨hcell, hfail, hok⟩ := hroutine
      exact Abridged.followedBy (construct_abridged (ihread key hcell.1) hcell) (hpass hfail)
        fun subscriber => ih _ (hok subscriber)
  | set field value next ih =>
      exact Abridged.followedBy (set_abridged hrecompute hjournal field value) (hpass hroutine.1)
        fun outcome => ih _ (hroutine.2 outcome)
  | notify field next ih =>
      exact Abridged.followedBy (notify_abridged hrecompute hjournal field) (hpass hroutine.1)
        fun outcome => ih _ (hroutine.2 outcome)
  | recompute subscriber next ih =>
      exact Abridged.followedBy (hrecompute subscriber) (hpass hroutine.1)
        fun outcome => ih _ (hroutine.2 outcome)

/-- Induction on the bound.  A subscriber of the store is forthright, and so is its read with the
callback behind. -/
theorem recompute_abridged (fuel : Nat) (subscriber : SubscriberId) :
    Abridged raised (Engine.recompute (σ := σ) fuel subscriber)
      (recomputeTrace fuel subscriber) := by
  induction fuel generalizing subscriber with
  | zero =>
      intro s first second hs hfirst
      cases hfirst
  | succ fuel ih =>
      intro s first second hs hfirst hsecond
      cases hcell : s.subscribers[subscriber]? with
      | none =>
          have hcell' : (s.withPolicy .failFast).subscribers[subscriber]? = none := hcell
          rw [recomputeTrace_succ_of_none hcell, recomputeTrace_succ_of_none hcell']
          rw [recompute_succ_of_none hcell'] at hfirst
          rw [recompute_succ_of_none hcell] at hsecond
          obtain rfl := Option.some.inj hfirst
          obtain rfl := Option.some.inj hsecond
          exact .ok Value.null [] hs
      | some cell =>
          have hcell' : (s.withPolicy .failFast).subscribers[subscriber]? = some cell := hcell
          have hforthright := hs cell (Array.mem_of_getElem? hcell)
          rw [recomputeTrace_succ_of_some hcell hsecond,
            recomputeTrace_succ_of_some hcell' hfirst]
          rw [recompute_succ_of_some hcell'] at hfirst
          rw [recompute_succ_of_some hcell] at hsecond
          have hbody := runWith_abridged ih (recompute_keeps Progress.journal fuel) _
            (hforthright.1.bind hforthright.2) s _ _ hs hfirst hsecond
          generalize runTraceWith (Engine.recompute fuel) (recomputeTrace fuel) _
            (s.withPolicy .failFast) = before at hbody ⊢
          generalize runTraceWith (Engine.recompute fuel) (recomputeTrace fuel) _ s = before'
            at hbody ⊢
          cases hbody with
          | ok a before ht => exact .ok a _ ht
          | error he hleft hgrown heffects =>
              -- The end of a recomputation is no effect, whichever way it ended.
              refine .error he hleft hgrown ?_
              rw [effects_append, effects_append, effects_recomputed, effects_recomputed,
                List.append_nil, List.append_nil]
              exact heffects

/-- The routine of a write or a notification, or any other that ends with the first error it meets,
is run under both policies.  What the fail-fast run does, the isolating run does first.  If the
fail-fast run succeeds, then so does the isolating run, with the same effects, and the last stores
differ in their policies only.  If it fails, then the isolating run fails with a cascade in which
that very failure is the leftmost. -/
theorem failFast_prefix_of_isolate (raised : ReactiveError → Prop) {routine : Routine σ}
    {s t t' : Store σ} {limit limit' : Nat} {outcome outcome' : Except ReactiveError Value}
    (hroutine : routine.Forthright raised) (hs : s.Forthright raised)
    (hfast : run limit routine (s.withPolicy .failFast) = some (outcome, t))
    (hisolate : run limit' routine (s.withPolicy .isolate) = some (outcome', t')) :
    let fast := effects (runTrace limit routine (s.withPolicy .failFast))
    let isolating := effects (runTrace limit' routine (s.withPolicy .isolate))
    fast <+: isolating ∧ t.journal <:+ t'.journal ∧
      (∀ value, outcome = .ok value →
        outcome' = .ok value ∧ isolating = fast ∧ t = t'.withPolicy .failFast) ∧
      ∀ e, outcome = .error e → raised e ∧ ∃ e', outcome' = .error e' ∧ e.Leftmost e' ∧
        ((∀ failures, e ≠ .cascade failures) → e'.leaves.head? = some e) := by
  intro fast isolating
  -- Both runs have the same outcomes and traces under the larger of the two bounds.
  obtain ⟨hfast', htrace⟩ := run_mono (Nat.le_max_left limit limit') hfast
  obtain ⟨hisolate', htrace'⟩ := run_mono (Nat.le_max_right limit limit') hisolate
  have habridged := runWith_abridged (recompute_abridged (max limit limit'))
    (recompute_keeps Progress.journal _) routine hroutine (s.withPolicy .isolate)
  rw [Store.withPolicy_withPolicy] at habridged
  have hruns := habridged _ _ hs hfast' hisolate'
  change Abridges raised _ (runTrace _ routine _) _ (runTrace _ routine _) at hruns
  rw [htrace, htrace'] at hruns
  exact hruns.summary

/-- A write of the first field notifies three subscribers.  The second one writes the other field,
whose only subscriber fails. -/
def failureWithin (policy : NotifyPolicy) : Store Unit where
  objects := #[{ policy, fields := [("count", 0), ("total", 1)] }]
  fields := #[{ key := "count", value := .null, policy, registrations := [0, 1, 2] },
    { key := "total", value := .null, policy, registrations := [3] }]
  subscribers := #[
    ⟨"count", .ofObject 0, fun _ => .log "first"⟩,
    ⟨"count", .ofObject 0, fun value => .setField 1 value⟩,
    ⟨"count", .ofObject 0, fun _ => .log "last"⟩,
    ⟨"total", .ofObject 0, fun _ => .fail (.callback "full")⟩]
  shared := ()

theorem withPolicy_failureWithin (policy policy' : NotifyPolicy) :
    (failureWithin policy).withPolicy policy' = failureWithin policy' := by
  simp [Store.withPolicy, failureWithin, ObjectCell.withPolicy, FieldCell.withPolicy]

theorem forthright_read_ofObject (object : ObjectId) (key : String) :
    ((Source.ofObject object : Source σ).read key).Forthright
      fun e => ∀ failures, e ≠ .cascade failures := by
  refine ⟨trivial, fun field? => ?_⟩
  cases field? with
  | none => exact fun _ => nofun
  | some field => exact ⟨trivial, fun _ => trivial⟩

theorem forthright_failureWithin (policy : NotifyPolicy) :
    (failureWithin policy).Forthright fun e => ∀ failures, e ≠ .cascade failures := by
  intro cell hcell
  simp only [failureWithin, List.mem_toArray, List.mem_cons, List.not_mem_nil, or_false] at hcell
  rcases hcell with rfl | rfl | rfl | rfl
  · exact ⟨forthright_read_ofObject _ _, fun _ => ⟨trivial, fun _ => trivial⟩⟩
  · exact ⟨forthright_read_ofObject _ _, fun value => Routine.forthright_setField 1 value⟩
  · exact ⟨forthright_read_ofObject _ _, fun _ => ⟨trivial, fun _ => trivial⟩⟩
  · exact ⟨forthright_read_ofObject _ _, fun _ _ => nofun⟩

theorem failFast_prefix_of_isolate_failureWithin :
    ∃ t t', run 2 (.setField 0 (.bool true)) ((failureWithin .failFast).withPolicy .failFast) =
        some (.error (.callback "full"), t) ∧
      run 3 (.setField 0 (.bool true)) ((failureWithin .failFast).withPolicy .isolate) =
        some (.error (.cascade [.cascade [.callback "full"]]), t') ∧
      t.journal <:+ t'.journal ∧
      (ReactiveError.cascade [.cascade [.callback "full"]]).leaves.head? =
        some (.callback "full") := by
  obtain ⟨t, ht⟩ : ∃ t, run 2 (.setField 0 (.bool true)) (failureWithin .failFast) =
      some (.error (.callback "full"), t) := ⟨_, rfl⟩
  obtain ⟨t', ht'⟩ : ∃ t', run 3 (.setField 0 (.bool true)) (failureWithin .isolate) =
      some (.error (.cascade [.cascade [.callback "full"]]), t') := ⟨_, rfl⟩
  rw [← withPolicy_failureWithin .failFast] at ht ht'
  obtain ⟨-, hjournal, -, herror⟩ := failFast_prefix_of_isolate _
    (Routine.forthright_setField 0 (.bool true)) (forthright_failureWithin .failFast) ht ht'
  obtain ⟨hplain, e', he', -, hhead⟩ := herror _ rfl
  obtain rfl := Except.error.inj he'
  exact ⟨t, t', ht, ht', hjournal, hhead hplain⟩

end Engine

end LiveTemplate
