import LiveTemplate.Proofs.Reactive.Chronicle
import LiveTemplate.Proofs.Reactive.Growth
import LiveTemplate.Proofs.Reactive.Trace

/-!
# What causes what

The records of a run are complete.  What the acts of a trace leave alone is the same after the run,
so a difference between the stores before and after it has its cause in the trace.  And a
notification recomputes its subscribers only, so a recomputation that was not asked for by hand has
its cause in the mark of a notification.
-/

namespace LiveTemplate

variable {σ ε ε' α β : Type}

namespace Engine

open Session

/-! ## Differences and acts -/

/-- A relation between the store before and after that is passed on, and holds over the acts of a
kind. -/
structure Spared (R : Store σ → Store σ → Prop) (harmless : Act σ → Prop) : Prop
    extends Passage R where
  perform (s : Store σ) (r : Request σ) :
    harmless (.performed r (s.perform r).2) → R s (s.perform r).1
  assign (s : Store σ) (field : FieldId) (value : Value) :
    harmless (.wrote field value) → R s (s.assign field value)
  push (s : Store σ) (cell : Subscriber σ) :
    R s { s with subscribers := s.subscribers.push cell }

/-- If all acts are of the kind, the stores before and after the session are related. -/
def Explains (R : Store σ → Store σ → Prop) (harmless : Act σ → Prop) (session : Session σ ε α)
    (trace : Store σ → List (Act σ)) : Prop :=
  ∀ s outcome t, session s = some (outcome, t) → (∀ act ∈ trace s, harmless act) → R s t

variable {R : Store σ → Store σ → Prop} {harmless : Act σ → Prop}

theorem Explains.of_keeps {session : Session σ ε α} (h : Keeps R session)
    (trace : Store σ → List (Act σ)) : Explains R harmless session trace :=
  fun s outcome t hrun _ => h s outcome t hrun

theorem Explains.followedBy (hR : Passage R) {session : Session σ ε α}
    {trace : Store σ → List (Act σ)} {next : Except ε α → Session σ ε' β}
    {later : Except ε α → Store σ → List (Act σ)} (hsession : Explains R harmless session trace)
    (hnext : ∀ outcome, Explains R harmless (next outcome) (later outcome)) :
    Explains R harmless (session.followedBy next)
      fun s => trace s ++ traceBehind session later s := by
  intro s outcome t hrun hacts
  obtain ⟨first, u, hfirst, hlast⟩ := followedBy_eq_some.1 hrun
  simp only [traceBehind_of_eq_some _ hfirst] at hacts
  refine hR.trans (hsession s first u hfirst fun act h => hacts act (List.mem_append_left _ h)) ?_
  exact hnext first u outcome t hlast fun act h => hacts act (List.mem_append_right _ h)

theorem Explains.collecting (hR : Passage R) {session : Session σ ε α}
    {trace : Store σ → List (Act σ)} (h : Explains R harmless session trace)
    (subscriber : Option SubscriberId) :
    Explains R harmless (Session.collecting subscriber session)
      fun s => trace (s.withActive subscriber) := by
  intro s outcome t hrun hacts
  obtain ⟨after, hafter, rfl⟩ := collecting_eq_some.1 hrun
  exact hR.collecting subscriber (h _ outcome after hafter hacts)

variable {recompute : SubscriberId → ReactiveSession σ Value}
  {trace : SubscriberId → Store σ → List (Act σ)}

theorem failFast_explains (hR : Passage R)
    (hrecompute : ∀ i, Explains R harmless (recompute i) (trace i))
    (subscribers : List SubscriberId) :
    Explains R harmless (notifyFailFast recompute subscribers)
      (failFastTrace recompute trace subscribers) := by
  induction subscribers with
  | nil => exact .of_keeps (Keeps.pure hR _) _
  | cons subscriber rest ih =>
      rw [notifyFailFast, bind_eq_followedBy]
      refine Explains.followedBy hR (hrecompute subscriber) fun outcome => ?_
      cases outcome with
      | ok value => exact ih
      | error e => exact .of_keeps (Keeps.throw hR e) _

theorem isolated_explains (hR : Passage R)
    (hrecompute : ∀ i, Explains R harmless (recompute i) (trace i))
    (subscribers : List SubscriberId) :
    Explains R harmless (collectFailures recompute subscribers)
      (isolatedTrace recompute trace subscribers) := by
  induction subscribers with
  | nil => exact .of_keeps (Keeps.pure hR _) _
  | cons subscriber rest ih =>
      intro s outcome t hrun hacts
      rcases collectFailures_cons hrun with ⟨value, u, hu, hlast⟩ | ⟨e, u, later, hu, hlast, -⟩
      all_goals
        simp only [isolatedTrace, traceBehind_of_eq_some _ hu] at hacts
        have hfirst := hrecompute subscriber s _ u hu fun act h =>
          hacts act (List.mem_append_left _ h)
      · exact hR.trans hfirst (ih _ _ _ hlast fun act h => hacts act (List.mem_append_right _ h))
      · -- The failure is reported before the rest goes on.
        have hrest := ih _ _ _ hlast fun act h => hacts act (List.mem_append_right _ h)
        exact hR.trans hfirst (hR.trans (hR.report u _) hrest)

theorem notify_explains (hR : Passage R)
    (hrecompute : ∀ i, Explains R harmless (recompute i) (trace i)) (field : FieldId) :
    Explains R harmless (notify recompute field) (notifyTrace recompute trace field) := by
  intro s outcome t hrun hacts
  cases hcell : s.fields[field]? with
  | none =>
      rw [notify_of_none hcell] at hrun
      obtain ⟨-, rfl⟩ := Prod.mk.inj (Option.some.inj hrun)
      exact hR.refl s
  | some cell =>
      refine hR.trans (hR.report s (.notified cell.registrations.length)) ?_
      cases hpolicy : cell.policy with
      | failFast =>
          rw [notify_of_failFast hcell hpolicy] at hrun
          rw [notifyTrace_of_failFast hcell hpolicy] at hacts
          exact failFast_explains hR hrecompute _ _ _ _ hrun hacts
      | isolate =>
          rw [notify_of_isolate hcell hpolicy] at hrun
          rw [notifyTrace_of_isolate hcell hpolicy] at hacts
          obtain ⟨failures, hcollect, -⟩ := notifyIsolated_eq_some hrun
          exact isolated_explains hR hrecompute _ _ _ _ hcollect hacts

theorem construct_explains (hR : Spared R harmless) {source : Source σ} {key : String}
    {callback : Value → Routine σ} {read : ReactiveSession σ Value}
    {trace : Store σ → List (Act σ)} (hread : Explains R harmless read trace) :
    Explains R harmless (construct source key callback read) fun s =>
      trace ((s.subscribe ⟨key, source, callback⟩).withActive (some s.subscribers.size)) := by
  intro s outcome t hrun hacts
  obtain ⟨first, after, hafter, hlast⟩ := construct_eq_some.1 hrun
  have hcollected := hR.collecting (some s.subscribers.size) (hread _ first after hafter hacts)
  rw [Store.subscribe_active] at hcollected
  have hentered := hR.trans (hR.toPassage.subscribe (hR.push · _) s) hcollected
  rcases hlast with ⟨value, -, -, rfl⟩ | ⟨e, -, -, rfl⟩
  · exact hR.trans hentered (hR.toPassage.report _ _)
  · exact hentered

/-- Induction on the routine: each part of a run is explained by its own part of the trace. -/
theorem runWith_explains (hR : Spared R harmless)
    (hrecompute : ∀ i, Explains R harmless (recompute i) (trace i)) (routine : Routine σ) :
    Explains R harmless (runWith recompute routine) (runTraceWith recompute trace routine) := by
  have hpass := hR.toPassage
  induction routine with
  | done value => exact .of_keeps (Keeps.pure hpass value) _
  | fail error => exact .of_keeps (Keeps.throw hpass error) _
  | request r next ih =>
      intro s outcome t hrun hacts
      refine hR.trans (hR.perform s r (hacts _ List.mem_cons_self)) ?_
      exact ih _ _ _ _ hrun fun act h => hacts act (List.mem_cons_of_mem _ h)
  | untracked body next ihbody ih =>
      exact Explains.followedBy hpass (ihbody.collecting hpass none) ih
  | watch read write key callback next ihread _ _ ih =>
      exact Explains.followedBy hpass (construct_explains hR (ihread key)) ih
  | set field value next ih =>
      have hset : Explains R harmless (Engine.set recompute field value) fun s =>
          .wrote field value :: notifyTrace recompute trace field (s.assign field value) := by
        intro s outcome t hrun hacts
        refine hR.trans (hR.assign s field value (hacts _ List.mem_cons_self)) ?_
        exact notify_explains hpass hrecompute field _ _ _ hrun fun act h =>
          hacts act (List.mem_cons_of_mem _ h)
      exact Explains.followedBy hpass hset ih
  | notify field next ih =>
      exact Explains.followedBy hpass (notify_explains hpass hrecompute field) ih
  | recompute subscriber next ih =>
      exact Explains.followedBy hpass (hrecompute subscriber) ih

theorem recompute_explains (hR : Spared R harmless) (fuel : Nat) (subscriber : SubscriberId) :
    Explains R harmless (Engine.recompute fuel subscriber) (recomputeTrace fuel subscriber) := by
  induction fuel generalizing subscriber with
  | zero =>
      intro s outcome t hrun
      cases hrun
  | succ fuel ih =>
      intro s outcome t hrun hacts
      cases hcell : s.subscribers[subscriber]? with
      | none =>
          rw [recompute_succ_of_none hcell] at hrun
          obtain ⟨-, rfl⟩ := Prod.mk.inj (Option.some.inj hrun)
          exact hR.refl s
      | some cell =>
          rw [recomputeTrace_succ_of_some hcell hrun] at hacts
          rw [recompute_succ_of_some hcell] at hrun
          exact runWith_explains hR ih _ s outcome t hrun fun act h =>
            hacts act (List.mem_append_left _ h)

/-- A difference between the stores before and after a run has its cause in the trace. -/
theorem run_explains (hR : Spared R harmless) {fuel : Nat} {routine : Routine σ} {s t : Store σ}
    {outcome : Except ReactiveError Value} (hrun : run fuel routine s = some (outcome, t))
    (hacts : ∀ act ∈ runTrace fuel routine s, harmless act) : R s t :=
  runWith_explains hR (recompute_explains hR fuel) routine s outcome t hrun hacts

/-! ## Recomputations and notifications -/

/-- Some notification in the marks has found the subscriber registered with its field, where it
still is. -/
def Called (marks : List Mark) (subscriber : SubscriberId) (t : Store σ) : Prop :=
  ∃ field policy registrations, .opened field policy registrations ∈ marks ∧
    subscriber ∈ registrations ∧ registrations ⊆ t.registrations field

theorem Called.mono {marks larger : List Mark} {subscriber : SubscriberId} {s t : Store σ}
    (h : Called marks subscriber s) (hmarks : marks ⊆ larger) (hgrown : s.Grown t) :
    Called larger subscriber t := by
  obtain ⟨field, policy, registrations, hopened, hmem, hsubset⟩ := h
  refine ⟨field, policy, registrations, hmarks hopened, hmem, fun other hother => ?_⟩
  exact hgrown.registrations_subset field (hsubset hother)

/-- Recomputations that were not asked for by hand were called for by a notification. -/
structure Heralded (session : Session σ ε α) (marks : Store σ → List Mark) : Prop where
  grown : Keeps Store.Grown session
  called : ∀ s outcome t, session s = some (outcome, t) → ∀ subscriber,
    .began false subscriber ∈ marks s → Called (marks s) subscriber t

theorem Heralded.of_keeps {session : Session σ ε α} (h : Keeps Store.Grown session)
    {marks : Store σ → List Mark} (hmarks : ∀ s subscriber, .began false subscriber ∉ marks s) :
    Heralded session marks :=
  ⟨h, fun s _ _ _ subscriber hbegan => absurd hbegan (hmarks s subscriber)⟩

theorem Heralded.followedBy {session : Session σ ε α} {marks : Store σ → List Mark}
    {next : Except ε α → Session σ ε' β} {later : Except ε α → Store σ → List Mark}
    (hsession : Heralded session marks)
    (hnext : ∀ outcome, Heralded (next outcome) (later outcome)) :
    Heralded (session.followedBy next) fun s => marks s ++ marksBehind session later s where
  grown := Keeps.followedBy Store.Grown.progress.toPassage hsession.grown
    fun outcome => (hnext outcome).grown
  called s outcome t hrun subscriber hbegan := by
    obtain ⟨first, u, hfirst, hlast⟩ := followedBy_eq_some.1 hrun
    simp only [marksBehind_of_eq_some _ hfirst] at hbegan ⊢
    rcases List.mem_append.1 hbegan with hbefore | hbehind
    · exact (hsession.called s first u hfirst subscriber hbefore).mono
        (List.subset_append_left _ _) ((hnext first).grown u outcome t hlast)
    · exact ((hnext first).called u outcome t hlast subscriber hbehind).mono
        (List.subset_append_right _ _) (.of_fields rfl)

theorem Heralded.unlessPassedOn {session : Session σ ReactiveError Value}
    {marks : Store σ → List Mark} (h : Heralded session marks) (outcome : Except ε α)
    (routine : Routine σ) :
    Heralded session fun s => unlessPassedOn outcome routine (marks s) := by
  unfold Engine.unlessPassedOn
  split
  · exact .of_keeps h.grown fun _ _ => List.not_mem_nil
  · exact h

theorem Heralded.collecting {session : Session σ ε α} {marks : Store σ → List Mark}
    (h : Heralded session marks) (subscriber : Option SubscriberId) :
    Heralded (Session.collecting subscriber session)
      fun s => marks (s.withActive subscriber) where
  grown := Keeps.collecting Store.Grown.progress.toPassage subscriber h.grown
  called s outcome t hrun other hbegan := by
    obtain ⟨after, hafter, rfl⟩ := collecting_eq_some.1 hrun
    exact h.called _ outcome after hafter other hbegan

theorem Heralded.construct {source : Source σ} {key : String} {callback : Value → Routine σ}
    {read : ReactiveSession σ Value} {marks : Store σ → List Mark} (h : Heralded read marks) :
    Heralded (construct source key callback read) fun s =>
      marks ((s.subscribe ⟨key, source, callback⟩).withActive (some s.subscribers.size)) where
  grown := Store.Grown.progress.toPassage.construct (fun s => Store.Grown.progress.push s _) h.grown
  called s outcome t hrun other hbegan := by
    obtain ⟨first, after, hread, hlast⟩ := construct_eq_some.1 hrun
    refine (h.called _ first after hread other hbegan).mono (List.Subset.refl _) ?_
    rcases hlast with ⟨_, -, -, rfl⟩ | ⟨_, -, -, rfl⟩
    · exact .of_fields rfl
    · exact .of_fields rfl

variable {inside : SubscriberId → Store σ → List Mark}

/-- A recomputation by hand, or by a notification that finds the subscriber. -/
theorem called_recomputation (hrecompute : ∀ i, Heralded (recompute i) (inside i)) {byHand : Bool}
    {subscriber other : SubscriberId} {s t : Store σ} {outcome : Except ReactiveError Value}
    (hrun : recompute subscriber s = some (outcome, t))
    (hbegan : .began false other ∈ recomputationMarks recompute inside byHand subscriber s) :
    byHand = false ∧ other = subscriber ∨
      Called (recomputationMarks recompute inside byHand subscriber s) other t := by
  rw [recomputationMarks_of_eq_some hrun] at hbegan ⊢
  rcases List.mem_append.1 hbegan with hstart | hend
  · rcases List.mem_cons.1 hstart with hself | hwithin
    · obtain ⟨hhand, heq⟩ := Mark.began.inj hself
      exact .inl ⟨hhand.symm, heq⟩
    · refine .inr (((hrecompute subscriber).called s outcome t hrun other hwithin).mono ?_
        (.of_fields rfl))
      exact fun mark h => List.mem_append_left _ (List.mem_cons_of_mem _ h)
  · exact nomatch List.mem_singleton.1 hend

/-- One subscriber is recomputed, and then the rest. -/
theorem called_cons (hrecompute : ∀ i, Heralded (recompute i) (inside i))
    {subscriber other : SubscriberId} {rest : List SubscriberId} {s u t : Store σ}
    {outcome : Except ReactiveError Value} (hu : recompute subscriber s = some (outcome, u))
    (hgrown : u.Grown t) {later : List Mark}
    (hlater : .began false other ∈ later → other ∈ rest ∨ Called later other t)
    (hbegan : .began false other ∈
      recomputationMarks recompute inside false subscriber s ++ later) :
    other ∈ subscriber :: rest ∨
      Called (recomputationMarks recompute inside false subscriber s ++ later) other t := by
  rcases List.mem_append.1 hbegan with hfirst | hbehind
  · rcases called_recomputation hrecompute hu hfirst with ⟨-, rfl⟩ | hcalled
    · exact .inl List.mem_cons_self
    · exact .inr (hcalled.mono (List.subset_append_left _ _) hgrown)
  · rcases hlater hbehind with hmem | hcalled
    · exact .inl (List.mem_cons_of_mem _ hmem)
    · exact .inr (hcalled.mono (List.subset_append_right _ _) (.of_fields rfl))

theorem failFast_called (hrecompute : ∀ i, Heralded (recompute i) (inside i))
    {subscribers : List SubscriberId} {other : SubscriberId} {s t : Store σ}
    {outcome : Except ReactiveError Value}
    (hrun : notifyFailFast recompute subscribers s = some (outcome, t))
    (hbegan : .began false other ∈ failFastMarks recompute inside subscribers s) :
    other ∈ subscribers ∨ Called (failFastMarks recompute inside subscribers s) other t := by
  induction subscribers generalizing s with
  | nil => exact absurd hbegan List.not_mem_nil
  | cons subscriber rest ih =>
      rw [notifyFailFast, bind_eq_followedBy] at hrun
      obtain ⟨first, u, hu, hlast⟩ := followedBy_eq_some.1 hrun
      simp only [failFastMarks, marksBehind_of_eq_some _ hu] at hbegan ⊢
      cases first with
      | ok value =>
          have hgrown := Store.Grown.progress.toPassage.notifyFailFast
            (fun i => (hrecompute i).grown) rest u outcome t hlast
          exact called_cons hrecompute hu hgrown (ih hlast) hbegan
      | error e =>
          obtain ⟨-, rfl⟩ := Prod.mk.inj (throw_eq_some.1 hlast)
          exact called_cons hrecompute hu (.of_fields rfl) (fun h => absurd h List.not_mem_nil)
            hbegan

theorem isolated_called (hrecompute : ∀ i, Heralded (recompute i) (inside i))
    {subscribers : List SubscriberId} {other : SubscriberId} {s t : Store σ}
    {outcome : Except ReactiveError (List ReactiveError)}
    (hrun : collectFailures recompute subscribers s = some (outcome, t))
    (hbegan : .began false other ∈ isolatedMarks recompute inside subscribers s) :
    other ∈ subscribers ∨ Called (isolatedMarks recompute inside subscribers s) other t := by
  induction subscribers generalizing s outcome with
  | nil => exact absurd hbegan List.not_mem_nil
  | cons subscriber rest ih =>
      have hrest {v : Store σ} {last : Except ReactiveError (List ReactiveError)}
          (hlast : collectFailures recompute rest v = some (last, t)) : v.Grown t :=
        Store.Grown.progress.toPassage.collectFailures (fun i => (hrecompute i).grown) rest
          v last t hlast
      rcases collectFailures_cons hrun with ⟨value, u, hu, hlast⟩ | ⟨e, u, later, hu, hlast, -⟩
      · rw [isolatedMarks_of_ok hu] at hbegan ⊢
        exact called_cons hrecompute hu (hrest hlast) (ih hlast) hbegan
      · rw [isolatedMarks_of_error hu] at hbegan ⊢
        have hbehind := hrest hlast
        have hgrown : u.Grown t := Store.Grown.trans (.of_fields rfl) hbehind
        exact called_cons hrecompute hu hgrown (ih hlast) hbegan

theorem notify_heralded (hrecompute : ∀ i, Heralded (recompute i) (inside i)) (field : FieldId) :
    Heralded (notify recompute field) (notifyMarks recompute inside field) where
  grown := notify_keeps Store.Grown.progress (fun i => (hrecompute i).grown) field
  called s outcome t hrun subscriber hbegan := by
    have hgrown := notify_keeps Store.Grown.progress (fun i => (hrecompute i).grown) field s
      outcome t hrun
    cases hcell : s.fields[field]? with
    | none =>
        rw [notifyMarks_of_none hcell] at hbegan
        exact absurd hbegan List.not_mem_nil
    | some cell =>
        -- Who is served is in the list that the notification has found.
        have hwithin {policy : NotifyPolicy} {marks : List Mark} {final : List SubscriberId}
            (hmarks : notifyMarks recompute inside field s =
              .opened field policy cell.registrations :: marks ++ [.closed final])
            (hserved : .began false subscriber ∈ marks →
              subscriber ∈ cell.registrations ∨ Called marks subscriber t) :
            Called (notifyMarks recompute inside field s) subscriber t := by
          rw [hmarks] at hbegan ⊢
          have hmem : .began false subscriber ∈ marks := by simpa using hbegan
          rcases hserved hmem with hregistered | hcalled
          · have hfound := hgrown.registrations_subset field
            simp only [Store.registrations, hcell, Option.map_some, Option.getD_some] at hfound
            exact ⟨field, policy, cell.registrations, by simp, hregistered, hfound⟩
          · exact hcalled.mono (fun mark h => by simp [h]) (.of_fields rfl)
        have hnotify := hrun
        cases hpolicy : cell.policy with
        | failFast =>
            rw [notify_of_failFast hcell hpolicy] at hnotify
            exact hwithin (notifyMarks_of_failFast hcell hpolicy hrun)
              (failFast_called hrecompute hnotify)
        | isolate =>
            rw [notify_of_isolate hcell hpolicy] at hnotify
            obtain ⟨failures, hcollect, -⟩ := notifyIsolated_eq_some hnotify
            exact hwithin (notifyMarks_of_isolate hcell hpolicy hrun)
              (isolated_called hrecompute hcollect)

/-- Induction on the routine, part by part. -/
theorem runWith_heralded (hrecompute : ∀ i, Heralded (recompute i) (inside i))
    (routine : Routine σ) :
    Heralded (runWith recompute routine) (runMarksWith recompute inside routine) := by
  have hpass := Store.Grown.progress.toPassage (σ := σ)
  induction routine with
  | done value => exact .of_keeps (Keeps.pure hpass value) fun _ _ => List.not_mem_nil
  | fail error =>
      exact .of_keeps (Keeps.throw hpass error) fun _ _ h => nomatch List.mem_singleton.1 h
  | request r next ih =>
      exact
        { grown := runWith_keeps Store.Grown.progress (fun i => (hrecompute i).grown) _
          called := fun s outcome t hrun => (ih _).called _ outcome t hrun }
  | untracked body next ihbody ih =>
      exact (ihbody.collecting none).followedBy fun outcome =>
        (ih outcome).unlessPassedOn outcome (next outcome)
  | watch read write key callback next ihread _ _ ih =>
      exact (ihread key).construct.followedBy fun outcome =>
        (ih outcome).unlessPassedOn outcome (next outcome)
  | set field value next ih =>
      have hnotify := notify_heralded hrecompute field
      have hset : Heralded (set recompute field value) fun s =>
          notifyMarks recompute inside field (s.assign field value) :=
        { grown := hpass.set (fun i => (hrecompute i).grown) field
            fun s => Store.Grown.progress.assign s field value
          called := fun s outcome t hrun => hnotify.called _ outcome t hrun }
      exact hset.followedBy fun outcome => (ih outcome).unlessPassedOn outcome (next outcome)
  | notify field next ih =>
      exact (notify_heralded hrecompute field).followedBy fun outcome =>
        (ih outcome).unlessPassedOn outcome (next outcome)
  | recompute subscriber next ih =>
      have hhand : Heralded (recompute subscriber)
          (recomputationMarks recompute inside true subscriber) :=
        { grown := (hrecompute subscriber).grown
          called := fun s outcome t hrun other hbegan =>
            (called_recomputation hrecompute hrun hbegan).resolve_left fun h => nomatch h.1 }
      exact hhand.followedBy fun outcome => (ih outcome).unlessPassedOn outcome (next outcome)

theorem recompute_heralded (fuel : Nat) (subscriber : SubscriberId) :
    Heralded (Engine.recompute (σ := σ) fuel subscriber) (recomputeMarks fuel subscriber) := by
  induction fuel generalizing subscriber with
  | zero =>
      exact .of_keeps (recompute_keeps Store.Grown.progress 0 subscriber) fun _ _ =>
        List.not_mem_nil
  | succ fuel ih =>
      refine ⟨recompute_keeps Store.Grown.progress (fuel + 1) subscriber, ?_⟩
      intro s outcome t hrun other hbegan
      cases hcell : s.subscribers[subscriber]? with
      | none =>
          rw [recomputeMarks_succ_of_none hcell] at hbegan
          exact absurd hbegan List.not_mem_nil
      | some cell =>
          rw [recomputeMarks_succ_of_some hcell] at hbegan ⊢
          rw [recompute_succ_of_some hcell] at hrun
          exact (runWith_heralded ih _).called s outcome t hrun other hbegan

/-- Who is recomputed in a run by a notification, however deep, was registered with its field. -/
theorem run_heralded (fuel : Nat) (routine : Routine σ) :
    Heralded (run fuel routine) (runMarks fuel routine) :=
  runWith_heralded (recompute_heralded fuel) routine

end Engine

end LiveTemplate
