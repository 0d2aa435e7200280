import LiveTemplate.Proofs.Reactive.Chronicle
import LiveTemplate.Proofs.Reactive.Growth

/-!
# What one notification serves

A notification recomputes the subscribers that are registered when it starts, in that order and once
for each registration, and nobody else; under the fail-fast policy it stops behind the first that
fails.  Whatever the callbacks do meanwhile, even if they notify the same field again, adds
registrations behind the old ones at most, and those wait for the next notification.

This holds of every notification in the chronicle of a run, however deep it is nested.  Induction on
the run shows two things at once: marks nest, so that the frame of a notification can be told from
what happens inside its recomputations, and every frame in them serves what was registered.
-/

namespace LiveTemplate

variable {σ ε ε' α β : Type}

/-- The subscribers were recomputed in order, up to the first that failed. -/
inductive UpToFailure : List SubscriberId → List (SubscriberId × Except ReactiveError Value) → Prop
  | done : UpToFailure [] []
  | fails (subscriber : SubscriberId) (e : ReactiveError) (rest : List SubscriberId) :
    UpToFailure (subscriber :: rest) [(subscriber, .error e)]
  | succeeds (subscriber : SubscriberId) (value : Value) {rest : List SubscriberId}
      {served : List (SubscriberId × Except ReactiveError Value)} :
    UpToFailure rest served →
      UpToFailure (subscriber :: rest) ((subscriber, .ok value) :: served)

theorem UpToFailure.served_isPrefix {registrations : List SubscriberId}
    {served : List (SubscriberId × Except ReactiveError Value)}
    (h : UpToFailure registrations served) : served.map Prod.fst <+: registrations := by
  induction h with
  | done => exact List.prefix_rfl
  | fails subscriber e rest => exact ⟨rest, rfl⟩
  | succeeds subscriber value _ ih => exact (List.prefix_cons_inj subscriber).2 ih

/-- What a notification has done that found the given registrations. -/
structure Serves (policy : NotifyPolicy) (registrations : List SubscriberId) (frame : Frame) :
    Prop where
  isolate : policy = .isolate → frame.served.map Prod.fst = registrations
  failFast : policy = .failFast → UpToFailure registrations frame.served
  /-- Later registrations come behind, and are not served. -/
  final : ∃ added, frame.final = some (registrations ++ added) ∧
    ∀ subscriber ∈ added, subscriber ∉ registrations → subscriber ∉ frame.served.map Prod.fst

/-- Every notification that starts in the marks serves what it finds, whatever comes behind. -/
def Lawful : List Mark → Prop
  | [] => True
  | mark :: rest =>
    (∀ field policy registrations, mark = .opened field policy registrations →
      ∀ later, Serves policy registrations (frame 0 (rest ++ later))) ∧ Lawful rest

namespace Lawful

theorem append {first second : List Mark} (hfirst : Lawful first) (hsecond : Lawful second) :
    Lawful (first ++ second) := by
  induction first with
  | nil => exact hsecond
  | cons mark rest ih =>
      refine ⟨fun field policy registrations hmark later => ?_, ih hfirst.2⟩
      have hserves := hfirst.1 field policy registrations hmark (second ++ later)
      rw [← List.append_assoc] at hserves
      exact hserves

theorem behind {first second : List Mark} (h : Lawful (first ++ second)) : Lawful second := by
  induction first with
  | nil => exact h
  | cons mark rest ih => exact ih h.2

theorem recomputation {marks : List Mark} (h : Lawful marks) (byHand : Bool)
    (subscriber : SubscriberId) (outcome : Except ReactiveError Value) :
    Lawful (.began byHand subscriber :: marks ++ [.ended byHand subscriber outcome]) :=
  ⟨nofun, h.append ⟨nofun, trivial⟩⟩

end Lawful

namespace Engine

open Session

/-- In the marks of a session that ends, marks nest, and every notification serves what it finds. -/
def Recorded (session : Session σ ε α) (marks : Store σ → List Mark) : Prop :=
  ∀ s result, session s = some result → Nested (marks s) ∧ Lawful (marks s)

theorem recorded_nil (session : Session σ ε α) : Recorded session fun _ => [] :=
  fun _ _ _ => ⟨.nil, trivial⟩

theorem Recorded.followedBy {session : Session σ ε α} {marks : Store σ → List Mark}
    {next : Except ε α → Session σ ε' β} {later : Except ε α → Store σ → List Mark}
    (hsession : Recorded session marks)
    (hnext : ∀ outcome, Recorded (next outcome) (later outcome)) :
    Recorded (session.followedBy next) fun s => marks s ++ marksBehind session later s := by
  intro s result hrun
  obtain ⟨outcome, t, hfirst, hlast⟩ := followedBy_eq_some.1 hrun
  obtain ⟨hnested, hlawful⟩ := hsession s _ hfirst
  obtain ⟨hnested', hlawful'⟩ := hnext outcome t _ hlast
  dsimp only
  rw [marksBehind_of_eq_some _ hfirst]
  exact ⟨hnested.append hnested', hlawful.append hlawful'⟩

theorem Recorded.unlessPassedOn {session : Session σ ReactiveError Value}
    {marks : Store σ → List Mark} (h : Recorded session marks) (outcome : Except ε α)
    (routine : Routine σ) :
    Recorded session fun s => unlessPassedOn outcome routine (marks s) := by
  intro s result hrun
  unfold Engine.unlessPassedOn
  split
  · exact ⟨.nil, trivial⟩
  · exact h s result hrun

theorem Recorded.collecting {session : Session σ ε α} {marks : Store σ → List Mark}
    (h : Recorded session marks) (subscriber : Option SubscriberId) :
    Recorded (Session.collecting subscriber session) fun s => marks (s.withActive subscriber) := by
  intro s result hrun
  obtain ⟨outcome, t⟩ := result
  obtain ⟨after, hafter, -⟩ := collecting_eq_some.1 hrun
  exact h _ _ hafter

theorem Recorded.construct {source : Source σ} {key : String} {callback : Value → Routine σ}
    {read : ReactiveSession σ Value} {marks : Store σ → List Mark} (h : Recorded read marks) :
    Recorded (construct source key callback read) fun s =>
      marks ((s.subscribe ⟨key, source, callback⟩).withActive (some s.subscribers.size)) := by
  intro s result hrun
  obtain ⟨outcome, t⟩ := result
  obtain ⟨first, after, hread, -⟩ := construct_eq_some.1 hrun
  exact h _ _ hread

variable {recompute : SubscriberId → ReactiveSession σ Value}
  {inside : SubscriberId → Store σ → List Mark}

theorem recorded_recomputation (hrecompute : ∀ i, Recorded (recompute i) (inside i))
    (byHand : Bool) (subscriber : SubscriberId) :
    Recorded (recompute subscriber) (recomputationMarks recompute inside byHand subscriber) := by
  intro s result hrun
  obtain ⟨outcome, t⟩ := result
  obtain ⟨hnested, hlawful⟩ := hrecompute subscriber s _ hrun
  rw [recomputationMarks_of_eq_some hrun]
  exact ⟨hnested.recomputation byHand subscriber outcome,
    hlawful.recomputation byHand subscriber outcome⟩

/-! ## Serving a list of subscribers -/

/-- More recomputations before those of a frame. -/
def precede (served : List (SubscriberId × Except ReactiveError Value)) (frame : Frame) : Frame :=
  { frame with served := served ++ frame.served }

theorem frame_recomputationMarks (hrecompute : ∀ i, Recorded (recompute i) (inside i))
    (byHand : Bool) {subscriber : SubscriberId} {outcome : Except ReactiveError Value}
    {s t : Store σ} (hrun : recompute subscriber s = some (outcome, t)) (rest : List Mark) :
    frame 0 (recomputationMarks recompute inside byHand subscriber s ++ rest) =
      precede [(subscriber, outcome)] (frame 0 rest) := by
  have hnested := (hrecompute subscriber s _ hrun).1
  have hserved := hnested.frame_recomputation byHand subscriber outcome rest
  rw [recomputationMarks_of_eq_some hrun, List.append_assoc]
  exact hserved

/-- Induction on the subscribers.  What one of them does is inside its own recomputation, so on the
outermost level there is one recomputation for each. -/
theorem failFast_recorded (hrecompute : ∀ i, Recorded (recompute i) (inside i))
    (subscribers : List SubscriberId) {s : Store σ}
    {result : Except ReactiveError Value × Store σ}
    (hrun : notifyFailFast recompute subscribers s = some result) :
    let marks := failFastMarks recompute inside subscribers s
    (Nested marks ∧ Lawful marks) ∧ ∃ served, UpToFailure subscribers served ∧
      ∀ rest, frame 0 (marks ++ rest) = precede served (frame 0 rest) := by
  induction subscribers generalizing s with
  | nil => exact ⟨⟨.nil, trivial⟩, [], .done, fun _ => rfl⟩
  | cons subscriber rest ih =>
      rw [notifyFailFast, bind_eq_followedBy] at hrun
      obtain ⟨outcome, u, hu, hlast⟩ := followedBy_eq_some.1 hrun
      obtain ⟨hnested, hlawful⟩ := recorded_recomputation hrecompute false subscriber s _ hu
      have hframe := frame_recomputationMarks hrecompute false hu
      simp only [failFastMarks, marksBehind_of_eq_some _ hu]
      cases outcome with
      | error e =>
          rw [List.append_nil]
          exact ⟨⟨hnested, hlawful⟩, [(subscriber, .error e)], .fails subscriber e rest, hframe⟩
      | ok value =>
          obtain ⟨⟨hnested', hlawful'⟩, served, hserved, hrest⟩ := ih hlast
          refine ⟨⟨hnested.append hnested', hlawful.append hlawful'⟩,
            (subscriber, .ok value) :: served, .succeeds subscriber value hserved, fun later => ?_⟩
          rw [List.append_assoc, hframe, hrest]
          rfl

theorem isolated_recorded (hrecompute : ∀ i, Recorded (recompute i) (inside i))
    (subscribers : List SubscriberId) {s : Store σ}
    {result : Except ReactiveError (List ReactiveError) × Store σ}
    (hrun : collectFailures recompute subscribers s = some result) :
    let marks := isolatedMarks recompute inside subscribers s
    (Nested marks ∧ Lawful marks) ∧ ∃ served, served.map Prod.fst = subscribers ∧
      ∀ rest, frame 0 (marks ++ rest) = precede served (frame 0 rest) := by
  induction subscribers generalizing s result with
  | nil => exact ⟨⟨.nil, trivial⟩, [], rfl, fun _ => rfl⟩
  | cons subscriber rest ih =>
      -- The rest is served from the store that the first one leaves, with a warning if it fails.
      have hcons {outcome : Except ReactiveError Value} {u v : Store σ}
          {last : Except ReactiveError (List ReactiveError) × Store σ}
          (hu : recompute subscriber s = some (outcome, u))
          (hlast : collectFailures recompute rest v = some last) :
          let marks := recomputationMarks recompute inside false subscriber s ++
            isolatedMarks recompute inside rest v
          (Nested marks ∧ Lawful marks) ∧ ∃ served, served.map Prod.fst = subscriber :: rest ∧
            ∀ later, frame 0 (marks ++ later) = precede served (frame 0 later) := by
        obtain ⟨hnested, hlawful⟩ := recorded_recomputation hrecompute false subscriber s _ hu
        obtain ⟨⟨hnested', hlawful'⟩, served, hserved, hrest⟩ := ih hlast
        refine ⟨⟨hnested.append hnested', hlawful.append hlawful'⟩,
          (subscriber, outcome) :: served, by rw [List.map_cons, hserved], fun later => ?_⟩
        rw [List.append_assoc, frame_recomputationMarks hrecompute false hu, hrest]
        rfl
      obtain ⟨outcome, t⟩ := result
      rcases collectFailures_cons hrun with ⟨value, u, hu, hlast⟩ | ⟨e, u, later, hu, hlast, -⟩
      · rw [isolatedMarks_of_ok hu]
        exact hcons hu hlast
      · rw [isolatedMarks_of_error hu]
        exact hcons hu hlast

/-! ## Notifications -/

/-- Nested marks around which the given subscribers are served on the outermost level, as a
notification does that found the given registrations. -/
structure Served (policy : NotifyPolicy) (registrations : List SubscriberId)
    (served : List (SubscriberId × Except ReactiveError Value)) (marks : List Mark) : Prop where
  nested : Nested marks
  lawful : Lawful marks
  frame (rest : List Mark) : frame 0 (marks ++ rest) = precede served (frame 0 rest)
  isolate : policy = .isolate → served.map Prod.fst = registrations
  failFast : policy = .failFast → UpToFailure registrations served

namespace Served

variable {policy : NotifyPolicy} {registrations : List SubscriberId}
  {served : List (SubscriberId × Except ReactiveError Value)} {marks : List Mark}

theorem served_isPrefix (h : Served policy registrations served marks) :
    served.map Prod.fst <+: registrations := by
  cases policy with
  | isolate => exact (h.isolate rfl) ▸ List.prefix_rfl
  | failFast => exact (h.failFast rfl).served_isPrefix

theorem frame_closed (h : Served policy registrations served marks) (final : List SubscriberId)
    (later : List Mark) :
    LiveTemplate.frame 0 ((marks ++ [.closed final]) ++ later) = ⟨served, some final⟩ := by
  rw [List.append_assoc, h.frame]
  simp [LiveTemplate.frame, precede]

theorem serves (h : Served policy registrations served marks) (added : List SubscriberId)
    (later : List Mark) :
    Serves policy registrations
      (LiveTemplate.frame 0 ((marks ++ [.closed (registrations ++ added)]) ++ later)) := by
  rw [h.frame_closed]
  exact ⟨h.isolate, h.failFast, added, rfl,
    fun subscriber _ hnew hserved => hnew (h.served_isPrefix.subset hserved)⟩

/-- With the marks of the notification around them, the marks are still lawful. -/
theorem lawful_notification (h : Served policy registrations served marks) (field : FieldId)
    (added : List SubscriberId) :
    Lawful (.opened field policy registrations :: marks ++
      [.closed (registrations ++ added)]) := by
  refine ⟨fun other policy' registrations' hmark later => ?_, h.lawful.append ⟨nofun, trivial⟩⟩
  obtain ⟨-, rfl, rfl⟩ := Mark.opened.inj hmark
  exact h.serves added later

end Served

variable (hrecompute : ∀ i, Recorded (recompute i) (inside i))
  (hgrown : ∀ i, Keeps Store.Grown (recompute i))

include hrecompute hgrown

/-- What a notification of a field does between its two marks. -/
theorem notify_served {field : FieldId} {cell : FieldCell} {s t : Store σ}
    {outcome : Except ReactiveError Value} (hcell : s.fields[field]? = some cell)
    (hrun : notify recompute field s = some (outcome, t)) :
    ∃ marks served added, Served cell.policy cell.registrations served marks ∧
      t.registrations field = cell.registrations ++ added ∧
      notifyMarks recompute inside field s =
        .opened field cell.policy cell.registrations :: marks ++
          [.closed (cell.registrations ++ added)] := by
  obtain ⟨added, hadded⟩ :=
    (notify_keeps Store.Grown.progress hgrown field s outcome t hrun).registrations hcell
  have hnotify := hrun
  cases hpolicy : cell.policy with
  | failFast =>
      rw [notify_of_failFast hcell hpolicy] at hnotify
      obtain ⟨⟨hnested, hlawful⟩, served, hserved, hframe⟩ :=
        failFast_recorded hrecompute _ hnotify
      exact ⟨_, served, added, ⟨hnested, hlawful, hframe, nofun, fun _ => hserved⟩, hadded,
        hadded ▸ notifyMarks_of_failFast hcell hpolicy hrun⟩
  | isolate =>
      rw [notify_of_isolate hcell hpolicy] at hnotify
      obtain ⟨failures, hcollect, -⟩ := notifyIsolated_eq_some hnotify
      obtain ⟨⟨hnested, hlawful⟩, served, hserved, hframe⟩ :=
        isolated_recorded hrecompute _ hcollect
      exact ⟨_, served, added, ⟨hnested, hlawful, hframe, fun _ => hserved, nofun⟩, hadded,
        hadded ▸ notifyMarks_of_isolate hcell hpolicy hrun⟩

theorem notify_recorded (field : FieldId) :
    Recorded (notify recompute field) (notifyMarks recompute inside field) := by
  intro s result hrun
  cases hcell : s.fields[field]? with
  | none =>
      rw [notifyMarks_of_none hcell]
      exact ⟨.nil, trivial⟩
  | some cell =>
      obtain ⟨outcome, t⟩ := result
      obtain ⟨marks, served, added, hserved, -, hmarks⟩ :=
        notify_served hrecompute hgrown hcell hrun
      rw [hmarks]
      exact ⟨hserved.nested.notification _ _ _ _, hserved.lawful_notification field added⟩

/-- Induction on the routine: each part of a run is recorded in its own marks. -/
theorem runWith_recorded (routine : Routine σ) :
    Recorded (runWith recompute routine) (runMarksWith recompute inside routine) := by
  induction routine with
  | done value => exact recorded_nil _
  | fail error => exact fun _ _ _ => ⟨.raised error, nofun, trivial⟩
  | request r next ih => exact fun s result hrun => ih _ _ result hrun
  | untracked body next ihbody ih =>
      exact (ihbody.collecting none).followedBy fun outcome =>
        (ih outcome).unlessPassedOn outcome (next outcome)
  | watch read write key callback next ihread _ _ ih =>
      exact (ihread key).construct.followedBy fun outcome =>
        (ih outcome).unlessPassedOn outcome (next outcome)
  | set field value next ih =>
      have hset : Recorded (set recompute field value) fun s =>
          notifyMarks recompute inside field (s.assign field value) := fun s result hrun =>
        notify_recorded hrecompute hgrown field (s.assign field value) result hrun
      exact hset.followedBy fun outcome => (ih outcome).unlessPassedOn outcome (next outcome)
  | notify field next ih =>
      exact (notify_recorded hrecompute hgrown field).followedBy fun outcome =>
        (ih outcome).unlessPassedOn outcome (next outcome)
  | recompute subscriber next ih =>
      exact (recorded_recomputation hrecompute true subscriber).followedBy fun outcome =>
        (ih outcome).unlessPassedOn outcome (next outcome)

omit hrecompute hgrown

theorem recompute_recorded (fuel : Nat) (subscriber : SubscriberId) :
    Recorded (Engine.recompute (σ := σ) fuel subscriber) (recomputeMarks fuel subscriber) := by
  induction fuel generalizing subscriber with
  | zero =>
      intro s result hrun
      cases hrun
  | succ fuel ih =>
      intro s result hrun
      cases hcell : s.subscribers[subscriber]? with
      | none =>
          rw [recomputeMarks_succ_of_none hcell]
          exact ⟨.nil, trivial⟩
      | some cell =>
          rw [recomputeMarks_succ_of_some hcell]
          rw [recompute_succ_of_some hcell] at hrun
          exact runWith_recorded ih (recompute_keeps Store.Grown.progress fuel) _ s result hrun

/-- Every notification in a run that ends, however deep, serves what it finds when it starts. -/
theorem run_recorded (limit : Nat) (routine : Routine σ) :
    Recorded (run limit routine) (runMarks limit routine) :=
  runWith_recorded (recompute_recorded limit) (recompute_keeps Store.Grown.progress limit) routine

end Engine

end LiveTemplate
