import LiveTemplate.Proofs.Reactive.Running

/-!
# The chronicle of a run

A write in the middle of a notification starts another notification, maybe of the same field, so the
recomputations of one are mixed with those of others.  The chronicle of a run marks, in
chronological order, where each notification and each recomputation starts and ends, and each
failure where it arises.  A failure that a routine meets in one of its parts and ends with is not
marked once more.

Marks nest like parentheses.  So what a notification recomputes itself can be read off the marks
behind its start: `frame` lists the recomputations on the outermost level, up to the mark where the
notification ends.
-/

namespace LiveTemplate

variable {σ ε α : Type}

/-- A mark in the chronicle of a run. -/
inductive Mark
  /-- A notification starts: the policy and the registrations that it finds. -/
  | opened (field : FieldId) (policy : NotifyPolicy) (registrations : List SubscriberId)
  /-- A notification ends: the registrations that there are now. -/
  | closed (registrations : List SubscriberId)
  /-- A recomputation starts, by a notification or by hand. -/
  | began (byHand : Bool) (subscriber : SubscriberId)
  /-- A recomputation ends. -/
  | ended (byHand : Bool) (subscriber : SubscriberId) (outcome : Except ReactiveError Value)
  /-- A failure arises. -/
  | raised (error : ReactiveError)

namespace Engine

/-- The marks of what follows a session. -/
def marksBehind (session : Session σ ε α) (next : Except ε α → Store σ → List Mark)
    (s : Store σ) : List Mark :=
  match session s with
  | some (outcome, t) => next outcome t
  | none => []

/-- The marks of what follows an outcome, unless it is an error that ends the routine. -/
def unlessPassedOn (outcome : Except ε α) (routine : Routine σ) (marks : List Mark) : List Mark :=
  match outcome, routine with
  | .error _, .fail _ => []
  | _, _ => marks

section

variable (recompute : SubscriberId → ReactiveSession σ Value)
  (inside : SubscriberId → Store σ → List Mark)

/-- The marks of a recomputation, given those inside it. -/
def recomputationMarks (byHand : Bool) (subscriber : SubscriberId) (s : Store σ) : List Mark :=
  .began byHand subscriber :: inside subscriber s ++
    marksBehind (recompute subscriber) (fun outcome _ => [.ended byHand subscriber outcome]) s

/-- The marks of recomputing subscribers up to the first that fails. -/
def failFastMarks : List SubscriberId → Store σ → List Mark
  | [], _ => []
  | subscriber :: rest, s =>
    recomputationMarks recompute inside false subscriber s ++
      marksBehind (recompute subscriber) (fun
        | .ok _, t => failFastMarks rest t
        | .error _, _ => []) s

/-- The marks of recomputing every subscriber. -/
def isolatedMarks : List SubscriberId → Store σ → List Mark
  | [], _ => []
  | subscriber :: rest, s =>
    recomputationMarks recompute inside false subscriber s ++
      marksBehind (recompute subscriber) (fun
        | .ok _, t => isolatedMarks rest t
        | .error e, t =>
          isolatedMarks rest (t.report (.notifyFailed (t.subscriberKey subscriber) e.message))) s

/-- The marks of a notification. -/
def notifyMarks (field : FieldId) (s : Store σ) : List Mark :=
  match s.fields[field]? with
  | none => []
  | some cell =>
    let entered := s.report (.notified cell.registrations.length)
    let served := match cell.policy with
      | .failFast => failFastMarks recompute inside cell.registrations entered
      | .isolate => isolatedMarks recompute inside cell.registrations entered
    .opened field cell.policy cell.registrations :: served ++
      marksBehind (notify recompute field) (fun _ t => [.closed (t.registrations field)]) s

/-- The marks of a routine, with the given way to recompute a subscriber and the marks inside. -/
def runMarksWith : Routine σ → Store σ → List Mark
  | .done _, _ => []
  | .fail error, _ => [.raised error]
  | .request r next, s => runMarksWith (next (s.perform r).2) (s.perform r).1
  | .untracked body next, s =>
    runMarksWith body (s.withActive none) ++
      marksBehind (Session.collecting none (runWith recompute body))
        (fun outcome t => unlessPassedOn outcome (next outcome) (runMarksWith (next outcome) t)) s
  | .watch read write key callback next, s =>
    runMarksWith (read key)
        ((s.subscribe ⟨key, ⟨read, write⟩, callback⟩).withActive (some s.subscribers.size)) ++
      marksBehind (construct ⟨read, write⟩ key callback (runWith recompute (read key)))
        (fun outcome t => unlessPassedOn outcome (next outcome) (runMarksWith (next outcome) t)) s
  | .set field value next, s =>
    notifyMarks recompute inside field (s.assign field value) ++
      marksBehind (set recompute field value)
        (fun outcome t => unlessPassedOn outcome (next outcome) (runMarksWith (next outcome) t)) s
  | .notify field next, s =>
    notifyMarks recompute inside field s ++
      marksBehind (notify recompute field)
        (fun outcome t => unlessPassedOn outcome (next outcome) (runMarksWith (next outcome) t)) s
  | .recompute subscriber next, s =>
    recomputationMarks recompute inside true subscriber s ++
      marksBehind (recompute subscriber)
        (fun outcome t => unlessPassedOn outcome (next outcome) (runMarksWith (next outcome) t)) s

end

/-- The marks inside a recomputation. -/
def recomputeMarks : Nat → SubscriberId → Store σ → List Mark
  | 0, _, _ => []
  | fuel + 1, subscriber, s =>
    match s.subscribers[subscriber]? with
    | none => []
    | some cell =>
      runMarksWith (recompute fuel) (recomputeMarks fuel)
        ((cell.source.read cell.key).bind cell.callback) s

/-- The marks of a routine in which recomputations nest at most `fuel` deep. -/
def runMarks (fuel : Nat) (routine : Routine σ) (s : Store σ) : List Mark :=
  runMarksWith (recompute fuel) (recomputeMarks fuel) routine s

end Engine

/-! ## Reading an activation off the marks -/

/-- The recomputations that a notification makes itself, with their outcomes, and the registrations
when it ends. -/
structure Frame where
  served : List (SubscriberId × Except ReactiveError Value)
  final : Option (List SubscriberId)

/-- Another recomputation before those of a frame. -/
def Frame.serve (frame : Frame) (subscriber : SubscriberId)
    (outcome : Except ReactiveError Value) : Frame :=
  { frame with served := (subscriber, outcome) :: frame.served }

/-- What stands in the marks behind the start of a notification, up to its end.  The depth says how
many notifications and recomputations within it are open. -/
def frame : Nat → List Mark → Frame
  | _, [] => ⟨[], none⟩
  | depth, .opened _ _ _ :: rest => frame (depth + 1) rest
  | depth, .began _ _ :: rest => frame (depth + 1) rest
  | depth, .raised _ :: rest => frame depth rest
  | 0, .closed registrations :: _ => ⟨[], some registrations⟩
  | depth + 1, .closed _ :: rest => frame depth rest
  | 0, .ended _ _ _ :: _ => ⟨[], none⟩
  | 1, .ended _ subscriber outcome :: rest => (frame 0 rest).serve subscriber outcome
  | depth + 2, .ended _ _ _ :: rest => frame (depth + 1) rest

/-- Everything that starts within the marks ends within them. -/
def Nested (marks : List Mark) : Prop :=
  ∀ depth rest, frame (depth + 1) (marks ++ rest) = frame (depth + 1) rest

namespace Nested

theorem nil : Nested [] := fun _ _ => rfl

theorem raised (error : ReactiveError) : Nested [.raised error] := by
  intro depth rest
  simp [frame]

theorem append {first second : List Mark} (hfirst : Nested first) (hsecond : Nested second) :
    Nested (first ++ second) := by
  intro depth rest
  rw [List.append_assoc, hfirst, hsecond]

/-- A recomputation around nested marks. -/
theorem recomputation {marks : List Mark} (h : Nested marks) (byHand : Bool)
    (subscriber : SubscriberId) (outcome : Except ReactiveError Value) :
    Nested (.began byHand subscriber :: marks ++ [.ended byHand subscriber outcome]) := by
  intro depth rest
  have hinner := h (depth + 1) (.ended byHand subscriber outcome :: rest)
  simpa [frame] using hinner

/-- A notification around nested marks. -/
theorem notification {marks : List Mark} (h : Nested marks) (field : FieldId)
    (policy : NotifyPolicy) (registrations final : List SubscriberId) :
    Nested (.opened field policy registrations :: marks ++ [.closed final]) := by
  intro depth rest
  have hinner := h (depth + 1) (.closed final :: rest)
  simpa [frame] using hinner

/-- On the outermost level, a recomputation is served, whatever happened inside it. -/
theorem frame_recomputation {marks : List Mark} (h : Nested marks) (byHand : Bool)
    (subscriber : SubscriberId) (outcome : Except ReactiveError Value) (rest : List Mark) :
    frame 0 (.began byHand subscriber :: marks ++ .ended byHand subscriber outcome :: rest) =
      (frame 0 rest).serve subscriber outcome := by
  have hinner := h 0 (.ended byHand subscriber outcome :: rest)
  simpa [frame] using hinner

end Nested

namespace Engine

theorem marksBehind_of_eq_some {session : Session σ ε α} {outcome : Except ε α} {s t : Store σ}
    (next : Except ε α → Store σ → List Mark) (h : session s = some (outcome, t)) :
    marksBehind session next s = next outcome t := by
  unfold marksBehind
  rw [h]

variable {recompute : SubscriberId → ReactiveSession σ Value}
  {inside : SubscriberId → Store σ → List Mark} {s t : Store σ}

theorem recomputationMarks_of_eq_some {byHand : Bool} {subscriber : SubscriberId}
    {outcome : Except ReactiveError Value} (h : recompute subscriber s = some (outcome, t)) :
    recomputationMarks recompute inside byHand subscriber s =
      .began byHand subscriber :: inside subscriber s ++ [.ended byHand subscriber outcome] := by
  unfold recomputationMarks
  rw [marksBehind_of_eq_some _ h]

theorem isolatedMarks_of_ok {subscriber : SubscriberId} {value : Value}
    (h : recompute subscriber s = some (.ok value, t)) (rest : List SubscriberId) :
    isolatedMarks recompute inside (subscriber :: rest) s =
      recomputationMarks recompute inside false subscriber s ++
        isolatedMarks recompute inside rest t := by
  rw [isolatedMarks, marksBehind_of_eq_some _ h]

theorem isolatedMarks_of_error {subscriber : SubscriberId} {e : ReactiveError}
    (h : recompute subscriber s = some (.error e, t)) (rest : List SubscriberId) :
    isolatedMarks recompute inside (subscriber :: rest) s =
      recomputationMarks recompute inside false subscriber s ++
        isolatedMarks recompute inside rest
          (t.report (.notifyFailed (t.subscriberKey subscriber) e.message)) := by
  rw [isolatedMarks, marksBehind_of_eq_some _ h]

theorem notifyMarks_of_none {field : FieldId} (hcell : s.fields[field]? = none) :
    notifyMarks recompute inside field s = [] := by
  unfold notifyMarks
  rw [hcell]

theorem notifyMarks_of_failFast {field : FieldId} {cell : FieldCell}
    {outcome : Except ReactiveError Value} (hcell : s.fields[field]? = some cell)
    (hpolicy : cell.policy = .failFast) (hrun : notify recompute field s = some (outcome, t)) :
    notifyMarks recompute inside field s =
      .opened field .failFast cell.registrations ::
        failFastMarks recompute inside cell.registrations
          (s.report (.notified cell.registrations.length)) ++
        [.closed (t.registrations field)] := by
  unfold notifyMarks
  simp only [hcell, hpolicy, marksBehind_of_eq_some _ hrun]

theorem notifyMarks_of_isolate {field : FieldId} {cell : FieldCell}
    {outcome : Except ReactiveError Value} (hcell : s.fields[field]? = some cell)
    (hpolicy : cell.policy = .isolate) (hrun : notify recompute field s = some (outcome, t)) :
    notifyMarks recompute inside field s =
      .opened field .isolate cell.registrations ::
        isolatedMarks recompute inside cell.registrations
          (s.report (.notified cell.registrations.length)) ++
        [.closed (t.registrations field)] := by
  unfold notifyMarks
  simp only [hcell, hpolicy, marksBehind_of_eq_some _ hrun]

/-- To hand an outcome on leaves no marks. -/
theorem marksBehind_ofExcept (session : ReactiveSession σ Value) (s : Store σ) :
    marksBehind session (fun outcome t => unlessPassedOn outcome (.ofExcept outcome : Routine σ)
      (runMarksWith recompute inside (.ofExcept outcome) t)) s = [] := by
  unfold marksBehind
  split
  · next outcome t _ => cases outcome <;> rfl
  · rfl

theorem runMarksWith_setField (field : FieldId) (value : Value) (s : Store σ) :
    runMarksWith recompute inside (.setField field value) s =
      notifyMarks recompute inside field (s.assign field value) := by
  rw [Routine.setField, runMarksWith, marksBehind_ofExcept, List.append_nil]

theorem recomputeMarks_succ_of_some {fuel : Nat} {subscriber : SubscriberId}
    {cell : Subscriber σ} (hcell : s.subscribers[subscriber]? = some cell) :
    recomputeMarks (fuel + 1) subscriber s =
      runMarksWith (Engine.recompute fuel) (recomputeMarks fuel)
        ((cell.source.read cell.key).bind cell.callback) s := by
  unfold recomputeMarks
  rw [hcell]

theorem recomputeMarks_succ_of_none {fuel : Nat} {subscriber : SubscriberId}
    (hcell : s.subscribers[subscriber]? = none) :
    recomputeMarks (fuel + 1) subscriber s = [] := by
  unfold recomputeMarks
  rw [hcell]

end Engine

end LiveTemplate
