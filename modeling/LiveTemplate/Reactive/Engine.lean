import LiveTemplate.Reactive.Store

/-!
# Running routines

A write notifies the subscribers of its field before it returns, and a callback may write again,
so recomputations nest.  `fuel` bounds how deep: a run that would go deeper has no outcome, and
that is the only way for it to have none.
-/

namespace LiveTemplate

/-- A computation on the store that may fail; without outcome if recomputations nest too deeply. -/
abbrev Session (σ ε α : Type) := ExceptT ε (StateT (Store σ) Option) α

namespace Session

variable {σ ε α : Type}

/-- A computation given by what it makes of a store. -/
def ofFunction (f : Store σ → Option (Except ε α × Store σ)) : Session σ ε α := f

/-- What a computation makes of a store. -/
def apply (session : Session σ ε α) (s : Store σ) : Option (Except ε α × Store σ) :=
  session s

/-- Change the store. -/
def update (f : Store σ → Store σ) : Session σ ε Unit := fun s => some (.ok (), f s)

/-- Look at the store. -/
def inspect (f : Store σ → α) : Session σ ε α := fun s => some (.ok (f s), s)

/-- Do an operation on the store. -/
def operate (f : Store σ → Store σ × α) : Session σ ε α := fun s =>
  some (.ok (f s).2, (f s).1)

/-- Change nodes. -/
def edit (change : Dom → Dom) : Session σ ε Unit := update fun s => { s with dom := change s.dom }

/-- Report an event. -/
def report (event : Event) : Session σ ε Unit := update fun s => s.report event

/-- Go on behind a computation, whatever its outcome. -/
def followedBy {ε' β : Type} (session : Session σ ε α) (next : Except ε α → Session σ ε' β) :
    Session σ ε' β := fun s =>
  match session s with
  | some (outcome, s) => next outcome s
  | none => none

/-- Put errors in other words. -/
def mapError {ε' : Type} (session : Session σ ε α) (f : ε → ε') : Session σ ε' α :=
  session.followedBy fun
    | .ok a => fun s => some (.ok a, s)
    | .error e => fun s => some (.error (f e), s)

/-- Run a computation with the given subscriber collecting, or none, and put back the one that was
before, whatever the outcome. -/
def collecting (subscriber : Option SubscriberId) (session : Session σ ε α) : Session σ ε α :=
  fun s =>
    match session (s.withActive subscriber) with
    | some (outcome, after) => some (outcome, after.withActive s.active)
    | none => none

end Session

namespace Engine

variable {σ : Type}

/-- A session that fails with reactive errors. -/
abbrev ReactiveSession (σ α : Type) := Session σ ReactiveError α

/-- Recompute subscribers up to the first that fails. -/
def notifyFailFast (recompute : SubscriberId → ReactiveSession σ Value) :
    List SubscriberId → ReactiveSession σ Value
  | [] => pure .null
  | subscriber :: rest => recompute subscriber >>= fun _ => notifyFailFast recompute rest

/-- Recompute every subscriber; the failures, in order. -/
def collectFailures (recompute : SubscriberId → ReactiveSession σ Value) :
    List SubscriberId → ReactiveSession σ (List ReactiveError)
  | [] => pure []
  | subscriber :: rest =>
    (recompute subscriber).followedBy fun
      | .ok _ => collectFailures recompute rest
      | .error e => do
        Session.update fun s => s.report (.notifyFailed (s.subscriberKey subscriber) e.message)
        let failures ← collectFailures recompute rest
        pure (e :: failures)

/-- Recompute every subscriber, then report all failures together. -/
def notifyIsolated (recompute : SubscriberId → ReactiveSession σ Value)
    (subscribers : List SubscriberId) : ReactiveSession σ Value := do
  let failures ← collectFailures recompute subscribers
  if failures.isEmpty then pure .null else throw (.cascade failures)

/-- Notify the subscribers that are registered with the dependency of a field when the notification
starts. -/
def notify (recompute : SubscriberId → ReactiveSession σ Value) (field : FieldId) :
    ReactiveSession σ Value := fun s =>
  match s.fields[field]? with
  | none => some (.ok .null, s)
  | some cell =>
    -- The list is that of now: whoever registers meanwhile waits for the next notification.
    let s := s.report (.notified cell.registrations.length)
    match cell.policy with
    | .failFast => notifyFailFast recompute cell.registrations s
    | .isolate => notifyIsolated recompute cell.registrations s

/-- Write a field: store the value if it differs, and notify in any case. -/
def set (recompute : SubscriberId → ReactiveSession σ Value) (field : FieldId) (value : Value) :
    ReactiveSession σ Value := fun s => notify recompute field (s.assign field value)

/-- Construct a subscriber: it is collecting while its key is read once, by `read`. -/
def construct (source : Source σ) (key : String) (callback : Value → Routine σ)
    (read : ReactiveSession σ Value) : ReactiveSession σ SubscriberId := fun s =>
  -- The subscriber is there before the read, and stays where the read has registered it even if
  -- that fails in the end.
  let subscriber := s.subscribers.size
  match Session.collecting (some subscriber) read (s.subscribe { key, source, callback }) with
  | some (.ok _, s) => some (.ok subscriber, s.report (.created key))
  | some (.error e, s) => some (.error e, s)
  | none => none

/-- Run a routine, with the given way to recompute a subscriber. -/
def runWith (recompute : SubscriberId → ReactiveSession σ Value) :
    Routine σ → ReactiveSession σ Value
  | .done value => pure value
  | .fail error => throw error
  | .request r next => fun s =>
    let (s, answer) := s.perform r
    runWith recompute (next answer) s
  | .untracked body next =>
    (Session.collecting none (runWith recompute body)).followedBy fun outcome =>
      runWith recompute (next outcome)
  | .watch read write key callback next =>
    (construct ⟨read, write⟩ key callback (runWith recompute (read key))).followedBy
      fun outcome => runWith recompute (next outcome)
  | .set field value next =>
    (set recompute field value).followedBy fun outcome => runWith recompute (next outcome)
  | .notify field next =>
    (notify recompute field).followedBy fun outcome => runWith recompute (next outcome)
  | .recompute subscriber next =>
    (recompute subscriber).followedBy fun outcome => runWith recompute (next outcome)

/-- Recompute a subscriber: read its key and hand the value to its callback.  Recomputations nest
at most `fuel` deep. -/
def recompute : Nat → SubscriberId → ReactiveSession σ Value
  | 0, _ => fun _ => none
  | fuel + 1, subscriber => fun s =>
    match s.subscribers[subscriber]? with
    | none => some (.ok .null, s)
    | some cell => runWith (recompute fuel) ((cell.source.read cell.key).bind cell.callback) s

/-- Run a routine in which recomputations nest at most `fuel` deep. -/
def run (fuel : Nat) (routine : Routine σ) : ReactiveSession σ Value :=
  runWith (recompute fuel) routine

/-- Construct a subscriber on a key of a source. -/
def watch (fuel : Nat) (source : Source σ) (key : String) (callback : Value → Routine σ) :
    ReactiveSession σ SubscriberId :=
  construct source key callback (run fuel (source.read key))

end Engine

end LiveTemplate
