import LiveTemplate.Reactive.Source
import LiveTemplate.Reactive.Store

/-!
# Routines that do only operations of some kind

The condition is on the operations, whatever their answers, of a routine and of everything that it
may register.  Writes, notifications and recomputations are always allowed.
-/

namespace LiveTemplate

variable {σ : Type} {allowed : Request σ → Prop}

/-- Every operation of the routine, and of every routine it registers, is allowed. -/
def Routine.Only (allowed : Request σ → Prop) : Routine σ → Prop
  | .done _ => True
  | .fail _ => True
  | .request r next => allowed r ∧ ∀ answer, (next answer).Only allowed
  | .untracked body next => body.Only allowed ∧ ∀ outcome, (next outcome).Only allowed
  | .watch read _ key callback next =>
    ((read key).Only allowed ∧ ∀ value, (callback value).Only allowed) ∧
      ∀ outcome, (next outcome).Only allowed
  | .set _ _ next => ∀ outcome, (next outcome).Only allowed
  | .notify _ next => ∀ outcome, (next outcome).Only allowed
  | .recompute _ next => ∀ outcome, (next outcome).Only allowed

/-- Every operation of a recomputation of the subscriber is allowed. -/
def Subscriber.Only (allowed : Request σ → Prop) (cell : Subscriber σ) : Prop :=
  (cell.source.read cell.key).Only allowed ∧ ∀ value, (cell.callback value).Only allowed

namespace Routine

theorem Only.mono {allowed' : Request σ → Prop} {routine : Routine σ}
    (hroutine : routine.Only allowed) (h : ∀ r, allowed r → allowed' r) :
    routine.Only allowed' := by
  induction routine with
  | done value => trivial
  | fail error => trivial
  | request r next ih => exact ⟨h r hroutine.1, fun answer => ih answer (hroutine.2 answer)⟩
  | untracked body next ihbody ih =>
      exact ⟨ihbody hroutine.1, fun outcome => ih outcome (hroutine.2 outcome)⟩
  | watch read write key callback next ihread _ ihcallback ih =>
      obtain ⟨⟨hread, hcallback⟩, hnext⟩ := hroutine
      exact ⟨⟨ihread key hread, fun value => ihcallback value (hcallback value)⟩,
        fun outcome => ih outcome (hnext outcome)⟩
  | set field value next ih => exact fun outcome => ih outcome (hroutine outcome)
  | notify field next ih => exact fun outcome => ih outcome (hroutine outcome)
  | recompute subscriber next ih => exact fun outcome => ih outcome (hroutine outcome)

theorem Only.followedBy {routine : Routine σ} {next : Except ReactiveError Value → Routine σ}
    (hroutine : routine.Only allowed) (hnext : ∀ outcome, (next outcome).Only allowed) :
    (routine.followedBy next).Only allowed := by
  induction routine with
  | done value => exact hnext (.ok value)
  | fail error => exact hnext (.error error)
  | request r k ih => exact ⟨hroutine.1, fun answer => ih answer (hroutine.2 answer)⟩
  | untracked body k _ ih => exact ⟨hroutine.1, fun outcome => ih outcome (hroutine.2 outcome)⟩
  | watch read write key callback k _ _ _ ih =>
      exact ⟨hroutine.1, fun outcome => ih outcome (hroutine.2 outcome)⟩
  | set field value k ih => exact fun outcome => ih outcome (hroutine outcome)
  | notify field k ih => exact fun outcome => ih outcome (hroutine outcome)
  | recompute subscriber k ih => exact fun outcome => ih outcome (hroutine outcome)

theorem Only.bind {routine : Routine σ} {next : Value → Routine σ}
    (hroutine : routine.Only allowed) (hnext : ∀ value, (next value).Only allowed) :
    (routine.bind next).Only allowed := by
  refine hroutine.followedBy fun outcome => ?_
  cases outcome with
  | ok value => exact hnext value
  | error e => trivial

end Routine

theorem Subscriber.Only.mono {allowed' : Request σ → Prop} {cell : Subscriber σ}
    (hcell : cell.Only allowed) (h : ∀ r, allowed r → allowed' r) : cell.Only allowed' :=
  ⟨hcell.1.mono h, fun value => (hcell.2 value).mono h⟩

/-- The operations that reads and writes through a table of forwarded keys do. -/
def Request.Reads : Request σ → Prop
  | .field _ _ => True
  | .get _ => True
  | .report _ => True
  | _ => False

namespace Source

theorem only_reportMiss (forwarded : List String) (key : String) :
    (reportMiss forwarded key : Routine σ).Only Request.Reads := by
  unfold reportMiss
  split
  · trivial
  · exact ⟨trivial, fun _ => trivial⟩

theorem only_read_forwarding (forwarded : List String) (object : ObjectId) (key : String) :
    ((forwarding forwarded object).read key : Routine σ).Only Request.Reads := by
  refine (only_reportMiss forwarded key).bind fun _ => ⟨trivial, fun field? => ?_⟩
  cases field? with
  | none => trivial
  | some field => exact ⟨trivial, fun _ => trivial⟩

theorem only_write_forwarding (forwarded : List String) (object : ObjectId) (key : String)
    (value : Value) :
    ((forwarding forwarded object).write key value : Routine σ).Only Request.Reads := by
  refine (only_reportMiss forwarded key).bind fun _ => ⟨trivial, fun field? => ?_⟩
  cases field? with
  | none => trivial
  | some field =>
      intro outcome
      cases outcome <;> trivial

end Source

end LiveTemplate
