import LiveTemplate.Dom.Basic
import LiveTemplate.Reactive.Event
import LiveTemplate.Reactive.Policy

/-!
# Routines

The reads and writes of a source, the callbacks of subscribers and the painting of nodes are
routines: programs over the reactive store, given as trees of operations.  A routine can be stored
beside the data it works on and says exactly what it does, in order.  `σ` is a state that the
embedding program shares with its routines.
-/

namespace LiveTemplate

/-- The name of a reactive field. -/
abbrev FieldId := Nat

/-- The name of a subscriber. -/
abbrev SubscriberId := Nat

/-- An operation that runs no other routine. -/
inductive Request (σ : Type)
  /-- Look up the field of a key. -/
  | field (object : ObjectId) (key : String)
  /-- Read a field with tracking. -/
  | get (field : FieldId)
  /-- Read a field without tracking. -/
  | peek (field : FieldId)
  /-- Define a field, in place of one under the same key. -/
  | define (object : ObjectId) (key : String) (value : Value)
  /-- Make a data value reactive. -/
  | observe (json : Json) (policy : NotifyPolicy)
  /-- The key of the subscriber that is collecting. -/
  | active
  /-- Register a subscriber with the dependency of a field. -/
  | register (field : FieldId) (subscriber : SubscriberId)
  /-- Report an event. -/
  | report (event : Event)
  /-- Write a line into the journal. -/
  | log (text : String)
  /-- Change nodes. -/
  | edit (change : Dom → Dom)
  /-- The shared state. -/
  | shared
  /-- Change the shared state. -/
  | share (change : σ → σ)

/-- What an operation answers. -/
def Request.Answer {σ : Type} : Request σ → Type
  | .field _ _ => Option FieldId
  | .get _ => Value
  | .peek _ => Value
  | .define _ _ _ => FieldId
  | .observe _ _ => Value
  | .active => Option String
  | .register _ _ => Unit
  | .report _ => Unit
  | .log _ => Unit
  | .edit _ => Unit
  | .shared => σ
  | .share _ => Unit

/-- A program over the reactive store.  Where a part of it can fail, what follows is told how it
went. -/
inductive Routine (σ : Type)
  /-- End with a value. -/
  | done (value : Value)
  /-- End with an error. -/
  | fail (error : ReactiveError)
  /-- Do an operation. -/
  | request (request : Request σ) (next : request.Answer → Routine σ)
  /-- Run a routine with collection suspended. -/
  | untracked (body : Routine σ) (next : Except ReactiveError Value → Routine σ)
  /-- Construct a subscriber on a key of a source, given by its reads and writes. -/
  | watch (read : String → Routine σ) (write : String → Value → Routine σ) (key : String)
      (callback : Value → Routine σ) (next : Except ReactiveError SubscriberId → Routine σ)
  /-- Write a field and notify its subscribers. -/
  | set (field : FieldId) (value : Value) (next : Except ReactiveError Value → Routine σ)
  /-- Notify the subscribers of a field. -/
  | notify (field : FieldId) (next : Except ReactiveError Value → Routine σ)
  /-- Recompute a subscriber. -/
  | recompute (subscriber : SubscriberId) (next : Except ReactiveError Value → Routine σ)

namespace Routine

variable {σ : Type}

/-- End with the given outcome. -/
def ofExcept : Except ReactiveError Value → Routine σ
  | .ok value => done value
  | .error error => fail error

/-- Go on behind a routine, whatever its outcome. -/
def followedBy (routine : Routine σ) (next : Except ReactiveError Value → Routine σ) :
    Routine σ :=
  match routine with
  | done value => next (.ok value)
  | fail error => next (.error error)
  | request r k => request r fun answer => (k answer).followedBy next
  | untracked body k => untracked body fun outcome => (k outcome).followedBy next
  | watch read write key callback k =>
    watch read write key callback fun outcome => (k outcome).followedBy next
  | set field value k => set field value fun outcome => (k outcome).followedBy next
  | notify field k => notify field fun outcome => (k outcome).followedBy next
  | recompute subscriber k => recompute subscriber fun outcome => (k outcome).followedBy next

/-- Go on behind a routine that succeeds; an error ends both. -/
def bind (routine : Routine σ) (next : Value → Routine σ) : Routine σ :=
  routine.followedBy fun
    | .ok value => next value
    | .error error => fail error

/-- Go on behind a routine that succeeds, with no use for its value. -/
def andThen (routine next : Routine σ) : Routine σ := routine.bind fun _ => next

/-- Nothing to do. -/
def nothing : Routine σ := done .null

/-- Run routines one after another, up to the first error. -/
def inOrder : List (Routine σ) → Routine σ
  | [] => nothing
  | routine :: rest => routine.andThen (inOrder rest)

/-- Write a line into the journal. -/
def log (text : String) : Routine σ := request (.log text) fun _ => nothing

/-- Report an event. -/
def report (event : Event) : Routine σ := request (.report event) fun _ => nothing

/-- Change nodes. -/
def edit (change : Dom → Dom) : Routine σ := request (.edit change) fun _ => nothing

/-- Change the shared state. -/
def share (change : σ → σ) : Routine σ := request (.share change) fun _ => nothing

/-- Read a field with tracking. -/
def getField (field : FieldId) : Routine σ := request (.get field) done

/-- Write a field and notify its subscribers. -/
def setField (field : FieldId) (value : Value) : Routine σ := set field value ofExcept

/-- Run a routine with collection suspended. -/
def suspended (body : Routine σ) : Routine σ := untracked body ofExcept

end Routine

/-- Something that subscribers read their key from and that their callbacks write to. -/
structure Source (σ : Type) where
  read : String → Routine σ
  write : String → Value → Routine σ

namespace Source

variable {σ : Type}

/-- Go on with the field of a key, if the object has it. -/
def withField (object : ObjectId) (key : String) (use : FieldId → Routine σ) : Routine σ :=
  .request (.field object key) fun
    | some field => use field
    | none => .fail (.unknownProperty key)

/-- An object as a source: tracked reads, and writes that notify. -/
def ofObject (object : ObjectId) : Source σ where
  read key := withField object key Routine.getField
  write key value := withField object key fun field => Routine.setField field value

/-- Construct a subscriber on a key of the source, and go on with it. -/
def watch (source : Source σ) (key : String) (callback : Value → Routine σ)
    (next : SubscriberId → Routine σ) : Routine σ :=
  .watch source.read source.write key callback fun
    | .ok subscriber => next subscriber
    | .error error => .fail error

end Source

end LiveTemplate
