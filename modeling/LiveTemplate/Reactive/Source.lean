import LiveTemplate.Reactive.Routine

/-!
# Sources over objects

Data that is written becomes a value first.  A source may do more than pass reads and writes on to
an object: forward them with a report for keys outside a table, or run other routines around each
read.
-/

namespace LiveTemplate

variable {σ : Type}

namespace Routine

/-- Data as a value.  It is observed under the default configuration, whatever object it goes to. -/
def ofJson (json : Json) : Routine σ :=
  request (.observe json ({} : ReactiveConfig).notifyPolicy) done

/-- Define a field of an object. -/
def define (object : ObjectId) (key : String) (value : Value) : Routine σ :=
  request (.define object key value) fun _ => nothing

/-- Define a field of an object from data. -/
def defineJson (object : ObjectId) (key : String) (json : Json) : Routine σ :=
  (ofJson json).bind (define object key)

end Routine

namespace Source

/-- Write data. -/
def writeJson (source : Source σ) (key : String) (json : Json) : Routine σ :=
  (Routine.ofJson json).bind (source.write key)

/-- Report a key that is not among the forwarded ones. -/
def reportMiss (forwarded : List String) (key : String) : Routine σ :=
  if forwarded.contains key then .nothing else .report (.forwardMiss key)

/-- An object as a source that knows the keys it was made with.  Other keys reach the object too,
after a report. -/
def forwarding (forwarded : List String) (object : ObjectId) : Source σ where
  read key := (reportMiss forwarded key).andThen ((ofObject object).read key)
  write key value := (reportMiss forwarded key).andThen ((ofObject object).write key value)

/-- A source whose reads run routines before and after the read of another source.  The first
error ends the read. -/
def around (before after : List (Routine σ)) (inner : Source σ) : Source σ where
  read key :=
    (Routine.inOrder before).andThen <|
      (inner.read key).bind fun value => (Routine.inOrder after).andThen (.done value)
  write := inner.write

end Source

/-- What a read may do beside reading its own key. -/
inductive Stage (σ : Type)
  /-- A tracked read. -/
  | get (object : ObjectId) (key : String)
  /-- The same with collection suspended. -/
  | untracked (object : ObjectId) (key : String)
  /-- An untracked read of a field, if there is one. -/
  | peek (object : ObjectId) (key : String)
  /-- The construction of another subscriber. -/
  | watch (object : ObjectId) (key : String) (callback : Value → Routine σ)

/-- What a stage does. -/
def Stage.routine : Stage σ → Routine σ
  | get object key => (Source.ofObject object).read key
  | untracked object key => Routine.suspended ((Source.ofObject object).read key)
  | peek object key =>
    .request (.field object key) fun
      | some field => .request (.peek field) .done
      | none => .nothing
  | watch object key callback =>
    (Source.ofObject object).watch key callback fun _ => .nothing

end LiveTemplate
