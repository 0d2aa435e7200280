import LiveTemplate.Reactive.Routine

/-!
# The reactive store

Objects are tables of fields.  A field has a value and a dependency: a policy and a list of
registered subscribers.  One subscriber at a time may be collecting, and a tracked read registers
it with the dependency of the field.
-/

namespace LiveTemplate

/-- A reactive field with its dependency. -/
structure FieldCell where
  key : String
  value : Value
  policy : NotifyPolicy
  /-- The registered subscribers, in order; one may be registered many times. -/
  registrations : List SubscriberId := []
deriving Inhabited

/-- A reactive object: its fields by key, in order of definition. -/
structure ObjectCell where
  policy : NotifyPolicy
  fields : Table FieldId := []
deriving Inhabited

/-- A callback bound to a key of a source. -/
structure Subscriber (σ : Type) where
  key : String
  source : Source σ
  callback : Value → Routine σ

/-- Everything that operations change. -/
structure Store (σ : Type) where
  dom : Dom := {}
  objects : Array ObjectCell := #[]
  fields : Array FieldCell := #[]
  subscribers : Array (Subscriber σ) := #[]
  /-- How many arrays have an identity so far. -/
  arrays : Nat := 0
  /-- The subscriber that is collecting. -/
  active : Option SubscriberId := none
  /-- What happened, latest first. -/
  journal : List Entry := []
  /-- The state of the embedding program. -/
  shared : σ

namespace Store

variable {σ : Type}

/-- Write an entry into the journal. -/
def record (s : Store σ) (entry : Entry) : Store σ := { s with journal := entry :: s.journal }

/-- Report an event. -/
def report (s : Store σ) (event : Event) : Store σ := s.record (.event event)

/-! ## Objects and fields -/

/-- The fields of an object by key. -/
def fieldsOf (s : Store σ) (object : ObjectId) : Table FieldId :=
  (s.objects[object]?.map ObjectCell.fields).getD []

/-- The field of a key. -/
def field? (s : Store σ) (object : ObjectId) (key : String) : Option FieldId :=
  Table.find? (s.fieldsOf object) key

/-- The value of a field. -/
def peek (s : Store σ) (field : FieldId) : Value :=
  (s.fields[field]?.map FieldCell.value).getD .null

/-- The key of a field. -/
def fieldKey (s : Store σ) (field : FieldId) : String :=
  (s.fields[field]?.map FieldCell.key).getD ""

/-- The subscribers registered with the dependency of a field. -/
def registrations (s : Store σ) (field : FieldId) : List SubscriberId :=
  (s.fields[field]?.map FieldCell.registrations).getD []

/-- The policy of an object. -/
def policyOf (s : Store σ) (object : ObjectId) : NotifyPolicy :=
  (s.objects[object]?.map ObjectCell.policy).getD .failFast

/-- Add an object without fields. -/
def newObject (s : Store σ) (policy : NotifyPolicy) : Store σ × ObjectId :=
  ({ s with objects := s.objects.push { policy } }, s.objects.size)

/-- Give an array its identity. -/
def newArray (s : Store σ) (items : List Json) : Store σ × Value :=
  ({ s with arrays := s.arrays + 1 }, .array s.arrays items)

/-- Define a field with a dependency of its own.  A field under the same key is replaced in
place. -/
def define (s : Store σ) (object : ObjectId) (key : String) (value : Value) : Store σ × FieldId :=
  let field := s.fields.size
  let s := { s with fields := s.fields.push { key, value, policy := s.policyOf object } }
  let s := s.report (.defined key)
  ({ s with
      objects := s.objects.modify object fun cell =>
        { cell with fields := Table.insert cell.fields key field } },
    field)

mutual

/-- Make a data value reactive.  An object becomes a reactive one, with its members observed in
order before each is defined; an array is shared as it is. -/
def observe (s : Store σ) (policy : NotifyPolicy) : Json → Store σ × Value
  | .null => (s, .null)
  | .bool b => (s, .bool b)
  | .number n => (s, .number n)
  | .string text => (s, .string text)
  | .array items => s.newArray items
  | .object members =>
    let (s, object) := s.newObject policy
    (observeMembers s policy object members, .object object)

/-- Observe the members of an object and define a field for each. -/
def observeMembers (s : Store σ) (policy : NotifyPolicy) (object : ObjectId) :
    List (String × Json) → Store σ
  | [] => s
  | (key, json) :: rest =>
    let (s, value) := s.observe policy json
    let (s, _) := s.define object key value
    observeMembers s policy object rest

end

/-! ## Subscribers -/

/-- The key of a subscriber. -/
def subscriberKey (s : Store σ) (subscriber : SubscriberId) : String :=
  (s.subscribers[subscriber]?.map Subscriber.key).getD ""

/-- Put another occupant, or none, in the slot of the subscriber that is collecting. -/
def withActive (s : Store σ) (subscriber : Option SubscriberId) : Store σ :=
  { s with active := subscriber }

/-- Add a subscriber that is about to collect, with a warning if another one is collecting. -/
def subscribe (s : Store σ) (cell : Subscriber σ) : Store σ :=
  let s := { s with subscribers := s.subscribers.push cell }
  if s.active.isSome then s.report .nested else s

/-- Register a subscriber with the dependency of a field. -/
def register (s : Store σ) (field : FieldId) (subscriber : SubscriberId) : Store σ :=
  let s := s.report (.subscribed (s.subscriberKey subscriber))
  { s with
    fields := s.fields.modify field fun cell =>
      { cell with registrations := cell.registrations ++ [subscriber] } }

/-- Register the subscriber that is collecting, if there is one. -/
def track (s : Store σ) (field : FieldId) : Store σ :=
  match s.active with
  | some subscriber => s.register field subscriber
  | none => s

/-- Read a field with tracking. -/
def get (s : Store σ) (field : FieldId) : Store σ × Value :=
  let s := (s.report (.gotten (s.fieldKey field))).track field
  (s, s.peek field)

/-- Store a value in a field, unless the field holds the same value. -/
def assign (s : Store σ) (field : FieldId) (value : Value) : Store σ :=
  if (s.peek field).sameValue value then s
  else
    let s := s.report (.stored (s.fieldKey field) value.display)
    { s with fields := s.fields.modify field fun cell => { cell with value } }

/-- The key of the subscriber that is collecting. -/
def activeKey (s : Store σ) : Option String := s.active.map s.subscriberKey

/-- Do an operation. -/
def perform (s : Store σ) : (request : Request σ) → Store σ × request.Answer
  | .field object key => (s, s.field? object key)
  | .get field => s.get field
  | .peek field => (s, s.peek field)
  | .define object key value => s.define object key value
  | .observe json policy => s.observe policy json
  | .active => (s, s.activeKey)
  | .register field subscriber => (s.register field subscriber, ())
  | .report event => (s.report event, ())
  | .log text => (s.record (.line text), ())
  | .edit change => ({ s with dom := change s.dom }, ())
  | .shared => (s, s.shared)
  | .share change => ({ s with shared := change s.shared }, ())

end Store

end LiveTemplate
