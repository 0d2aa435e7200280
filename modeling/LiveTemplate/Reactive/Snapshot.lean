import LiveTemplate.Reactive.Store

/-!
# Snapshots

A snapshot follows values through the fields of objects without registering anything.  An object
that is reached from itself has none; every other graph ends before it has passed more objects
than there are.
-/

namespace LiveTemplate.Store

variable {σ : Type}

/-- The data of a value, if objects nest in it at most `depth` deep. -/
def jsonWithin? (s : Store σ) : Nat → Value → Option Json
  | _, .null => some .null
  | _, .bool b => some (.bool b)
  | _, .number n => some (.number n)
  | _, .string text => some (.string text)
  | _, .array _ items => some (.array items)
  | 0, .object _ => none
  | depth + 1, .object object =>
    ((s.fieldsOf object).mapM fun entry =>
      (jsonWithin? s depth (s.peek entry.2)).map (entry.1, ·)).map .object

/-- The data of a value. -/
def toJson? (s : Store σ) (value : Value) : Option Json := s.jsonWithin? s.objects.size value

/-- The fields of an object in inspection output, given their values there. -/
def inspectEntries (entries : List (String × String)) : String :=
  "\x7b" ++ ", ".intercalate (entries.map fun entry => Text.quoted entry.1 ++ ": " ++ entry.2)
    ++ "\x7d"

/-- A value in inspection output, if objects nest in it at most `depth` deep. -/
def inspectWithin? (s : Store σ) : Nat → Value → Option String
  | _, .null => some "Null"
  | _, .bool b => some ("Bool(" ++ toString b ++ ")")
  | _, .number n => some ("Number(" ++ (Json.number n).inspect ++ ")")
  | _, .string text => some ("String(" ++ Text.quoted text ++ ")")
  | _, .array _ items => some ("Array([" ++ ", ".intercalate (items.map Json.inspect) ++ "])")
  | 0, .object _ => none
  | depth + 1, .object object =>
    ((s.fieldsOf object).mapM fun entry =>
      (inspectWithin? s depth (s.peek entry.2)).map (entry.1, ·)).map fun entries =>
        "Object(" ++ inspectEntries entries ++ ")"

/-- A value in inspection output. -/
def inspect? (s : Store σ) (value : Value) : Option String :=
  s.inspectWithin? s.objects.size value

/-- An object in inspection output. -/
def inspectObject? (s : Store σ) (object : ObjectId) : Option String :=
  ((s.fieldsOf object).mapM fun entry =>
    (s.inspect? (s.peek entry.2)).map (entry.1, ·)).map inspectEntries

/-- A field in inspection output, with a blank for the number of its dependency. -/
def inspectField? (s : Store σ) (field : FieldId) : Option String :=
  (s.fields[field]?).bind fun cell =>
    (s.inspect? cell.value).map fun value =>
      "ReactiveField \x7b key: " ++ Text.quoted cell.key ++ ", value: " ++ value
        ++ ", dep: Dependency \x7b id: _, policy: " ++ cell.policy.inspect ++ ", subscribers: "
        ++ toString cell.registrations.length ++ " \x7d \x7d"

/-- A subscriber in inspection output, with a blank for its number. -/
def inspectSubscriber (s : Store σ) (subscriber : SubscriberId) : String :=
  "Subscriber \x7b id: _, key: " ++ Text.quoted (s.subscriberKey subscriber) ++ ", .. \x7d"

end LiveTemplate.Store
