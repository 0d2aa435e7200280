import LiveTemplate.Json.Printer

/-!
# Values of reactive fields

A value is a scalar, a shared array or an object.  Arrays and objects are the same value only if
they are the same one, so an array carries an identity beside its items.
-/

namespace LiveTemplate

/-- The name of a reactive object. -/
abbrev ObjectId := Nat

/-- The value of a reactive field. -/
inductive Value
  | null
  | bool (value : Bool)
  | number (value : Number)
  | string (value : String)
  | array (identity : Nat) (items : List Json)
  | object (object : ObjectId)
deriving Repr, Inhabited

namespace Value

/-- Whether writing the second value over the first leaves a field unchanged: scalars compare by
value, arrays and objects by identity. -/
def sameValue : Value → Value → Bool
  | null, null => true
  | bool a, bool b => a == b
  | number a, number b => a.sameNumber b
  | string a, string b => a == b
  | array a _, array b _ => a == b
  | object a, object b => a == b
  | _, _ => false

/-- The word for the kind of a value. -/
def kind : Value → String
  | null => "null"
  | bool _ => "boolean"
  | number _ => "number"
  | string _ => "string"
  | array _ _ => "array"
  | object _ => "object"

/-- Whether the value is null. -/
def isNull : Value → Bool
  | null => true
  | _ => false

/-- The number of a number value. -/
def number? : Value → Option Number
  | number n => some n
  | _ => none

/-- The value as a text. -/
def asText? : Value → Option String
  | string text => some text
  | _ => none

/-- The value as a truth value. -/
def asBool? : Value → Option Bool
  | bool b => some b
  | _ => none

/-- The items of an array. -/
def asItems? : Value → Option (List Json)
  | array _ items => some items
  | _ => none

/-- The value as an object. -/
def asObject? : Value → Option ObjectId
  | object id => some id
  | _ => none

/-- The value as a signed integer of 64 bits. -/
def asSigned? (value : Value) : Option Int := value.number?.bind Number.asSigned?

/-- The value as a double. -/
def asFloat? (value : Value) : Option Binary64 := value.number?.map Number.toFloat

/-- A double as a value: null if it is not finite. -/
def ofFloat (x : Binary64) : Value := ((Number.ofFloat? x).map number).getD null

/-- An integer as a value; out of the range of integers, null. -/
def ofInt (n : Int) : Value := ((Number.ofInt? n).map number).getD null

/-- An item of an array as a document shows it: null shows as nothing, an array as its items with
commas between them. -/
def itemText : Json → String
  | .null => ""
  | .bool b => toString b
  | .number n => n.displayText
  | .string s => s
  | .array items => ",".intercalate (itemTexts items)
  | .object _ => "[object Object]"
where
  /-- Each item as a document shows it. -/
  itemTexts : List Json → List String
    | [] => []
    | item :: rest => itemText item :: itemTexts rest

/-- The value as a document shows it. -/
def display : Value → String
  | null => "null"
  | bool b => toString b
  | number n => n.displayText
  | string s => s
  | array _ items => itemText (.array items)
  | object _ => "[object Object]"

end Value

/-- Why a reactive operation fails. -/
inductive ReactiveError
  /-- The object has no such key. -/
  | unknownProperty (key : String)
  /-- A callback gave up. -/
  | callback (message : String)
  /-- Several subscribers failed during one notification. -/
  | cascade (failures : List ReactiveError)
deriving Repr, Inhabited

/-- The wording of a reactive error. -/
def ReactiveError.message : ReactiveError → String
  | unknownProperty key => "unknown reactive property: " ++ key
  | callback message => "subscriber callback failed: " ++ message
  | cascade failures => toString failures.length ++ " subscriber(s) failed during notification"

end LiveTemplate
