import LiveTemplate.Binary64.Layout
import LiveTemplate.Table

/-!
# JSON values

Numbers keep their kind: an integer lies between `-2 ^ 63` and `2 ^ 64`, a float is a finite
double.  Objects keep the order of their members.
-/

namespace LiveTemplate

/-- A number of a data text, an integer or a finite double. -/
inductive Number
  | integer (value : Int)
    (inRange : -9223372036854775808 ≤ value ∧ value < 18446744073709551616)
  | float (value : Binary64) (isFinite : value.isFinite = true)
deriving DecidableEq, Repr

namespace Number

/-- The integer as a number, if it is in range. -/
def ofInt? (n : Int) : Option Number :=
  if h : -9223372036854775808 ≤ n ∧ n < 18446744073709551616 then some (.integer n h) else none

/-- The double as a number, if it is finite. -/
def ofFloat? (x : Binary64) : Option Number :=
  if h : x.isFinite = true then some (.float x h) else none

/-- The number zero. -/
def zero : Number := .integer 0 (by decide)

instance : Inhabited Number := ⟨zero⟩

/-- The value as a signed integer of 64 bits. -/
def asSigned? : Number → Option Int
  | .integer n _ => if n < 9223372036854775808 then some n else none
  | .float _ _ => none

/-- The value as an unsigned integer of 64 bits. -/
def asUnsigned? : Number → Option Int
  | .integer n _ => if 0 ≤ n then some n else none
  | .float _ _ => none

/-- The value as a double; an integer is rounded to the nearest. -/
def toFloat : Number → Binary64
  | .integer n _ => Binary64.ofInt n
  | .float x _ => x

/-- Equality of values: exact between integers that share a signed or an unsigned form, else as
doubles. -/
def sameNumber (a b : Number) : Bool :=
  match a.asSigned?, b.asSigned? with
  | some x, some y => x == y
  | _, _ =>
    match a.asUnsigned?, b.asUnsigned? with
    | some x, some y => x == y
    | _, _ => a.toFloat.sameNumber b.toFloat

/-- The number as a document shows it. -/
def displayText : Number → String
  | .integer n _ => toString n
  | .float x _ => x.displayText

/-- The number as data text. -/
def dataText : Number → String
  | .integer n _ => toString n
  | .float x _ => x.dataText

end Number

/-- A data value. -/
inductive Json
  | null
  | bool (value : Bool)
  | number (value : Number)
  | string (value : String)
  | array (items : List Json)
  | object (members : List (String × Json))
deriving Repr, Inhabited

namespace Json

/-- Whether the value is an object. -/
def isObject : Json → Bool
  | object _ => true
  | _ => false

/-- The word for the kind of a value. -/
def kind : Json → String
  | null => "null"
  | bool _ => "boolean"
  | number _ => "number"
  | string _ => "string"
  | array _ => "array"
  | object _ => "object"

/-- The member of an object under a key. -/
def member? : Json → String → Option Json
  | object members, key => Table.find? members key
  | _, _ => none

/-- How many containers lie around the deepest value, the value itself included if it is one. -/
def depth : Json → Nat
  | array items => depthOfItems items + 1
  | object members => depthOfMembers members + 1
  | _ => 0
where
  /-- The greatest depth among items. -/
  depthOfItems : List Json → Nat
    | [] => 0
    | item :: rest => max item.depth (depthOfItems rest)
  /-- The greatest depth among the values of members. -/
  depthOfMembers : List (String × Json) → Nat
    | [] => 0
    | (_, value) :: rest => max value.depth (depthOfMembers rest)

end Json

end LiveTemplate
