import LiveTemplate.Text.Quoted

/-!
# Why options are refused

A text is malformed, or it is well formed and its content does not fit.  A mismatch names its
cause; `Mismatch.message` words it.
-/

namespace LiveTemplate

/-- What stands in a place where something else is expected. -/
inductive Found
  | null
  | bool (value : Bool)
  | integer (value : Int)
  /-- A float, in the notation of the text it comes from. -/
  | float (text : String)
  | string (value : String)
  | sequence
  | map
deriving DecidableEq, Repr

/-- The wording of what was found. -/
def Found.describe : Found → String
  | null => "null"
  | bool value => "boolean `" ++ toString value ++ "`"
  | integer value => "integer `" ++ toString value ++ "`"
  | float text => "floating point `" ++ text ++ "`"
  | string value => "string " ++ Text.quoted value
  | sequence => "sequence"
  | map => "map"

/-- Why well-formed content does not fit. -/
inductive Mismatch
  | invalidType (found : Found) (expected : String)
  | invalidLength (length : Nat) (expected : String)
  | missingField (name : String)
  | duplicateField (name : String)
  | unknownVariant (name : String) (known : List String)
  /-- A variant is named by neither a string nor a table. -/
  | variantShape
  /-- A table that names a variant is empty. -/
  | variantTableEmpty
  /-- A table that names a variant has several entries. -/
  | variantTableTooLarge
  /-- A variant without content was given a value that is no table. -/
  | variantContent (typeName : String)
  /-- A variant without content was given an array of tables that is not empty. -/
  | variantContentTables
  /-- A variant without content was given a table or a plain array that is not empty. -/
  | variantContentEntries
deriving DecidableEq, Repr

/-- Words in backquotes, joined for reading. -/
def describeKnown (known : List String) : String :=
  " or ".intercalate (known.map fun name => "`" ++ name ++ "`")

/-- The wording of a mismatch. -/
def Mismatch.message : Mismatch → String
  | invalidType found expected => "invalid type: " ++ found.describe ++ ", expected " ++ expected
  | invalidLength length expected =>
    "invalid length " ++ toString length ++ ", expected " ++ expected
  | missingField name => "missing field `" ++ name ++ "`"
  | duplicateField name => "duplicate field `" ++ name ++ "`"
  | unknownVariant name known =>
    "unknown variant `" ++ name ++ "`, expected " ++ describeKnown known
  | variantShape => "wanted string or table"
  | variantTableEmpty => "wanted exactly 1 element, found 0 elements"
  | variantTableTooLarge => "wanted exactly 1 element, more than 1 element"
  | variantContent typeName => "expected table, found " ++ typeName
  | variantContentTables => "expected empty array"
  | variantContentEntries => "expected empty table"

/-- Why a text gives no options. -/
inductive LoadError
  /-- The text is not of its format. -/
  | malformed
  /-- The text is of its format and its content does not fit. -/
  | mismatch (cause : Mismatch)
deriving DecidableEq, Repr

end LiveTemplate
