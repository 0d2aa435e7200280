import LiveTemplate.Json.Reader
import LiveTemplate.Options.Basic
import LiveTemplate.Options.Mismatch

/-!
# Options in JSON text

A record is an object whose members come in any order, unknown ones ignored, or an array of its
fields in order.  Content is checked as the text is read, so a mismatch is reported even where the
text is malformed further on.
-/

namespace LiveTemplate

open Json (Token)

/-- A reader of a value at the front of some tokens. -/
abbrev TokenReader (α : Type) := List Token → Except LoadError (α × List Token)

/-- How a record is read: which members are known, and how their values are taken in. -/
structure RecordReader (σ : Type) where
  /-- The record in error texts. -/
  expectation : String
  /-- The fields, in the order of the array form. -/
  fields : List String
  /-- Whether a known field was read before. -/
  holds : σ → String → Bool
  /-- Read the value of a known field. -/
  readField : String → σ → TokenReader σ

/-- The policy with the given word; any other word is a mismatch. -/
def NotifyPolicy.ofWord (word : String) : Except Mismatch NotifyPolicy :=
  match NotifyPolicy.ofLabel? word with
  | some policy => .ok policy
  | none =>
    .error (.unknownVariant word [NotifyPolicy.failFast.label, NotifyPolicy.isolate.label])

namespace TokenReader

/-- The mismatch of a value that stands where something else is expected. -/
def refuse {α : Type} (expected : String) (tokens : List Token) : Except LoadError α :=
  let mismatch (found : Found) := Except.error (.mismatch (.invalidType found expected))
  match tokens with
  | .null :: _ => mismatch .null
  | .bool b :: _ => mismatch (.bool b)
  | .number numeral :: _ =>
    match numeral.toNumber? with
    | some (.integer n _) => mismatch (.integer n)
    | some (.float x _) => mismatch (.float x.dataText)
    | none => .error .malformed
  | .string (some s) :: _ => mismatch (.string s)
  | .openBracket :: _ => mismatch .sequence
  | .openBrace :: _ => mismatch .map
  | _ => .error .malformed

/-- Any value, with at most `depth` containers around its parts. -/
def value (depth : Nat) : TokenReader Json := fun tokens =>
  match Json.value? (Json.fuelFor tokens) depth tokens with
  | some result => .ok result
  | none => .error .malformed

/-- A value of no interest. -/
def ignored : TokenReader Unit := fun tokens =>
  match Json.skipValue? (Json.fuelFor tokens) tokens with
  | some rest => .ok ((), rest)
  | none => .error .malformed

/-- A string. -/
def text : TokenReader String := fun tokens =>
  match tokens with
  | .string (some s) :: rest => .ok (s, rest)
  | _ => refuse "a string" tokens

/-- A string or null. -/
def optionalText : TokenReader (Option String) := fun tokens =>
  match tokens with
  | .null :: rest => .ok (none, rest)
  | _ => do
    let (s, rest) ← text tokens
    .ok (some s, rest)

/-- The policy with the given word. -/
def policyOfWord (word : String) : Except LoadError NotifyPolicy :=
  (NotifyPolicy.ofWord word).mapError .mismatch

/-- A notify policy: its word, or an object with the word as only key and null as its value. -/
def policy : TokenReader NotifyPolicy := fun tokens =>
  match tokens with
  | .string (some word) :: rest => do
    let policy ← policyOfWord word
    .ok (policy, rest)
  | .openBrace :: .string (some word) :: rest => do
    let policy ← policyOfWord word
    match rest with
    | .colon :: .null :: .closeBrace :: rest => .ok (policy, rest)
    | .colon :: .null :: _ => .error .malformed
    | .colon :: rest => refuse "unit" rest
    | _ => .error .malformed
  | .openBrace :: rest => refuse "variant identifier" rest
  | _ => .error .malformed

end TokenReader

namespace RecordReader

variable {σ : Type}

/-- The members of an object up to its closing brace, at least one; `fuel` bounds their number. -/
def members (reader : RecordReader σ) : Nat → σ → TokenReader σ
  | 0, _, _ => .error .malformed
  | fuel + 1, state, tokens =>
    match tokens with
    | .string (some key) :: rest => do
      let known := reader.fields.contains key
      if known && reader.holds state key then
        throw (.mismatch (.duplicateField key))
      let rest ← match rest with
        | .colon :: rest => pure rest
        | _ => throw .malformed
      let (state, rest) ←
        if known then reader.readField key state rest
        else do
          let (_, rest) ← TokenReader.ignored rest
          pure (state, rest)
      match rest with
      | .comma :: rest => members reader fuel state rest
      | .closeBrace :: rest => .ok (state, rest)
      | _ => throw .malformed
    | _ => .error .malformed

/-- The fields of the array form; `first` tells that no element was read yet.  The closing bracket
is left. -/
def elements (reader : RecordReader σ) : List String → Bool → σ → TokenReader σ
  | [], _, state, tokens => .ok (state, tokens)
  | field :: fields, first, state, tokens =>
    match tokens, first with
    | .closeBracket :: rest, _ => .ok (state, .closeBracket :: rest)
    | .comma :: .closeBracket :: _, false => .error .malformed
    | .comma :: rest, false => do
      let (state, rest) ← reader.readField field state rest
      elements reader fields false state rest
    | tokens, true => do
      let (state, rest) ← reader.readField field state tokens
      elements reader fields false state rest
    | _, false => .error .malformed

/-- A whole text that spells a record.  `finish` completes what was read, with the length of the
array form or without one. -/
def readText {α : Type} (reader : RecordReader σ) (start : σ)
    (finish : Bool → σ → Except Mismatch α) (text : String) : Except LoadError α :=
  let tokens := Json.tokens text
  let complete (isArray : Bool) (state : σ) : Except LoadError α :=
    (finish isArray state).mapError .mismatch
  match tokens with
  | .openBrace :: rest => do
    let (state, rest) ← match rest with
      | .closeBrace :: rest => pure (start, rest)
      | rest => reader.members rest.length start rest
    let result ← complete false state
    if rest.isEmpty then .ok result else .error .malformed
  | .openBracket :: rest => do
    let (state, rest) ← reader.elements reader.fields true start rest
    let result ← complete true state
    if rest = [.closeBracket] then .ok result else .error .malformed
  | tokens => TokenReader.refuse reader.expectation tokens

end RecordReader

namespace Options

/-- How many containers may nest in an options text, the record included. -/
def nestingLimit : Nat := 127

/-- The options read so far. -/
structure Draft where
  data : Option Json := none
  el : Option (Option String) := none
  directivePrefix : Option String := none
  notifyPolicy : Option NotifyPolicy := none

namespace Draft

/-- Whether a field was read. -/
def holds (draft : Draft) (field : String) : Bool :=
  if field = "data" then draft.data.isSome
  else if field = "el" then draft.el.isSome
  else if field = "directive_prefix" then draft.directivePrefix.isSome
  else draft.notifyPolicy.isSome

/-- The options of a draft that has its data. -/
def complete? (draft : Draft) : Option Options :=
  draft.data.map fun data =>
    let defaults := Options.ofData data
    { defaults with
      el := draft.el.getD defaults.el
      directivePrefix := draft.directivePrefix.getD defaults.directivePrefix
      notifyPolicy := draft.notifyPolicy.getD defaults.notifyPolicy }

end Draft

/-- The names of the fields, in order. -/
def fieldNames : List String := ["data", "el", "directive_prefix", "notify_policy"]

/-- How options are read from JSON. -/
def recordReader : RecordReader Draft where
  expectation := "struct Options"
  fields := fieldNames
  holds := Draft.holds
  readField := fun field draft tokens =>
    if field = "data" then do
      let (data, rest) ← TokenReader.value (nestingLimit - 1) tokens
      .ok ({ draft with data := some data }, rest)
    else if field = "el" then do
      let (el, rest) ← TokenReader.optionalText tokens
      .ok ({ draft with el := some el }, rest)
    else if field = "directive_prefix" then do
      let (text, rest) ← TokenReader.text tokens
      .ok ({ draft with directivePrefix := some text }, rest)
    else do
      let (policy, rest) ← TokenReader.policy tokens
      .ok ({ draft with notifyPolicy := some policy }, rest)

/-- The options a JSON text spells. -/
def ofJsonText (text : String) : Except LoadError Options :=
  recordReader.readText {} (fun isArray draft =>
    match draft.complete? with
    | some options => .ok options
    | none =>
      .error (if isArray then .invalidLength 0 "struct Options with 4 elements"
        else .missingField "data")) text

end Options

namespace ReactiveConfig

/-- How a configuration is read from JSON. -/
def recordReader : RecordReader (Option NotifyPolicy) where
  expectation := "struct ReactiveConfig"
  fields := ["notify-policy"]
  holds := fun policy _ => policy.isSome
  readField := fun _ _ tokens => do
    let (policy, rest) ← TokenReader.policy tokens
    .ok (some policy, rest)

/-- The configuration a JSON text spells; the policy has its default. -/
def ofJsonText (text : String) : Except LoadError ReactiveConfig :=
  recordReader.readText none (fun _ policy => .ok ⟨policy.getD .failFast⟩) text

end ReactiveConfig

end LiveTemplate
