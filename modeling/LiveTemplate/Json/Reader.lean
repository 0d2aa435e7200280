import LiveTemplate.Json.Token

/-!
# Reading JSON

Values are read from tokens by descent.  A reader returns the value and the tokens behind it, or
nothing where the text is no JSON, a number is out of range or containers nest too deeply.  A
value that is only skipped is checked for its shape alone.
-/

namespace LiveTemplate.Json

mutual

/-- The value at the front of some tokens, with `depth` more containers allowed around a value;
`fuel` bounds the steps. -/
def value? : Nat → Nat → List Token → Option (Json × List Token)
  | 0, _, _ => none
  | fuel + 1, depth, tokens =>
    match tokens, depth with
    | .null :: rest, _ => some (.null, rest)
    | .bool b :: rest, _ => some (.bool b, rest)
    | .number numeral :: rest, _ => numeral.toNumber?.map fun n => (.number n, rest)
    | .string (some s) :: rest, _ => some (.string s, rest)
    | .openBracket :: .closeBracket :: rest, _ + 1 => some (.array [], rest)
    | .openBracket :: rest, depth + 1 =>
      (items? fuel depth rest).map fun (items, rest) => (.array items, rest)
    | .openBrace :: .closeBrace :: rest, _ + 1 => some (.object [], rest)
    | .openBrace :: rest, depth + 1 =>
      (members? fuel depth rest).map fun (members, rest) =>
        (.object (Table.ofEntries members), rest)
    | _, _ => none

/-- The items of an array up to its closing bracket, at least one. -/
def items? : Nat → Nat → List Token → Option (List Json × List Token)
  | 0, _, _ => none
  | fuel + 1, depth, tokens =>
    match value? fuel depth tokens with
    | some (item, .closeBracket :: rest) => some ([item], rest)
    | some (item, .comma :: rest) =>
      (items? fuel depth rest).map fun (items, rest) => (item :: items, rest)
    | _ => none

/-- The members of an object up to its closing brace, at least one. -/
def members? : Nat → Nat → List Token → Option (List (String × Json) × List Token)
  | 0, _, _ => none
  | fuel + 1, depth, tokens =>
    match tokens with
    | .string (some key) :: .colon :: rest =>
      match value? fuel depth rest with
      | some (value, .closeBrace :: rest) => some ([(key, value)], rest)
      | some (value, .comma :: rest) =>
        (members? fuel depth rest).map fun (members, rest) => ((key, value) :: members, rest)
      | _ => none
    | _ => none

end

mutual

/-- What follows the value at the front of some tokens. -/
def skipValue? : Nat → List Token → Option (List Token)
  | 0, _ => none
  | fuel + 1, tokens =>
    match tokens with
    | .null :: rest => some rest
    | .bool _ :: rest => some rest
    | .number _ :: rest => some rest
    | .string _ :: rest => some rest
    | .openBracket :: .closeBracket :: rest => some rest
    | .openBracket :: rest => skipItems? fuel rest
    | .openBrace :: .closeBrace :: rest => some rest
    | .openBrace :: rest => skipMembers? fuel rest
    | _ => none

/-- What follows the items of an array. -/
def skipItems? : Nat → List Token → Option (List Token)
  | 0, _ => none
  | fuel + 1, tokens =>
    match skipValue? fuel tokens with
    | some (.closeBracket :: rest) => some rest
    | some (.comma :: rest) => skipItems? fuel rest
    | _ => none

/-- What follows the members of an object. -/
def skipMembers? : Nat → List Token → Option (List Token)
  | 0, _ => none
  | fuel + 1, tokens =>
    match tokens with
    | .string _ :: .colon :: rest =>
      match skipValue? fuel rest with
      | some (.closeBrace :: rest) => some rest
      | some (.comma :: rest) => skipMembers? fuel rest
      | _ => none
    | _ => none

end

/-- Steps enough for any reader on these tokens: at most two for each token. -/
def fuelFor (tokens : List Token) : Nat := 2 * tokens.length + 2

/-- The value a text spells, with at most `depth` containers around any value. -/
def parse? (depth : Nat) (text : String) : Option Json :=
  let tokens := tokens text
  match value? (fuelFor tokens) depth tokens with
  | some (value, []) => some value
  | _ => none

end LiveTemplate.Json
