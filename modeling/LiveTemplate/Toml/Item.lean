import LiveTemplate.Json.Basic

/-!
# TOML documents

The content of a TOML document while it is read.  A table knows whether it was only implied by a
longer path, and whether dotted keys made it: both decide if it may be extended.
-/

namespace LiveTemplate.Toml

/-- A part of a TOML document. -/
inductive Item
  | string (value : String)
  | integer (value : Int)
  | float (value : Binary64)
  | boolean (value : Bool)
  /-- A date, a time or both, in normal form. -/
  | datetime (text : String)
  | array (items : List Item)
  | inlineTable (dotted : Bool) (entries : List (String × Item))
  | table (implied dotted : Bool) (entries : List (String × Item))
  | tables (elements : List Item)
deriving Repr, Inhabited

namespace Item

/-- The word for the type of an item. -/
def typeName : Item → String
  | string _ => "string"
  | integer _ => "integer"
  | float _ => "float"
  | boolean _ => "boolean"
  | datetime _ => "datetime"
  | array _ => "array"
  | inlineTable _ _ => "inline table"
  | table _ _ _ => "table"
  | tables _ => "array of tables"

/-- The key under which a date stands in a data value. -/
def datetimeKey : String := "$__toml_private_datetime"

/-- An item as a data value: a date is an object with one member, a float that is not finite is
null. -/
def toJson : Item → Json
  | string s => .string s
  | integer n => ((Number.ofInt? n).map Json.number).getD .null
  | float x => ((Number.ofFloat? x).map Json.number).getD .null
  | boolean b => .bool b
  | datetime text => .object [(datetimeKey, .string text)]
  | array items => .array (itemsToJson items)
  | inlineTable _ entries => .object (entriesToJson entries)
  | table _ _ entries => .object (entriesToJson entries)
  | tables elements => .array (itemsToJson elements)
where
  /-- Each item as a data value. -/
  itemsToJson : List Item → List Json
    | [] => []
    | item :: rest => item.toJson :: itemsToJson rest
  /-- Each entry as a member. -/
  entriesToJson : List (String × Item) → List (String × Json)
    | [] => []
    | (key, item) :: rest => (key, item.toJson) :: entriesToJson rest

/-- An empty table of a document. -/
def emptyTable : Item := table false false []

/-- Replace the last element of a list by what `f` makes of it. -/
def updateLast? (f : Item → Option Item) : List Item → Option (List Item)
  | [] => none
  | [last] => (f last).map ([·])
  | item :: rest => (updateLast? f rest).map (item :: ·)

/-- Follow a path of keys from a table and change the table at its end.  Missing tables on the way
are created as implied ones.  A path enters the last element of an array of tables; a dotted path
(`dotted`) enters no table that has a header of its own. -/
def updateAt? (dotted : Bool) (f : Item → Option Item) : List String → Item → Option Item
  | [], item => f item
  | key :: path, table implied isDotted entries =>
    let descend := updateAt? dotted f path
    let child? :=
      match Table.find? entries key with
      | none => descend (table true dotted [])
      | some (table childImplied childDotted childEntries) =>
        if dotted && !childImplied then none
        else descend (table childImplied childDotted childEntries)
      | some (tables elements) => (updateLast? descend elements).map tables
      | some _ => none
    child?.map fun child => table implied isDotted (Table.insert entries key child)
  | _ :: _, _ => none

/-- Put a value under a dotted key of a table.  A key of one part goes into the table itself, a
longer one into tables that dotted keys made; a present key is refused. -/
def define? (path : List String) (key : String) (value : Item) : Item → Option Item :=
  updateAt? true (fun item =>
    match item with
    | table implied dotted entries =>
      if dotted == path.isEmpty || Table.hasKey entries key then none
      else some (table implied dotted (Table.insert entries key value))
    | _ => none) path

/-- Put a value under a dotted key of an inline table. -/
def defineInline? : List String → String → Item → Item → Option Item
  | [], key, value, inlineTable dotted entries =>
    if Table.hasKey entries key then none
    else some (inlineTable dotted (Table.insert entries key value))
  | part :: path, key, value, inlineTable dotted entries =>
    let child? :=
      match Table.find? entries part with
      | none => defineInline? path key value (inlineTable true [])
      | some (inlineTable true childEntries) =>
        defineInline? path key value (inlineTable true childEntries)
      | some _ => none
    child?.map fun child => inlineTable dotted (Table.insert entries part child)
  | _, _, _, _ => none

end Item

end LiveTemplate.Toml
