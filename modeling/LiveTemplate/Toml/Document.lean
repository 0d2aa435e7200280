import LiveTemplate.Text.ByteOrderMark
import LiveTemplate.Toml.Scalar

/-!
# Reading TOML documents

A document is a list of statements: a key with its value, a table header, or the header of an
element of an array of tables.  A header closes the table before it and opens one; a table that is
opened after tables inside it were takes these over and moves behind the keys that follow them.
-/

namespace LiveTemplate.Toml

mutual

/-- A value; `depth` is the number of containers that may still nest around a scalar. -/
def value? : Nat → Nat → List Char → Option (Item × List Char)
  | 0, _, _ => none
  | fuel + 1, depth, cs =>
    match cs, depth with
    | '[' :: rest, depth + 1 =>
      (arrayItems? fuel depth rest).map fun (items, rest) => (.array items, rest)
    | '\x7b' :: rest, depth + 1 =>
      match dropBlanks rest with
      | '\x7d' :: rest => some (.inlineTable false [], rest)
      | rest => inlineEntries? fuel depth (.inlineTable false []) rest
    | cs, _ => scalar? cs

/-- The items of an array up to its closing bracket. -/
def arrayItems? : Nat → Nat → List Char → Option (List Item × List Char)
  | 0, _, _ => none
  | fuel + 1, depth, cs =>
    match dropLines cs.length cs with
    | ']' :: rest => some ([], rest)
    | cs =>
      match value? fuel depth cs with
      | none => none
      | some (item, rest) =>
        match dropLines rest.length rest with
        | ',' :: rest =>
          (arrayItems? fuel depth rest).map fun (items, rest) => (item :: items, rest)
        | ']' :: rest => some ([item], rest)
        | _ => none

/-- The entries of an inline table up to its closing brace, at least one. -/
def inlineEntries? : Nat → Nat → Item → List Char → Option (Item × List Char)
  | 0, _, _, _ => none
  | fuel + 1, depth, table, cs =>
    match key? cs with
    | some (parts, '=' :: rest) =>
      match value? fuel depth (dropBlanks rest) with
      | none => none
      | some (value, rest) =>
        match Item.defineInline? parts.dropLast (parts.getLastD "") value table with
        | none => none
        | some table =>
          match dropBlanks rest with
          | ',' :: rest => inlineEntries? fuel depth table rest
          | '\x7d' :: rest => some (table, rest)
          | _ => none
    | _ => none

end

/-- A document while its statements are read: the tables closed so far, and the open one with its
path. -/
structure Draft where
  root : Item
  current : Item
  path : List String
  inArray : Bool

namespace Draft

/-- Before the first statement: the root is the open table. -/
def empty : Draft := ⟨Item.emptyTable, Item.emptyTable, [], false⟩

/-- Put the open table into the document. -/
def close? (draft : Draft) : Option Item :=
  match draft.path.getLast? with
  | none => some draft.current
  | some key =>
    draft.root.updateAt? false (fun parent =>
      match parent with
      | .table implied dotted entries =>
        match Table.find? entries key, draft.inArray with
        | none, false => some (.table implied dotted (Table.insert entries key draft.current))
        | some (.tables elements), true =>
          some (.table implied dotted
            (Table.insert entries key (.tables (elements ++ [draft.current]))))
        | _, _ => none
      | _ => none) draft.path.dropLast

/-- Open the table of a header.  A table that was only implied so far is taken out of the document
and goes on. -/
def openTable? (root : Item) (path : List String) : Option Draft :=
  let key := path.getLastD ""
  let taken := root.updateAt? false (fun parent =>
    match parent with
    | .table implied dotted entries =>
      match Table.find? entries key with
      | none => some (.table implied dotted entries)
      | some (.table true false _) => some (.table implied dotted (Table.erase entries key))
      | some _ => none
    | _ => none) path.dropLast
  taken.map fun rest =>
    ⟨rest, .table false false ((earlierEntries root path).getD []), path, false⟩
where
  /-- The entries of an implied table at a path. -/
  earlierEntries : Item → List String → Option (List (String × Item))
    | .table _ _ entries, [] => some entries
    | .table _ _ entries, key :: path =>
      match Table.find? entries key with
      | some (.tables elements) => elements.getLast?.bind fun last => earlierEntries last path
      | some child => earlierEntries child path
      | none => none
    | _, _ => none

/-- Open a new element of an array of tables. -/
def openElement? (root : Item) (path : List String) : Option Draft :=
  let key := path.getLastD ""
  let ready := root.updateAt? false (fun parent =>
    match parent with
    | .table implied dotted entries =>
      match Table.find? entries key with
      | none => some (.table implied dotted (Table.insert entries key (.tables [])))
      | some (.tables elements) =>
        some (.table implied dotted (Table.insert entries key (.tables elements)))
      | some _ => none
    | _ => none) path.dropLast
  ready.map fun root => ⟨root, Item.emptyTable, path, true⟩

/-- Put a value under a dotted key of the open table. -/
def define? (draft : Draft) (parts : List String) (value : Item) : Option Draft :=
  (Item.define? parts.dropLast (parts.getLastD "") value draft.current).map fun table =>
    { draft with current := table }

end Draft

/-- The path of a header behind its brackets, up to the closing ones and the end of the line. -/
def header? (closing : List Char) (cs : List Char) : Option (List String × List Char) := do
  let (path, rest) ← key? cs
  if closing.isPrefixOf rest then
    let rest ← lineEnd? (rest.drop closing.length)
    some (path, rest)
  else none

/-- One statement, and what follows it. -/
def statement? (draft : Draft) (cs : List Char) : Option (Draft × List Char) :=
  match cs with
  | '[' :: '[' :: rest => do
    let (path, rest) ← header? [']', ']'] rest
    let root ← draft.close?
    let draft ← Draft.openElement? root path
    some (draft, rest)
  | '[' :: rest => do
    let (path, rest) ← header? [']'] rest
    let root ← draft.close?
    let draft ← Draft.openTable? root path
    some (draft, rest)
  | _ => do
    let (parts, rest) ← key? cs
    let rest ← after? '=' rest
    let (value, rest) ← value? (2 * rest.length + 2) (nestingLimit - 1) (dropBlanks rest)
    let rest ← lineEnd? rest
    let draft ← draft.define? parts value
    some (draft, rest)

/-- The statements of a document; `fuel` bounds their number. -/
def statements? : Nat → Draft → List Char → Option Item
  | 0, _, _ => none
  | fuel + 1, draft, cs =>
    match dropBlanks cs with
    | [] => draft.close?
    | '#' :: rest =>
      match lineEnd? ('#' :: rest) with
      | some rest => statements? fuel draft rest
      | none => none
    | cs =>
      match lineBreak? cs with
      | some rest => statements? fuel draft rest
      | none =>
        match statement? draft cs with
        | some (draft, rest) => statements? fuel draft rest
        | none => none

/-- The root table of a document. -/
def parse? (text : String) : Option Item :=
  let cs := Text.dropByteOrderMark text.toList
  statements? (cs.length + 1) Draft.empty cs

end LiveTemplate.Toml
