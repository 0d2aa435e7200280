import LiveTemplate.Options.FromJson
import LiveTemplate.Toml.Document

/-!
# Options in TOML text

The whole text is read first; then the fields are taken from the root table in their order.
-/

namespace LiveTemplate.Options

open Toml (Item)

/-- What an item is called where something else is expected. -/
def foundItem : Item → Found
  | .string s => .string s
  | .integer n => .integer n
  | .float x => .float x.plainText
  | .boolean b => .bool b
  | .datetime _ => .map
  | .array _ => .sequence
  | .inlineTable _ _ => .map
  | .table _ _ _ => .map
  | .tables _ => .sequence

/-- A string. -/
def textOfItem : Item → Except Mismatch String
  | .string s => .ok s
  | item => .error (.invalidType (foundItem item) "a string")

/-- The content beside the word of a policy has to be an empty container. -/
def checkVariantContent : Item → Except Mismatch Unit
  | .array items => if items.isEmpty then .ok () else .error .variantContentEntries
  | .tables elements => if elements.isEmpty then .ok () else .error .variantContentTables
  | .inlineTable _ entries => if entries.isEmpty then .ok () else .error .variantContentEntries
  | .table _ _ entries => if entries.isEmpty then .ok () else .error .variantContentEntries
  | item => .error (.variantContent item.typeName)

/-- The policy that the entries of a table name. -/
def policyOfEntries : List (String × Item) → Except Mismatch NotifyPolicy
  | [] => .error .variantTableEmpty
  | [(word, content)] => do
    let policy ← NotifyPolicy.ofWord word
    checkVariantContent content
    .ok policy
  | _ => .error .variantTableTooLarge

/-- A notify policy: its word, or a table with the word as only key. -/
def policyOfItem : Item → Except Mismatch NotifyPolicy
  | .string word => NotifyPolicy.ofWord word
  | .inlineTable _ entries => policyOfEntries entries
  | .table _ _ entries => policyOfEntries entries
  | _ => .error .variantShape

/-- Take one entry of the root table into a draft; an unknown one changes nothing. -/
def takeEntry (draft : Draft) (entry : String × Item) : Except Mismatch Draft :=
  let (key, item) := entry
  if key = "data" then .ok { draft with data := some item.toJson }
  else if key = "el" then do
    let text ← textOfItem item
    .ok { draft with el := some (some text) }
  else if key = "directive_prefix" then do
    let text ← textOfItem item
    .ok { draft with directivePrefix := some text }
  else if key = "notify_policy" then do
    let policy ← policyOfItem item
    .ok { draft with notifyPolicy := some policy }
  else .ok draft

/-- The options that the entries of a root table spell. -/
def ofEntries (entries : List (String × Item)) : Except Mismatch Options := do
  let draft ← entries.foldlM takeEntry {}
  match draft.complete? with
  | some options => .ok options
  | none => .error (.missingField "data")

/-- The options a TOML text spells. -/
def ofTomlText (text : String) : Except LoadError Options :=
  match Toml.parse? text with
  | some (.table _ _ entries) => (ofEntries entries).mapError .mismatch
  | _ => .error .malformed

end LiveTemplate.Options
