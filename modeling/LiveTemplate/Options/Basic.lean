import LiveTemplate.Json.Basic
import LiveTemplate.Reactive.Policy

/-!
# Construction options

Options are plain data: the initial data, the selector of the subtree to compile, the attribute
name prefix of directives and the notify policy.  Only the data has no default.
-/

namespace LiveTemplate

/-- What an instance is constructed from. -/
structure Options where
  /-- Initial data; has to be an object. -/
  data : Json
  /-- Selector of the subtree to compile. -/
  el : Option String := none
  /-- What the name of a directive attribute starts with. -/
  directivePrefix : String := "v-"
  /-- The policy of every dependency of the data. -/
  notifyPolicy : NotifyPolicy := .failFast
deriving Inhabited

namespace Options

/-- Options with the given data and the defaults. -/
def ofData (data : Json) : Options := { data }

/-- Compile the subtree of this selector. -/
def withEl (options : Options) (selector : String) : Options := { options with el := some selector }

/-- Use this prefix for directive attributes. -/
def withDirectivePrefix (options : Options) (text : String) : Options :=
  { options with directivePrefix := text }

/-- Use this notify policy. -/
def withNotifyPolicy (options : Options) (policy : NotifyPolicy) : Options :=
  { options with notifyPolicy := policy }

/-- The configuration the data is observed under. -/
def reactiveConfig (options : Options) : ReactiveConfig := ⟨options.notifyPolicy⟩

/-- Options as a data value, every field written out. -/
def toJson (options : Options) : Json :=
  .object [
    ("data", options.data),
    ("el", match options.el with
      | some selector => .string selector
      | none => .null),
    ("directive_prefix", .string options.directivePrefix),
    ("notify_policy", .string options.notifyPolicy.label)]

end Options

/-- A configuration as a data value. -/
def ReactiveConfig.toJson (config : ReactiveConfig) : Json :=
  .object [("notify-policy", .string config.notifyPolicy.label)]

end LiveTemplate
