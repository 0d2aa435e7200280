import LiveTemplate.Reactive.Value

/-!
# The journal

Operations report what they do as events, in order, and callbacks may write lines of their own
between them.
-/

namespace LiveTemplate

/-- How much an event matters. -/
inductive Level
  | trace
  | debug
  | info
  | warn
deriving DecidableEq, Repr

/-- The word for a level. -/
def Level.label : Level → String
  | trace => "TRACE"
  | debug => "DEBUG"
  | info => "INFO"
  | warn => "WARN"

/-- What was done. -/
inductive Event
  /-- A field was defined. -/
  | defined (key : String)
  /-- A field was read with tracking. -/
  | gotten (key : String)
  /-- A field got another value. -/
  | stored (key value : String)
  /-- A subscriber was registered. -/
  | subscribed (key : String)
  /-- A notification started. -/
  | notified (subscribers : Nat)
  /-- A subscriber failed and the notification goes on. -/
  | notifyFailed (key error : String)
  /-- A subscriber is constructed while another one is. -/
  | nested
  /-- A subscriber was constructed. -/
  | created (key : String)
  /-- A subtree was compiled. -/
  | compiled (bindings : Nat)
  /-- An element is compiled. -/
  | element (tag : String)
  /-- An attribute names no directive. -/
  | unknownDirective (name : String)
  /-- A text is compiled. -/
  | text (expression : String)
  /-- A node is bound. -/
  | bound (expression mode : String) (painted : Bool)
  /-- A key is used that was not there when the instance was made. -/
  | forwardMiss (key : String)
  /-- An instance compiles nothing. -/
  | mountSkipped (el : String)
  /-- An instance was made. -/
  | mounted (keys bindings : Nat)
deriving DecidableEq, Repr

namespace Event

/-- How much an event matters. -/
def level : Event → Level
  | stored _ _ | compiled _ | element _ | text _ | mountSkipped _ => .debug
  | notifyFailed _ _ | nested => .warn
  | mounted _ _ => .info
  | _ => .trace

/-- The name of an event. -/
def message : Event → String
  | defined _ => "reactive.define"
  | gotten _ => "reactive.get"
  | stored _ _ => "reactive.set"
  | subscribed _ => "reactive.subscribe"
  | notified _ => "reactive.notify"
  | notifyFailed _ _ => "reactive.notify.failed"
  | nested => "reactive.collector.nested"
  | created _ => "reactive.subscriber.created"
  | compiled _ => "compile.done"
  | element _ => "compile.element"
  | unknownDirective _ => "compile.directive.unknown"
  | text _ => "compile.text"
  | bound _ _ _ => "compile.bind"
  | forwardMiss _ => "kvue.forward.miss"
  | mountSkipped _ => "kvue.mount.skipped"
  | mounted _ _ => "kvue.mounted"

/-- The details of an event, each under a name. -/
def details : Event → List (String × String)
  | defined key => [("key", key)]
  | gotten key => [("key", key)]
  | stored key value => [("key", key), ("value", value)]
  | subscribed key => [("key", key)]
  | notified subscribers => [("subscribers", toString subscribers)]
  | notifyFailed key error => [("key", key), ("error", error)]
  | nested => []
  | created key => [("key", key)]
  | compiled bindings => [("bindings", toString bindings)]
  | element tag => [("tag", tag)]
  | unknownDirective name => [("directive", name)]
  | text expression => [("expression", expression)]
  | bound expression mode painted =>
    [("expression", expression), ("mode", mode), ("updater", toString painted)]
  | forwardMiss key => [("key", key)]
  | mountSkipped el => [("el", el)]
  | mounted keys bindings => [("keys", toString keys), ("bindings", toString bindings)]

end Event

/-- An entry of the journal. -/
inductive Entry
  | event (event : Event)
  | line (text : String)
deriving DecidableEq, Repr

end LiveTemplate
