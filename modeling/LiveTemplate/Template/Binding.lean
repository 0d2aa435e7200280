import LiveTemplate.Reactive.Engine
import LiveTemplate.Reactive.Snapshot

/-!
# Bindings

A binding ties a node to an expression, the flat name of a property.  Its mode names the updater
that paints the node.
-/

namespace LiveTemplate

/-- A node that shows a property. -/
structure Binding where
  node : NodeId
  expression : String
  mode : String
  /-- The subscriber that repaints the node. -/
  subscriber : SubscriberId
deriving DecidableEq, Repr, Inhabited

/-- Why compilation stops. -/
inductive CompileError
  /-- The first paint or the subscription of a binding failed. -/
  | bind (expression mode : String) (cause : ReactiveError)
deriving Repr, Inhabited

namespace CompileError

/-- The error underneath. -/
def reactive : CompileError → ReactiveError
  | bind _ _ cause => cause

/-- The wording of a compile error. -/
def message : CompileError → String
  | bind expression mode cause =>
    "cannot bind \x60" ++ expression ++ "\x60 with mode \x60" ++ mode ++ "\x60: " ++ cause.message

end CompileError

/-- Paints a value into a node. -/
abbrev Updater (σ : Type) := NodeId → Value → Routine σ

namespace Updater

variable {σ : Type}

/-- Show a value as the text of a node. -/
def text : Updater σ := fun node value => .edit fun dom => dom.setText node value.display

/-- Show a value as the markup inside a node, which is not sanitized. -/
def html : Updater σ := fun node value => .edit fun dom => dom.setMarkup node value.display

/-- Show a value inside the text around an interpolation, by an updater for the whole text. -/
def within (before after : String) (update : Updater σ) : Updater σ := fun node value =>
  update node (.string (before ++ value.display ++ after))

/-- The updaters of the modes `text` and `html`. -/
def defaults : Table (Updater σ) := [("text", text), ("html", html)]

end Updater

/-- Binds a node to an expression in a mode. -/
abbrev Binder (σ : Type) := NodeId → String → String → Session σ CompileError Binding

/-- Handles a directive attribute of a node, given its value; makes bindings by the binder and may
return one. -/
abbrev Directive (σ : Type) :=
  Binder σ → NodeId → String → Session σ CompileError (Option Binding)

namespace Directive

variable {σ : Type}

/-- Bind the node in a fixed mode. -/
def ofMode (mode : String) : Directive σ := fun bind node expression =>
  some <$> bind node expression mode

/-- The directives `text` and `html`. -/
def defaults : Table (Directive σ) := [("text", ofMode "text"), ("html", ofMode "html")]

end Directive

namespace Binding

variable {σ : Type}

/-- The bindings of an expression. -/
def forExpression (bindings : List Binding) (expression : String) : List Binding :=
  bindings.filter fun binding => binding.expression == expression

/-- A binding in inspection output. -/
def inspect (s : Store σ) (binding : Binding) : String :=
  "Binding \x7b node: " ++ (s.dom.inspect? binding.node).getD ""
    ++ ", expression: " ++ Text.quoted binding.expression
    ++ ", mode: " ++ Text.quoted binding.mode
    ++ ", subscriber: " ++ s.inspectSubscriber binding.subscriber ++ " \x7d"

/-- The bindings of a compiled subtree in inspection output. -/
def inspectAll (s : Store σ) (bindings : List Binding) : String :=
  "CompileReport \x7b bindings: [" ++ ", ".intercalate (bindings.map (inspect s)) ++ "] \x7d"

end Binding

end LiveTemplate
