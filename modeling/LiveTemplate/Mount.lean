import LiveTemplate.Options.Basic
import LiveTemplate.Reactive.Source
import LiveTemplate.Selector.Query
import LiveTemplate.Template.Compiler

/-!
# Mounting data onto a document

Mounting observes the data of the options, finds the element that the options select and compiles
what is below it.  Without a selector, or if nothing matches, nothing is compiled.
-/

namespace LiveTemplate

/-- Why a mount, or an access through one, fails. -/
inductive MountError
  /-- The data of the options is no object but of this kind. -/
  | dataNotObject (kind : String)
  | selector (cause : SelectorError)
  | compile (cause : CompileError)
  | reactive (cause : ReactiveError)
deriving Repr

namespace MountError

/-- The wording of a mount error. -/
def message : MountError → String
  | dataNotObject kind => "data must be an object, got " ++ kind
  | selector cause => cause.message
  | compile cause => cause.message
  | reactive cause => cause.message

/-- The reactive error underneath, if there is one. -/
def reactive? : MountError → Option ReactiveError
  | compile cause => some cause.reactive
  | reactive cause => some cause
  | _ => none

end MountError

/-- Data mounted onto a document. -/
structure Mount where
  options : Options
  /-- The data, observed. -/
  data : ObjectId
  /-- The keys of the data at the time of the mount. -/
  keys : List String
  /-- The root of the compiled subtree. -/
  el : Option NodeId
  bindings : List Binding

namespace Mount

variable {σ : Type}

/-- The source that bindings and watchers read from and write to. -/
def source (mount : Mount) : Source σ := Source.forwarding mount.keys mount.data

/-- Find the root of the subtree to compile. -/
def findRoot (options : Options) (document : NodeId) : Session σ MountError (Option NodeId) :=
  match options.el with
  | none => pure none
  | some text =>
    match Selector.ofText text with
    | .ok selector => Session.inspect fun s => s.dom.query? document selector
    | .error cause => throw (.selector cause)

/-- Observe the data of options and find the root of the subtree to compile: the data object, its
keys and the root. -/
def prepare (options : Options) (document : NodeId) :
    Session σ MountError (ObjectId × List String × Option NodeId) := do
  match ← Session.operate fun s => s.observe options.notifyPolicy options.data with
  | .object data => do
    -- From here on the data is reactive, also if the selector turns out to be wrong.
    let keys ← Session.inspect fun s => Table.keys (s.fieldsOf data)
    let el ← findRoot options document
    pure (data, keys, el)
  | other => throw (.dataNotObject other.kind)

/-- The compiler of a mount, with the default directives and updaters. -/
def compilerOf (options : Options) (data : ObjectId) (keys : List String) : Compiler σ :=
  { source := Source.forwarding keys data, directivePrefix := options.directivePrefix }

/-- Mount the data of options onto a document.  `configure` may give the compiler other directives
or updaters. -/
def create (limit : Nat) (options : Options) (document : NodeId)
    (configure : Compiler σ → Compiler σ) : Session σ MountError Mount := do
  let (data, keys, el) ← prepare options document
  let bindings ← match el with
    | some root =>
      ((configure (compilerOf options data keys)).compile limit root).mapError .compile
    | none => do
      Session.report (.mountSkipped (options.el.getD ""))
      pure []
  Session.report (.mounted keys.length bindings.length)
  pure { options, data, keys, el, bindings }

/-- Read a property with tracking. -/
def get (limit : Nat) (mount : Mount) (key : String) : Session σ MountError Value :=
  (Engine.run limit (mount.source.read key)).mapError .reactive

/-- Write a property and notify its subscribers. -/
def set (limit : Nat) (mount : Mount) (key : String) (value : Value) : Session σ MountError Value :=
  (Engine.run limit (mount.source.write key value)).mapError .reactive

/-- Construct a subscriber on a property, with the mount as its source. -/
def watch (limit : Nat) (mount : Mount) (key : String) (callback : Value → Routine σ) :
    Session σ MountError SubscriberId :=
  (Engine.watch limit mount.source key callback).mapError .reactive

/-- A mount in inspection output. -/
def inspect? (s : Store σ) (mount : Mount) : Option String :=
  (s.inspectObject? mount.data).map fun data =>
    "KVue \x7b el: " ++ Compound.inspectOptional mount.options.el ++ ", data: " ++ data
      ++ ", bindings: " ++ toString mount.bindings.length ++ ", .. \x7d"

end Mount

end LiveTemplate
