import LiveTemplate.Template.Binding
import LiveTemplate.Template.Interpolation

/-!
# Compiling a subtree

The walk visits the descendants of a root in document order.  An element hands each attribute with
the directive prefix to the directive of that name; a text with an interpolation is bound in mode
`text`.  The children of a node are read after the node itself is done, so the walk goes on into
whatever a directive has installed.  Markup that a later write installs is not compiled.
-/

namespace LiveTemplate

/-- How subtrees are compiled. -/
structure Compiler (σ : Type) where
  /-- What expressions are properties of. -/
  source : Source σ
  /-- What the name of a directive attribute starts with. -/
  directivePrefix : String := "v-"
  directives : Table (Directive σ) := Directive.defaults
  updaters : Table (Updater σ) := Updater.defaults

/-- The rest of a text behind the given start, if it starts so. -/
def dropStart? : List Char → List Char → Option (List Char)
  | [], cs => some cs
  | _ :: _, [] => none
  | c :: start, d :: cs => if c = d then dropStart? start cs else none

namespace Compiler

variable {σ : Type}

/-- Paint a node with the present value, then construct the subscriber that repaints it.  Without
an updater there is no paint, and the subscriber does nothing.  Recomputations nest at most
`limit` deep. -/
def bindWith (compiler : Compiler σ) (limit : Nat) (update? : Option (Updater σ)) :
    Binder σ := fun node expression mode => do
  Session.report (.bound expression mode update?.isSome)
  let repaint : Value → Routine σ := match update? with
    | some update => update node
    | none => fun _ => .nothing
  if update?.isSome then
    let _ ← (Engine.run limit ((compiler.source.read expression).bind repaint)).mapError
      (.bind expression mode)
  let subscriber ← (Engine.watch limit compiler.source expression repaint).mapError
    (.bind expression mode)
  pure { node, expression, mode, subscriber }

/-- Bind a node to an expression by the updater of a mode. -/
def bind (compiler : Compiler σ) (limit : Nat) : Binder σ := fun node expression mode =>
  compiler.bindWith limit (Table.find? compiler.updaters mode) node expression mode

/-- The name of the directive that an attribute stands for. -/
def directiveName? (compiler : Compiler σ) (attributeName : String) : Option String :=
  (dropStart? compiler.directivePrefix.toList attributeName.toList).map String.ofList

/-- Hand the attributes of an element to their directives. -/
def compileAttributes (compiler : Compiler σ) (limit : Nat) (node : NodeId) :
    List (String × String) → Session σ CompileError (List Binding)
  | [] => pure []
  | (attributeName, expression) :: rest =>
    match compiler.directiveName? attributeName with
    | none => compileAttributes compiler limit node rest
    | some name =>
      match Table.find? compiler.directives name with
      | none => do
        Session.report (.unknownDirective name)
        compileAttributes compiler limit node rest
      | some directive => do
        let binding ← directive (compiler.bind limit) node expression
        let others ← compileAttributes compiler limit node rest
        pure (binding.toList ++ others)

/-- Bind a text to its interpolation, if it has one. -/
def compileText (compiler : Compiler σ) (limit : Nat) (node : NodeId) (data : String) :
    Session σ CompileError (List Binding) :=
  match Interpolation.find? data with
  | none => pure []
  | some found => do
    Session.report (.text found.expression)
    let update? := (Table.find? compiler.updaters "text").map
      (Updater.within found.before found.after)
    let binding ← compiler.bindWith limit update? node found.expression "text"
    pure [binding]

/-- Compile a node without what is below it. -/
def compileNode (compiler : Compiler σ) (limit : Nat) (node : NodeId) :
    Session σ CompileError (List Binding) := do
  match ← Session.inspect fun s => s.dom.cell? node with
  | some (.element _ attributes _) => do
    let name ← Session.inspect fun s => s.dom.nodeName node
    Session.report (.element name)
    compiler.compileAttributes limit node attributes
  | some (.text data) => compiler.compileText limit node data
  | _ => pure []

/-- Run a computation for each node and join what it finds. -/
def forEach {α : Type} (visit : NodeId → Session σ CompileError (List α)) :
    List NodeId → Session σ CompileError (List α)
  | [] => pure []
  | node :: rest => do
    let own ← visit node
    let others ← forEach visit rest
    pure (own ++ others)

/-- Visit what is below a node in document order, down to `depth` levels; without outcome if there
is more. -/
def walk {α : Type} (visit : NodeId → Session σ CompileError (List α)) :
    Nat → NodeId → Session σ CompileError (List α)
  | 0, _ => fun _ => none
  | depth + 1, node => do
    -- The node has been visited, and a directive may have put other children below it.
    let children ← Session.inspect fun s => s.dom.childrenOf node
    forEach (fun child => do
      let own ← visit child
      let below ← walk visit depth child
      pure (own ++ below)) children

/-- Bind every interpolation and every directive below a node, in document order.  Recomputations
and levels nest at most `limit` deep. -/
def compile (compiler : Compiler σ) (limit : Nat) (root : NodeId) :
    Session σ CompileError (List Binding) := do
  let bindings ← walk (compiler.compileNode limit) limit root
  Session.report (.compiled bindings.length)
  pure bindings

/-- Names in inspection output. -/
def inspectNames (names : List String) : String :=
  "\x7b" ++ ", ".intercalate (names.map Text.quoted) ++ "\x7d"

/-- A compiler in inspection output. -/
def inspect (compiler : Compiler σ) : String :=
  "Compiler \x7b prefix: " ++ Text.quoted compiler.directivePrefix
    ++ ", directives: " ++ inspectNames (Table.keys compiler.directives)
    ++ ", updaters: " ++ inspectNames (Table.keys compiler.updaters) ++ ", .. \x7d"

end Compiler

end LiveTemplate
