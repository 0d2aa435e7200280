import LiveTemplate.Mount
import LiveTemplate.Proofs.Reactive.Progress

/-!
# What a program can ask for

A directive is code of the embedding program.  It reaches the store only through the operations of
the library, and so does everything that is put together from them.  `Session.Composed` says that a
session is put together so, and `Operation` lists what a program asks for from outside any run.
Compiling and mounting are composed sessions if the directives are.
-/

namespace LiveTemplate

variable {σ ε ε' α β : Type}

/-- Sessions that are put together from operations of the library. -/
inductive Session.Composed {σ : Type} : {ε α : Type} → Session σ ε α → Prop
  /-- Do nothing. -/
  | pure {ε α : Type} (a : α) : Composed (Pure.pure a : Session σ ε α)
  /-- Fail. -/
  | throw {ε α : Type} (e : ε) : Composed (MonadExcept.throw e : Session σ ε α)
  /-- Never end. -/
  | endless {ε α : Type} : Composed (fun _ => none : Session σ ε α)
  /-- Look at the store. -/
  | inspect {ε α : Type} (f : Store σ → α) : Composed (Session.inspect f : Session σ ε α)
  /-- Do an operation that runs no routine. -/
  | perform {ε : Type} (request : Request σ) :
    Composed (Session.operate (fun s => s.perform request) : Session σ ε request.Answer)
  /-- Run a routine. -/
  | run (limit : Nat) (routine : Routine σ) : Composed (Engine.run limit routine)
  /-- Construct a subscriber. -/
  | watch (limit : Nat) (source : Source σ) (key : String) (callback : Value → Routine σ) :
    Composed (Engine.watch limit source key callback)
  /-- Suspend collection. -/
  | untracked {ε α : Type} {session : Session σ ε α} :
    Composed session → Composed (Session.collecting none session)
  /-- Go on, whatever the outcome. -/
  | followedBy {ε ε' α β : Type} {session : Session σ ε α}
      {next : Except ε α → Session σ ε' β} :
    Composed session → (∀ outcome, Composed (next outcome)) →
      Composed (session.followedBy next)

namespace Session

theorem Composed.bind {session : Session σ ε α} {next : α → Session σ ε β}
    (hsession : session.Composed) (hnext : ∀ a, (next a).Composed) :
    (session >>= next).Composed := by
  rw [bind_eq_followedBy]
  refine .followedBy hsession fun outcome => ?_
  cases outcome with
  | ok a => exact hnext a
  | error e => exact .throw e

theorem Composed.map (f : α → β) {session : Session σ ε α} (hsession : session.Composed) :
    (f <$> session).Composed := by
  rw [map_eq_bind]
  exact .bind hsession fun _ => .pure _

theorem Composed.mapError (f : ε → ε') {session : Session σ ε α} (hsession : session.Composed) :
    (session.mapError f).Composed := by
  refine .followedBy hsession fun outcome => ?_
  cases outcome with
  | ok a => exact .pure a
  | error e => exact .throw (f e)

theorem Composed.report (event : Event) : (Session.report event : Session σ ε Unit).Composed :=
  .perform (.report event)

/-- A composed session keeps what primitive steps keep. -/
theorem Composed.keeps {R : Store σ → Store σ → Prop} (hR : Progress R)
    {session : Session σ ε α} (hsession : session.Composed) : Keeps R session := by
  induction hsession with
  | pure a => exact Keeps.pure hR.toPassage a
  | throw e => exact Keeps.throw hR.toPassage e
  | endless =>
      intro s outcome t h
      cases h
  | inspect f =>
      intro s outcome t h
      obtain ⟨-, rfl⟩ := Prod.mk.inj (Option.some.inj h)
      exact hR.refl s
  | perform request =>
      intro s outcome t h
      obtain ⟨-, rfl⟩ := Prod.mk.inj (Option.some.inj h)
      exact hR.perform s request
  | run limit routine => exact Engine.run_keeps hR limit routine
  | watch limit source key callback => exact Engine.watch_keeps hR limit source key callback
  | untracked _ ih => exact Keeps.collecting hR.toPassage none ih
  | followedBy _ _ ihsession ihnext => exact Keeps.followedBy hR.toPassage ihsession ihnext

end Session

/-! ## Compiling and mounting -/

/-- A directive asks only for operations of the library, among them the binder it is given. -/
def Directive.Composed (directive : Directive σ) : Prop :=
  ∀ bind : Binder σ, (∀ node expression mode, (bind node expression mode).Composed) →
    ∀ node expression, (directive bind node expression).Composed

theorem Directive.ofMode_composed (mode : String) : (ofMode mode : Directive σ).Composed := by
  intro bind hbind node expression
  exact .map some (hbind node expression mode)

namespace Compiler

/-- All directives of a compiler ask only for operations of the library. -/
def Composed (compiler : Compiler σ) : Prop :=
  ∀ name directive, Table.find? compiler.directives name = some directive → directive.Composed

/-- The registered directives are, unless others are registered. -/
theorem composed_of_defaults {compiler : Compiler σ}
    (hdefaults : compiler.directives = Directive.defaults) : compiler.Composed := by
  intro name directive h
  rw [hdefaults] at h
  simp only [Directive.defaults, Table.find?] at h
  split at h
  · obtain rfl := Option.some.inj h
    exact Directive.ofMode_composed "text"
  · split at h
    · obtain rfl := Option.some.inj h
      exact Directive.ofMode_composed "html"
    · cases h

theorem bindWith_composed (compiler : Compiler σ) (limit : Nat) (update? : Option (Updater σ))
    (node : NodeId) (expression mode : String) :
    (compiler.bindWith limit update? node expression mode).Composed := by
  unfold bindWith
  refine .bind (.report _) fun _ => ?_
  have hwatch (repaint : Value → Routine σ) :
      (do
        let subscriber ← (Engine.watch limit compiler.source expression repaint).mapError
          (CompileError.bind expression mode)
        pure ({ node, expression, mode, subscriber } : Binding) :
        Session σ CompileError Binding).Composed :=
    .bind (.mapError _ (.watch limit _ _ _)) fun _ => .pure _
  cases update? with
  | none => exact hwatch _
  | some update =>
      exact .bind (.mapError _ (.run limit _)) fun _ => hwatch _

theorem compileAttributes_composed {compiler : Compiler σ} (hcompiler : compiler.Composed)
    (limit : Nat) (node : NodeId) (attributes : List (String × String)) :
    (compiler.compileAttributes limit node attributes).Composed := by
  induction attributes with
  | nil => exact .pure []
  | cons head rest ih =>
      unfold compileAttributes
      split
      · exact ih
      · split
        · exact .bind (.report _) fun _ => ih
        · next directive hdirective =>
            -- A directive gets a binder, and the binder is composed whatever mode it is asked for.
            refine .bind (hcompiler _ directive hdirective _ ?_ _ _) fun _ =>
              .bind ih fun _ => .pure _
            exact fun node expression mode => bindWith_composed _ _ _ node expression mode

theorem compileNode_composed {compiler : Compiler σ} (hcompiler : compiler.Composed)
    (limit : Nat) (node : NodeId) : (compiler.compileNode limit node).Composed := by
  unfold compileNode
  refine .bind (.inspect _) fun cell => ?_
  split
  · exact .bind (.inspect _) fun _ => .bind (.report _) fun _ =>
      compileAttributes_composed hcompiler limit node _
  · unfold compileText
    split
    · exact .pure []
    · exact .bind (.report _) fun _ => .bind (bindWith_composed _ _ _ _ _ _) fun _ => .pure _
  · exact .pure []

theorem forEach_composed {visit : NodeId → Session σ CompileError (List α)}
    (hvisit : ∀ node, (visit node).Composed) (nodes : List NodeId) :
    (forEach visit nodes).Composed := by
  induction nodes with
  | nil => exact .pure []
  | cons node rest ih => exact .bind (hvisit node) fun _ => .bind ih fun _ => .pure _

theorem walk_composed {visit : NodeId → Session σ CompileError (List α)}
    (hvisit : ∀ node, (visit node).Composed) (depth : Nat) (node : NodeId) :
    (walk visit depth node).Composed := by
  induction depth generalizing node with
  | zero => exact .endless
  | succ depth ih =>
      refine .bind (.inspect _) fun children => forEach_composed (fun child => ?_) children
      exact .bind (hvisit child) fun _ => .bind (ih child) fun _ => .pure _

theorem compile_composed {compiler : Compiler σ} (hcompiler : compiler.Composed) (limit : Nat)
    (root : NodeId) : (compiler.compile limit root).Composed :=
  .bind (walk_composed (compileNode_composed hcompiler limit) limit root) fun _ =>
    .bind (.report _) fun _ => .pure _

end Compiler

namespace Mount

theorem findRoot_composed (options : Options) (document : NodeId) :
    (findRoot options document : Session σ MountError (Option NodeId)).Composed := by
  unfold findRoot
  split
  · exact .pure none
  · split
    · exact .inspect _
    · exact .throw _

theorem prepare_composed (options : Options) (document : NodeId) :
    (prepare options document :
      Session σ MountError (ObjectId × List String × Option NodeId)).Composed := by
  unfold prepare
  refine .bind (.perform (.observe options.data options.notifyPolicy)) fun value => ?_
  split
  · exact .bind (.inspect _) fun keys => .bind (findRoot_composed options document) fun el =>
      .pure _
  · exact .throw _

theorem create_composed (limit : Nat) (options : Options) (document : NodeId)
    {configure : Compiler σ → Compiler σ}
    (hconfigure : ∀ compiler : Compiler σ, compiler.directives = Directive.defaults →
      (configure compiler).Composed) :
    (create limit options document configure).Composed := by
  unfold create
  refine .bind (prepare_composed options document) fun prepared => ?_
  obtain ⟨data, keys, el⟩ := prepared
  cases el with
  | none =>
      exact .bind (.report _) fun _ => .bind (.pure _) fun _ => .bind (.report _) fun _ => .pure _
  | some root =>
      have hcompile := Compiler.compile_composed (hconfigure (compilerOf options data keys) rfl)
        limit root
      exact .bind (.mapError _ hcompile) fun _ => .bind (.report _) fun _ => .pure _

end Mount

/-! ## Operations -/

/-- What a program asks for from outside any run. -/
inductive Operation (σ : Type)
  /-- Read a key of a source with tracking. -/
  | read (source : Source σ) (key : String)
  /-- Write a key of a source and notify. -/
  | write (source : Source σ) (key : String) (value : Value)
  /-- Read a field with tracking. -/
  | get (field : FieldId)
  /-- Write a field and notify. -/
  | set (field : FieldId) (value : Value)
  /-- Define a field of an object. -/
  | define (object : ObjectId) (key : String) (value : Value)
  /-- Make data reactive. -/
  | observe (json : Json) (policy : NotifyPolicy)
  /-- Construct a subscriber. -/
  | watch (source : Source σ) (key : String) (callback : Value → Routine σ)
  /-- Notify the subscribers of a field. -/
  | notify (field : FieldId)
  /-- Recompute a subscriber. -/
  | recompute (subscriber : SubscriberId)
  /-- Run a routine with collection suspended. -/
  | untracked (body : Routine σ)
  /-- Compile what is below a node. -/
  | compile (compiler : Compiler σ) (root : NodeId)
  /-- Mount data onto a document. -/
  | mount (options : Options) (document : NodeId) (configure : Compiler σ → Compiler σ)

namespace Operation

/-- The session that a routine is when a program asks for it. -/
def ofRoutine (limit : Nat) (routine : Routine σ) : Session σ MountError Unit := do
  let _ ← (Engine.run limit routine).mapError .reactive

/-- What an operation does.  Recomputations and levels nest at most `limit` deep. -/
def session (limit : Nat) : Operation σ → Session σ MountError Unit
  | read source key => ofRoutine limit (source.read key)
  | write source key value => ofRoutine limit (source.write key value)
  | get field => ofRoutine limit (.getField field)
  | set field value => ofRoutine limit (.setField field value)
  | define object key value => ofRoutine limit (.define object key value)
  | observe json policy => ofRoutine limit (.request (.observe json policy) .done)
  | watch source key callback => do
    let _ ← (Engine.watch limit source key callback).mapError .reactive
  | notify field => ofRoutine limit (.notify field .ofExcept)
  | recompute subscriber => ofRoutine limit (.recompute subscriber .ofExcept)
  | untracked body => ofRoutine limit (.suspended body)
  | compile compiler root => do
    let _ ← (compiler.compile limit root).mapError .compile
  | mount options document configure => do
    let _ ← Mount.create limit options document configure

/-- The directives that come with an operation ask only for operations of the library. -/
def Composed : Operation σ → Prop
  | compile compiler _ => compiler.Composed
  | mount _ _ configure =>
    ∀ compiler : Compiler σ, compiler.directives = Directive.defaults →
      (configure compiler).Composed
  | _ => True

theorem ofRoutine_composed (limit : Nat) (routine : Routine σ) :
    (ofRoutine limit routine).Composed :=
  .bind (.mapError _ (.run limit routine)) fun _ => .pure _

theorem session_composed {operation : Operation σ} (hoperation : operation.Composed)
    (limit : Nat) : (operation.session limit).Composed := by
  cases operation with
  | watch source key callback =>
      exact .bind (.mapError _ (.watch limit source key callback)) fun _ => .pure _
  | compile compiler root =>
      exact .bind (.mapError _ (Compiler.compile_composed hoperation limit root)) fun _ => .pure _
  | mount options document configure =>
      exact .bind (Mount.create_composed limit options document hoperation) fun _ => .pure _
  | _ => exact ofRoutine_composed limit _

/-- Perform operations one after another, each on what the one before has left, whatever the
outcomes. -/
def performAll (limit : Nat) : List (Operation σ) → Store σ → Option (Store σ)
  | [], s => some s
  | operation :: rest, s =>
    match operation.session limit s with
    | some (_, s) => performAll limit rest s
    | none => none

/-- A list of operations keeps what primitive steps keep. -/
theorem performAll_keeps {R : Store σ → Store σ → Prop} (hR : Progress R) {limit : Nat}
    {operations : List (Operation σ)} (hoperations : ∀ operation ∈ operations, operation.Composed)
    {s t : Store σ} (h : performAll limit operations s = some t) : R s t := by
  induction operations generalizing s with
  | nil =>
      obtain rfl := Option.some.inj h
      exact hR.refl _
  | cons operation rest ih =>
      unfold performAll at h
      cases hfirst : operation.session limit s with
      | none => simp [hfirst] at h
      | some first =>
          obtain ⟨outcome, u⟩ := first
          simp only [hfirst] at h
          have hrest := ih (fun other hother => hoperations other (by simp [hother])) h
          have hcomposed := session_composed (hoperations operation (by simp)) limit
          exact hR.trans (hcomposed.keeps hR s outcome u hfirst) hrest

end Operation

end LiveTemplate
