import LiveTemplate.Proofs.Selector.Search
import LiveTemplate.Proofs.Spot.Run
import LiveTemplate.Proofs.Template.Sites

/-!
# Texts follow the data

Mounting binds the texts with an interpolation that it meets, and leaves each of them up to date.
From then on the program may do what it likes, as long as nobody but the bindings changes nodes and
no bound key is redefined: whenever no operation is going on, each text shows the current value of
its key.
-/

namespace LiveTemplate

variable {σ : Type}

open Session Spot

/-! ## Runs of operations -/

namespace Operation

/-- The routine that an operation runs, unless it compiles or mounts. -/
def routine? : Operation σ → Option (Routine σ)
  | read source key => some (source.read key)
  | write source key value => some (source.write key value)
  | get field => some (.getField field)
  | set field value => some (.setField field value)
  | define object key value => some (.define object key value)
  | observe json policy => some (.request (.observe json policy) .done)
  | watch source key callback => some (source.watch key callback fun _ => .nothing)
  | notify field => some (.notify field .ofExcept)
  | recompute subscriber => some (.recompute subscriber .ofExcept)
  | untracked body => some (.suspended body)
  | compile _ _ => none
  | mount _ _ _ => none

/-- The operation runs a routine, and every request of the routine is allowed. -/
def Only (allowed : Request σ → Prop) (operation : Operation σ) : Prop :=
  ∃ routine, operation.routine? = some routine ∧ routine.Only allowed

/-- The trace of an operation that runs a routine. -/
def trace (limit : Nat) (operation : Operation σ) (s : Store σ) : List (Act σ) :=
  match operation.routine? with
  | some routine => Engine.runTrace limit routine s
  | none => []

/-- The trace of operations that are performed one after another. -/
def traceAll (limit : Nat) : List (Operation σ) → Store σ → List (Act σ)
  | [], _ => []
  | operation :: rest, s =>
    operation.trace limit s ++
      Engine.traceBehind (operation.session limit) (fun _ => traceAll limit rest) s

/-- An operation leaves the store as its routine does. -/
theorem run_of_session {limit : Nat} {operation : Operation σ} {routine : Routine σ}
    {outcome : Except MountError Unit} {s t : Store σ}
    (hroutine : operation.routine? = some routine)
    (hrun : operation.session limit s = some (outcome, t)) :
    ∃ first, Engine.run limit routine s = some (first, t) := by
  -- Errors are put in other words and the value is dropped; neither changes the store.
  have hforget {α : Type} {session : Session σ ReactiveError α}
      (h : (session.mapError MountError.reactive >>= fun _ => pure ()) s = some (outcome, t)) :
      ∃ first, session s = some (first, t) := by
    rcases bind_eq_some.1 h with ⟨_, u, hfirst, hlast⟩ | ⟨_, hfirst, -⟩
    · obtain ⟨-, rfl⟩ := Prod.mk.inj (pure_eq_some.1 hlast)
      obtain ⟨first, hfirst, -⟩ := mapError_eq_some.1 hfirst
      exact ⟨first, hfirst⟩
    · obtain ⟨first, hfirst, -⟩ := mapError_eq_some.1 hfirst
      exact ⟨first, hfirst⟩
  cases operation with
  | watch source key callback =>
      obtain rfl := Option.some.inj hroutine
      obtain ⟨first, hfirst⟩ := hforget hrun
      cases first with
      | ok subscriber => exact ⟨.ok .null, followedBy_eq_some.2 ⟨.ok subscriber, t, hfirst, rfl⟩⟩
      | error e => exact ⟨.error e, followedBy_eq_some.2 ⟨.error e, t, hfirst, rfl⟩⟩
  | compile compiler root => cases hroutine
  | mount options document configure => cases hroutine
  | _ =>
      obtain rfl := Option.some.inj hroutine
      exact hforget hrun

/-- Induction on the operations: each keeps the text bound and leaves it up to date. -/
theorem performAll_maintains {spot : Spot} {limit : Nat} {operations : List (Operation σ)}
    {s t : Store σ} (hoperations : ∀ operation ∈ operations, operation.Only spot.Spares)
    (hbound : spot.Bound s) (hfresh : spot.Fresh s)
    (hcalm : Calm spot.policy (traceAll limit operations s))
    (hrun : performAll limit operations s = some t) : spot.Bound t ∧ spot.Fresh t := by
  induction operations generalizing s with
  | nil =>
      obtain rfl := Option.some.inj hrun
      exact ⟨hbound, hfresh⟩
  | cons operation rest ih =>
      unfold performAll at hrun
      unfold traceAll at hcalm
      cases hfirst : operation.session limit s with
      | none => simp [hfirst] at hrun
      | some first =>
          obtain ⟨outcome, u⟩ := first
          rw [Engine.traceBehind_of_eq_some _ hfirst] at hcalm
          simp only [hfirst] at hrun
          obtain ⟨routine, hroutine, honly⟩ := hoperations operation List.mem_cons_self
          obtain ⟨ended, hended⟩ := run_of_session hroutine hfirst
          have hown : Calm spot.policy (Engine.runTrace limit routine s) := by
            have htrace := hcalm.left
            unfold trace at htrace
            rwa [hroutine] at htrace
          have hmaintains := run_maintains limit honly
          exact ih (fun other hother => hoperations other (List.mem_cons_of_mem _ hother))
            (hmaintains.bound s ended u hbound hended)
            (hmaintains.fresh s ended u hbound hfresh hown hended) hcalm.right hrun

end Operation

/-! ## What a mount binds -/

namespace Mount

/-- The request neither changes nodes nor redefines a bound key. -/
def Spares (mount : Mount) : Request σ → Prop
  | .define object key _ => object = mount.data → key ∉ mount.bindings.map Binding.expression
  | .edit _ => False
  | _ => True

/-- What a mount does before it is complete, with each node as it is when it is visited. -/
def sites (limit : Nat) (options : Options) (document : NodeId) :
    Session σ MountError (List Site) := do
  let (data, keys, el) ← prepare options document
  match el with
  | some root =>
    (Compiler.walk ((compilerOf options data keys).visitSite limit) limit root).mapError .compile
  | none => pure []

theorem spares_spot {mount : Mount} {spot : Spot} (hdata : spot.data = mount.data)
    (hbound : spot.shown.expression ∈ mount.bindings.map Binding.expression) (r : Request σ)
    (hr : mount.Spares r) : spot.Spares r := by
  cases r with
  | define object key value =>
      intro hobject hkey
      exact hr (hobject.trans hdata) (hkey ▸ hbound)
  | edit change => exact hr.elim
  | _ => trivial

theorem spares_of_reads (mount : Mount) (r : Request σ) (hr : r.Reads) : mount.Spares r := by
  cases r with
  | field object key => trivial
  | get field => trivial
  | report event => trivial
  | _ => exact hr.elim

/-- A write through the mount is a run of a routine that spares the texts. -/
theorem only_write (mount : Mount) (key : String) (value : Value) :
    (Operation.write mount.source key value : Operation σ).Only mount.Spares :=
  ⟨_, rfl, (Source.only_write_forwarding mount.keys mount.data key value).mono
    mount.spares_of_reads⟩

/-- So is the construction of a watcher on the mount if its callback spares them. -/
theorem only_watch {mount : Mount} {key : String} {callback : Value → Routine σ}
    (hcallback : ∀ value, (callback value).Only mount.Spares) :
    (Operation.watch mount.source key callback : Operation σ).Only mount.Spares := by
  refine ⟨_, rfl, ⟨?_, hcallback⟩, fun outcome => ?_⟩
  · exact (Source.only_read_forwarding mount.keys mount.data key).mono mount.spares_of_reads
  · cases outcome <;> trivial

variable {options : Options} {document : NodeId} {s t : Store σ} {data : ObjectId}
  {keys : List String} {el : Option NodeId} {limit : Nat} {mount : Mount}

/-- What a selector finds in a document. -/
def rootIn (dom : Dom) (document : NodeId) (el : Option String) : Option NodeId :=
  el.bind fun text => (Selector.ofText text).toOption.bind (dom.query? document)

theorem findRoot_eq_rootIn (h : findRoot options document s = some (.ok el, t)) :
    t = s ∧ el = rootIn s.dom document options.el := by
  unfold findRoot at h
  unfold rootIn
  cases hel : options.el with
  | none =>
      simp only [hel] at h
      obtain ⟨rfl, rfl⟩ := pure_ok.1 h
      exact ⟨rfl, rfl⟩
  | some text =>
      simp only [hel] at h
      cases hselector : Selector.ofText text with
      | error cause =>
          simp only [hselector] at h
          cases h
      | ok selector =>
          simp only [hselector] at h
          obtain ⟨hfound, rfl⟩ := Prod.mk.inj (Option.some.inj h)
          obtain rfl := Except.ok.inj hfound
          refine ⟨rfl, ?_⟩
          rw [Option.bind_some, hselector]
          rfl

/-- The root is what a query in the document finds. -/
theorem exists_query_of_rootIn {dom : Dom} {root : NodeId} {text? : Option String}
    (h : rootIn dom document text? = some root) :
    ∃ selector, dom.query? document selector = some root := by
  obtain ⟨text, -, h⟩ := Option.bind_eq_some_iff.1 h
  obtain ⟨selector, -, hfound⟩ := Option.bind_eq_some_iff.1 h
  exact ⟨selector, hfound⟩

/-- All that preparing a mount changes comes from making the data reactive.  The root depends on the
selector and on the document alone. -/
theorem prepare_observed (h : prepare options document s = some (.ok (data, keys, el), t)) :
    s.observe options.notifyPolicy options.data = (t, .object data) ∧
      el = rootIn s.dom document options.el := by
  have hdom : (s.observe options.notifyPolicy options.data).1.dom = s.dom :=
    ObserveProgress.sameDom.observe options.notifyPolicy s options.data
  unfold prepare at h
  rw [operate_bind] at h
  cases hvalue : (s.observe options.notifyPolicy options.data).2 with
  | object object =>
      simp only [hvalue] at h
      rw [inspect_bind] at h
      obtain ⟨el, u, hfind, h⟩ := bind_ok.1 h
      obtain ⟨hprepared, rfl⟩ := pure_ok.1 h
      obtain ⟨rfl, hprepared⟩ := Prod.mk.inj hprepared
      obtain ⟨-, rfl⟩ := Prod.mk.inj hprepared
      obtain ⟨rfl, hroot⟩ := findRoot_eq_rootIn hfind
      exact ⟨Prod.ext rfl hvalue, hdom ▸ hroot⟩
  | _ =>
      simp only [hvalue] at h
      cases h

/-- Preparing a mount makes the data reactive under the policy of the options, and finds the root in
the document. -/
theorem prepare_ok (h : prepare options document s = some (.ok (data, keys, el), t)) :
    t.Uniform data options.notifyPolicy ∧ t.dom = s.dom ∧ t.subscribers = s.subscribers ∧
      ∀ root, el = some root → ∃ selector, s.dom.query? document selector = some root := by
  obtain ⟨hobserve, hel⟩ := prepare_observed h
  have huniform := Store.uniform_observe s options.notifyPolicy options.data
    (congrArg Prod.snd hobserve)
  have hdom := ObserveProgress.sameDom.observe options.notifyPolicy s options.data
  have hsubscribers :=
    RequestProgress.sameSubscribers.observe options.notifyPolicy s options.data
  rw [hobserve] at huniform hdom hsubscribers
  exact ⟨huniform, hdom, hsubscribers, fun root hroot =>
    exists_query_of_rootIn (hel.symm.trans hroot)⟩

/-- A mount compiles what is below the root that is found, if one is. -/
theorem create_ok (h : create limit options document id s = some (.ok mount, t)) :
    ∃ u, prepare options document s = some (.ok (mount.data, mount.keys, mount.el), u) ∧
      ((mount.el = none ∧ mount.bindings = [] ∧
          t = (u.report (.mountSkipped (options.el.getD ""))).report
            (.mounted mount.keys.length 0)) ∨
        ∃ root v, mount.el = some root ∧
          (compilerOf options mount.data mount.keys).compile limit root u =
            some (.ok mount.bindings, v) ∧
          t = v.report (.mounted mount.keys.length mount.bindings.length)) := by
  obtain ⟨⟨data, keys, el⟩, u, hprepare, h⟩ := bind_ok.1 h
  dsimp only at h
  cases el with
  | none =>
      dsimp only at h
      rw [report_bind, pure_bind, report_bind] at h
      obtain ⟨rfl, rfl⟩ := pure_ok.1 h
      exact ⟨u, hprepare, .inl ⟨rfl, rfl, rfl⟩⟩
  | some root =>
      obtain ⟨bindings, v, hcompile, h⟩ := bind_ok.1 h
      rw [report_bind] at h
      obtain ⟨rfl, rfl⟩ := pure_ok.1 h
      obtain ⟨outcome, hcompile, houtcome⟩ := mapError_eq_some.1 hcompile
      cases outcome with
      | error e => cases houtcome
      | ok found =>
          obtain rfl := Except.ok.inj houtcome
          exact ⟨u, hprepare, .inr ⟨root, v, rfl, hcompile, rfl⟩⟩

/-- A mount binds its sites, and leaves each text among them bound and up to date. -/
theorem create_charted {tree : Tree NodeId} (htree : s.dom.tree? document = some tree)
    (hlabels : tree.labels.Nodup)
    (hmount : create limit options document id s = some (.ok mount, t))
    (hwatchers : ∀ cell ∈ s.subscribers, cell.Only mount.Spares) :
    ∃ found u visited, sites limit options document s = some (.ok found, u) ∧
      mount.bindings = found.map Site.binding ∧
      Compiler.Charted mount.data options.notifyPolicy
        (· ∈ mount.bindings.map Binding.expression) visited visited found t := by
  obtain ⟨u, hprepare, hbindings⟩ := create_ok hmount
  obtain ⟨huniform, hdom, hsubscribers, hroot⟩ := prepare_ok hprepare
  -- Before anything is compiled, all subscribers are the program's own.
  have hstart : Compiler.Charted mount.data options.notifyPolicy
      (· ∈ mount.bindings.map Binding.expression) [] [] [] u := by
    refine ⟨huniform, fun spot hdata hbound _ cell hcell => ?_, nofun⟩
    rw [hsubscribers] at hcell
    exact (hwatchers cell hcell).mono (spares_spot hdata hbound)
  rcases hbindings with ⟨hel, hnil, rfl⟩ | ⟨root, v, hel, hcompile, rfl⟩
  · refine ⟨[], u, [], bind_ok.2 ⟨_, u, hprepare, ?_⟩, hnil, (hstart.report _).report _⟩
    simp only [hel]
    rfl
  · obtain ⟨selector, hquery⟩ := hroot root hel
    have hdistinct := Dom.distinct_of_query? htree hlabels hquery limit
    rw [← hdom] at hdistinct
    obtain ⟨found, w, hwalk, hfound, rfl⟩ := Compiler.compile_ok hcompile
    obtain ⟨visited, hcharted, -⟩ := Compiler.walk_keeps
      (Compiler.visitSite_keeps ⟨rfl, rfl, rfl⟩) limit root [] [] u found w hdistinct
      (fun _ _ _ => List.not_mem_nil) nofun hstart hwalk
    refine ⟨found, w, visited, bind_ok.2 ⟨_, u, hprepare, ?_⟩, hfound,
      (hcharted.report _).report _⟩
    simp only [hel]
    exact mapError_eq_some.2 ⟨_, hwalk, rfl⟩

/-- However a program goes on after a mount, each text bound by an interpolation shows the current
value of its key, between the texts that were around it: under the isolating policy whatever fails,
and under the other one as long as no recomputation has failed. -/
theorem texts_follow_data {options : Options} {document : NodeId} {tree : Tree NodeId}
    {mountLimit limit : Nat} {mount : Mount} {operations : List (Operation σ)}
    {s₀ s₁ s₂ : Store σ} (htree : s₀.dom.tree? document = some tree)
    (hlabels : tree.labels.Nodup)
    (hmount : create mountLimit options document id s₀ = some (.ok mount, s₁))
    (hwatchers : ∀ cell ∈ s₀.subscribers, cell.Only mount.Spares)
    (hoperations : ∀ operation ∈ operations, operation.Only mount.Spares)
    (hrun : Operation.performAll limit operations s₁ = some s₂)
    (hcalm : Calm options.notifyPolicy (Operation.traceAll limit operations s₁)) :
    ∃ found t, sites mountLimit options document s₀ = some (.ok found, t) ∧
      mount.bindings = found.map Site.binding ∧
      ∀ site ∈ found, ∀ text, site.cell = some (.text text) →
        ∃ interpolation field, Interpolation.find? text = some interpolation ∧
          site.binding.expression = interpolation.expression ∧
          s₂.field? mount.data interpolation.expression = some field ∧
          s₂.dom.cell? site.binding.node =
            some (.text (interpolation.before ++ (s₂.peek field).display ++
              interpolation.after)) := by
  obtain ⟨found, t, visited, hsites, hbindings, hcharted⟩ :=
    create_charted htree hlabels hmount hwatchers
  refine ⟨found, t, hsites, hbindings, fun site hsite text htext => ?_⟩
  have hexpression : site.binding.expression ∈ mount.bindings.map Binding.expression := by
    rw [hbindings]
    exact List.mem_map_of_mem (List.mem_map_of_mem hsite)
  obtain ⟨spot, hdata, hpolicy, hnode, hkey, hfind, -, hbound, hfresh⟩ :=
    hcharted.texts site hsite text htext hexpression
  -- The key of the text is bound, so what spares the mount spares the text.
  have hspared (operation : Operation σ) (hoperation : operation ∈ operations) :
      operation.Only spot.Spares := by
    obtain ⟨routine, hroutine, honly⟩ := hoperations operation hoperation
    exact ⟨routine, hroutine, honly.mono (spares_spot hdata (hkey ▸ hexpression))⟩
  obtain ⟨hlast, hshown⟩ := Operation.performAll_maintains hspared hbound hfresh
    (hpolicy ▸ hcalm) hrun
  refine ⟨spot.shown, spot.field, hfind, hkey.symm, ?_, ?_⟩
  · rw [← hdata]
    exact hlast.lookup
  · rw [← hnode]
    exact hshown

/-- A document with one text. -/
def greeting : Store Unit where
  dom := { cells := #[.document [1], .element "p" [] [2],
    .text "Hello, \x7b\x7b name \x7d\x7d!"] }
  shared := ()

/-- The text greets a name. -/
def greetingOptions : Options where
  data := .object [("name", .string "you")]
  el := some "p"
  notifyPolicy := .isolate

/-- A watcher that always fails, and then another name. -/
def greetingOperations (mount : Mount) : List (Operation Unit) :=
  [.watch mount.source "name" fun _ => .fail (.unknownProperty "nick"),
    .write mount.source "name" (.string "all")]

/-- The name is in the text although the watcher has failed. -/
theorem texts_follow_data_greeting :
    ∃ mount s₁ s₂, create 4 greetingOptions 0 id greeting = some (.ok mount, s₁) ∧
      Operation.performAll 4 (greetingOperations mount) s₁ = some s₂ ∧
      s₂.dom.cell? 2 = some (.text "Hello, all!") ∧
      ∃ found t, sites 4 greetingOptions 0 greeting = some (.ok found, t) ∧
        mount.bindings = found.map Site.binding ∧
        ∀ site ∈ found, ∀ text, site.cell = some (.text text) →
          ∃ interpolation field, Interpolation.find? text = some interpolation ∧
            site.binding.expression = interpolation.expression ∧
            s₂.field? mount.data interpolation.expression = some field ∧
            s₂.dom.cell? site.binding.node =
              some (.text (interpolation.before ++ (s₂.peek field).display ++
                interpolation.after)) := by
  have hall : ((create 4 greetingOptions 0 id greeting).bind fun
      | (.ok mount, s₁) => Operation.performAll 4 (greetingOperations mount) s₁
      | (.error _, _) => none).map (fun s₂ => s₂.dom.cell? 2) =
        some (some (.text "Hello, all!")) := by decide +kernel
  obtain ⟨s₂, hrun, hshown⟩ := Option.map_eq_some_iff.1 hall
  obtain ⟨⟨outcome, s₁⟩, hmount, hrun⟩ := Option.bind_eq_some_iff.1 hrun
  cases outcome with
  | error e => cases hrun
  | ok mount =>
      refine ⟨mount, s₁, s₂, hmount, hrun, hshown, ?_⟩
      have htree : greeting.dom.tree? 0 = some (.document 0 [.element 1 "p" []
          [.text 2 "Hello, \x7b\x7b name \x7d\x7d!"]]) := rfl
      refine texts_follow_data htree (by decide) hmount nofun ?_ hrun (.inl rfl)
      intro operation hoperation
      simp only [greetingOperations, List.mem_cons, List.not_mem_nil, or_false] at hoperation
      rcases hoperation with rfl | rfl
      · exact only_watch fun _ => trivial
      · exact mount.only_write "name" _

end Mount

end LiveTemplate
