import LiveTemplate.Proofs.Dom.Footprint
import LiveTemplate.Proofs.Reactive.Fields
import LiveTemplate.Proofs.Reactive.Sources
import LiveTemplate.Proofs.Registration
import LiveTemplate.Template.Compiler

/-!
# Places

A place is what a compiler with the default directives and updaters binds: a node, the expression
with the text around it, and the mode.  Which places a node has is read off its content, without
regard to the data.  A visit of a node binds its places in order, up to the first whose expression
is no key of the data; `Binds` says what that makes of the store.
-/

namespace LiveTemplate

variable {σ : Type}

/-- A node that is to show a property. -/
structure Place where
  node : NodeId
  /-- The expression, and what stands around its value. -/
  shown : Interpolation
  mode : String
deriving DecidableEq, Repr

namespace Place

/-- Show a value at the place. -/
def paint (place : Place) (value : Value) (dom : Dom) : Dom :=
  if place.mode = "html" then dom.setMarkup place.node (place.shown.render value.display)
  else dom.setText place.node (place.shown.render value.display)

/-- The subscriber that repaints the place. -/
def subscriber (place : Place) (source : Source σ) : Subscriber σ :=
  ⟨place.shown.expression, source, fun value => .edit (place.paint value)⟩

/-- The binding of the place that the given subscriber repaints. -/
def binding (place : Place) (subscriber : SubscriberId) : Binding :=
  ⟨place.node, place.shown.expression, place.mode, subscriber⟩

theorem rehung_paint (place : Place) (value : Value) (dom : Dom) :
    Dom.Rehung place.node dom (place.paint value dom) := by
  unfold paint
  split
  · exact .setMarkup dom place.node _
  · exact .setText dom place.node _

theorem reworked_paint (place : Place) (value : Value) (dom : Dom) :
    Dom.Reworked place.node dom (place.paint value dom) :=
  .of_rehung (place.rehung_paint value dom)

theorem ordered_paint (place : Place) (value : Value) (dom : Dom) :
    Dom.Ordered place.node dom (place.paint value dom) :=
  .of_rehung (place.rehung_paint value dom)

end Place

/-- What an attribute asks for, if it is a directive under the given start of names: an expression
and a mode. -/
def directive? (start : String) (entry : String × String) : Option (String × String) :=
  if entry.1 = start ++ "text" then some (entry.2, "text")
  else if entry.1 = start ++ "html" then some (entry.2, "html")
  else none

/-- The place of a directive on a node. -/
def Place.ofDirective (node : NodeId) (directive : String × String) : Place :=
  ⟨node, ⟨directive.1, "", ""⟩, directive.2⟩

/-- The places of a node. -/
def placesAt (start : String) (node : NodeId) : NodeCell → List Place
  | .element _ attributes _ =>
    (attributes.filterMap (directive? start)).map (Place.ofDirective node)
  | .text data => (Interpolation.find? data).toList.map fun found => ⟨node, found, "text"⟩
  | _ => []

/-! ## Tracked reads -/

namespace Store

variable {s t : Store σ} {ledger : List Registration} {built : List (Subscriber σ)}

/-- The registrations that a tracked read makes: that of the subscriber that is collecting. -/
def tracked (s : Store σ) (field : FieldId) : List Registration :=
  s.active.toList.map (field, ·)

theorem tracked_of_idle (h : s.active = none) (field : FieldId) : s.tracked field = [] := by
  unfold tracked
  rw [h]
  rfl

/-- Registrations change no value. -/
theorem Enrolled.peek (h : s.Enrolled t ledger built) (field : FieldId) :
    t.peek field = s.peek field := by
  unfold Store.peek
  rw [h.fields, getElem?_enroll]
  cases s.fields[field]? <;> rfl

theorem enrolled_get (s : Store σ) (field : FieldId) :
    s.Enrolled (s.get field).1 (s.tracked field) [] := by
  unfold tracked
  cases hactive : s.active with
  | none => exact .get_of_idle hactive field
  | some subscriber => exact .get_of_active hactive field

theorem get_value (s : Store σ) (field : FieldId) : (s.get field).2 = s.peek field :=
  (s.enrolled_get field).peek field

theorem get_dom (s : Store σ) (field : FieldId) : (s.get field).1.dom = s.dom := by
  simp only [get, track]
  split <;> rfl

end Store

namespace Engine

variable (forwarded : Option (List String)) {data : ObjectId} {key : String} {field : FieldId}

theorem enrolled_heard (key : String) (s : Store σ) : s.Enrolled (heard forwarded key s) [] [] :=
  heard_induct (motive := fun t => s.Enrolled t [] []) (.refl s) (.report s _)

/-- A read of a key that is there has the value of the field. -/
theorem run_read_over (limit : Nat) {s : Store σ} (hfield : s.field? data key = some field) :
    ∃ t, run limit ((Source.over forwarded data).read key) s = some (.ok (s.peek field), t) ∧
      s.Enrolled t (s.tracked field) [] ∧ t.dom = s.dom := by
  have hheard := enrolled_heard forwarded key s
  have hread : run limit ((Source.over forwarded data).read key) s = _ :=
    runWith_read_over forwarded data key s
  rw [hfield] at hread
  dsimp only at hread
  have htracked : (heard forwarded key s).tracked field = s.tracked field := by
    unfold Store.tracked
    rw [heard_active]
  refine ⟨((heard forwarded key s).get field).1, ?_, ?_, ?_⟩
  · rw [hread, Store.get_value, hheard.peek]
  · rw [← htracked]
    exact hheard.trans (Store.enrolled_get _ field)
  · rw [Store.get_dom, heard_dom]

/-- A subscriber on a key that is there is constructed, and registered with the field. -/
theorem watch_over (limit : Nat) (callback : Value → Routine σ) {s : Store σ}
    (hfield : s.field? data key = some field) :
    ∃ t, watch limit (Source.over forwarded data) key callback s =
        some (.ok s.subscribers.size, t) ∧
      s.Enrolled t [(field, s.subscribers.size)] [⟨key, .over forwarded data, callback⟩] ∧
      t.dom = s.dom := by
  have hread (u : Store σ) (hobjects : u.objects = s.objects)
      (hactive : u.active = some s.subscribers.size) :
      ∃ t, run limit ((Source.over forwarded data).read key) u = some (.ok (u.peek field), t) ∧
        u.Enrolled t [(field, s.subscribers.size)] [] ∧ t.dom = u.dom := by
    have hsame : u.field? data key = some field := by
      rw [← hfield]
      exact Store.field?_congr hobjects data key
    obtain ⟨t, hrun, henrolled, hdom⟩ := run_read_over forwarded limit hsame
    rw [Store.tracked, hactive] at henrolled
    exact ⟨t, hrun, henrolled, hdom⟩
  have hconstruct : ∃ t, watch limit (Source.over forwarded data) key callback s =
      some (outcomeOf s.subscribers.size (none : Option ReactiveError), t) ∧
      s.Enrolled t [(field, s.subscribers.size)] [⟨key, .over forwarded data, callback⟩] := by
    refine construct_enrolled _ key callback fun u hobjects hactive _ => ?_
    obtain ⟨t, hrun, henrolled, -⟩ := hread u hobjects hactive
    exact ⟨u.peek field, t, hrun, henrolled⟩
  obtain ⟨t, hconstruct, henrolled⟩ := hconstruct
  refine ⟨t, hconstruct, henrolled, ?_⟩
  -- The read of the construction leaves the nodes alone, and there is nothing else in it.
  obtain ⟨first, after, hafter, hlast⟩ := construct_eq_some.1 hconstruct
  obtain ⟨after', hrun, -, hdom⟩ :=
    hread ((s.subscribe ⟨key, .over forwarded data, callback⟩).withActive
      (some s.subscribers.size)) (Store.subscribe_objects s _) rfl
  obtain ⟨rfl, rfl⟩ := Prod.mk.inj (Option.some.inj (hafter.symm.trans hrun))
  rcases hlast with ⟨_, -, -, rfl⟩ | ⟨_, habsurd, -⟩
  · exact hdom.trans (Store.subscribe_dom s _)
  · cases habsurd

end Engine

/-! ## Binding places -/

/-- Places have been bound one after another, up to the first whose expression is no key. -/
inductive Binds (source : Source σ) (data : ObjectId) :
    List Place → Store σ → Except CompileError (List Binding) → Store σ → Prop
  | nil {s t : Store σ} (henrolled : s.Enrolled t [] []) (hdom : t.dom = s.dom) :
    Binds source data [] s (.ok []) t
  | fails {place : Place} {rest : List Place} {s t : Store σ}
      (hfield : s.field? data place.shown.expression = none) (henrolled : s.Enrolled t [] [])
      (hdom : t.dom = s.dom) :
    Binds source data (place :: rest) s (.error (.bind place.shown.expression place.mode
      (.unknownProperty place.shown.expression))) t
  | binds {place : Place} {rest : List Place} {s t u : Store σ} {field : FieldId}
      {outcome : Except CompileError (List Binding)}
      (hfield : s.field? data place.shown.expression = some field)
      (henrolled : s.Enrolled t (s.tracked field ++ [(field, s.subscribers.size)])
        [place.subscriber source])
      (hdom : t.dom = place.paint (s.peek field) s.dom)
      (hrest : Binds source data rest t outcome u) :
    Binds source data (place :: rest) s
      (outcome.map (place.binding s.subscribers.size :: ·)) u

/-- A compiler with the default directives and updaters on a plain or forwarded data object. -/
def Compiler.standard (start : String) (forwarded : Option (List String)) (data : ObjectId) :
    Compiler σ where
  source := .over forwarded data
  directivePrefix := start

namespace Binds

variable {source : Source σ} {data : ObjectId} {places later : List Place} {s t u : Store σ}
  {outcome : Except CompileError (List Binding)}

/-- What only records comes before the binding. -/
theorem behind (hst : s.Enrolled t [] []) (hdom : t.dom = s.dom)
    (h : Binds source data places t outcome u) : Binds source data places s outcome u := by
  have hpeek (field : FieldId) : t.peek field = s.peek field := by
    unfold Store.peek
    rw [hst.fields]
    rfl
  have hsize : t.subscribers.size = s.subscribers.size := by simpa using hst.size_subscribers
  cases h with
  | nil henrolled hdom' => exact .nil (hst.trans henrolled) (hdom'.trans hdom)
  | fails hfield henrolled hdom' =>
      rw [hst.field?] at hfield
      exact .fails hfield (hst.trans henrolled) (hdom'.trans hdom)
  | binds hfield henrolled hdom' hrest =>
      rw [hst.field?] at hfield
      rw [hpeek, hdom] at hdom'
      have hentered := hst.trans henrolled
      rw [hsize, Store.tracked, hst.active] at hentered
      rw [hsize]
      exact .binds hfield hentered hdom' hrest

/-- Nothing more than a report follows the binding. -/
theorem followed (h : Binds source data places s outcome t) (htu : t.Enrolled u [] [])
    (hdom : u.dom = t.dom) : Binds source data places s outcome u := by
  induction h with
  | nil henrolled hdom' => exact .nil (henrolled.trans htu) (hdom.trans hdom')
  | fails hfield henrolled hdom' => exact .fails hfield (henrolled.trans htu) (hdom.trans hdom')
  | binds hfield henrolled hdom' _ ih => exact .binds hfield henrolled hdom' (ih htu hdom)

theorem append {bindings : List Binding} (h : Binds source data places s (.ok bindings) t)
    (hlater : Binds source data later t outcome u) :
    Binds source data (places ++ later) s (outcome.map (bindings ++ ·)) u := by
  generalize hfirst : (.ok bindings : Except CompileError (List Binding)) = first at h
  induction h generalizing bindings with
  | nil henrolled hdom =>
      obtain rfl := Except.ok.inj hfirst
      cases outcome <;> exact hlater.behind henrolled hdom
  | fails => cases hfirst
  | @binds place rest s t v field outcome' hfield henrolled hdom _ ih =>
      cases outcome' with
      | error e => cases hfirst
      | ok others =>
          obtain rfl := Except.ok.inj hfirst
          have hrest := Binds.binds hfield henrolled hdom (ih hlater rfl)
          cases outcome <;> exact hrest

/-- Behind a failure nothing more is bound. -/
theorem append_of_error {e : CompileError} (h : Binds source data places s (.error e) t)
    (later : List Place) : Binds source data (places ++ later) s (.error e) t := by
  generalize hfirst : (.error e : Except CompileError (List Binding)) = first at h
  induction h with
  | nil => cases hfirst
  | fails hfield henrolled hdom =>
      obtain rfl := Except.error.inj hfirst
      exact .fails hfield henrolled hdom
  | @binds place rest s t v field outcome' hfield henrolled hdom _ ih =>
      cases outcome' with
      | ok others => cases hfirst
      | error e' =>
          obtain rfl := Except.error.inj hfirst
          exact .binds hfield henrolled hdom (ih rfl)

end Binds

/-! ## What a visit binds -/

namespace Compiler

open Session Engine

variable (start : String) (forwarded : Option (List String)) (data : ObjectId) (limit : Nat)

/-- The first paint of a place: a read whose value goes into the nodes. -/
theorem run_paint_over (place : Place) (s : Store σ) :
    (∃ t, s.field? data place.shown.expression = none ∧
      run limit (((Source.over forwarded data).read place.shown.expression).bind
        fun value => .edit (place.paint value)) s =
          some (.error (.unknownProperty place.shown.expression), t) ∧
      s.Enrolled t [] [] ∧ t.dom = s.dom) ∨
    ∃ field t, s.field? data place.shown.expression = some field ∧
      run limit (((Source.over forwarded data).read place.shown.expression).bind
        fun value => .edit (place.paint value)) s = some (.ok .null, t) ∧
      s.Enrolled t (s.tracked field) [] ∧ t.dom = place.paint (s.peek field) s.dom := by
  cases hfield : s.field? data place.shown.expression with
  | none =>
      have hread : run limit ((Source.over forwarded data).read place.shown.expression) s = _ :=
        runWith_read_over forwarded data place.shown.expression s
      rw [hfield] at hread
      refine .inl ⟨_, rfl, ?_, enrolled_heard forwarded place.shown.expression s,
        heard_dom forwarded place.shown.expression s⟩
      rw [run, runWith_bind]
      exact bind_eq_some.2 (.inr ⟨_, hread, rfl⟩)
  | some field =>
      obtain ⟨t, hread, henrolled, hdom⟩ := run_read_over forwarded limit hfield
      refine .inr ⟨field, { t with dom := place.paint (s.peek field) t.dom }, rfl, ?_,
        ⟨henrolled.fields, henrolled.objects, henrolled.subscribers, henrolled.active⟩,
        congrArg (place.paint (s.peek field)) hdom⟩
      rw [run, runWith_bind]
      exact bind_eq_some.2 (.inl ⟨_, t, hread, rfl⟩)

/-- Binding a place by an updater that paints it. -/
theorem bindWith_binds (place : Place) {update : Updater σ}
    (hupdate : update place.node = fun value => .edit (place.paint value)) (s : Store σ) :
    ∃ outcome t, (standard start forwarded data).bindWith limit (some update) place.node
        place.shown.expression place.mode s = some (outcome, t) ∧
      Binds (.over forwarded data) data [place] s (outcome.map ([·])) t := by
  let entered := s.report (.bound place.shown.expression place.mode true)
  have hentered : s.Enrolled entered [] [] := .report s _
  have hsteps : (standard start forwarded data).bindWith limit (some update) place.node
      place.shown.expression place.mode s =
    ((run limit (((Source.over forwarded data).read place.shown.expression).bind
        (update place.node))).mapError (.bind place.shown.expression place.mode) >>= fun _ =>
      (watch limit (Source.over forwarded data) place.shown.expression
        (update place.node)).mapError (.bind place.shown.expression place.mode) >>=
          fun subscriber =>
      pure (place.binding subscriber)) entered := rfl
  rw [hsteps, hupdate]
  rcases run_paint_over forwarded data limit place entered with
    ⟨t, hfield, hrun, henrolled, hdom⟩ | ⟨field, t, hfield, hrun, henrolled, hdom⟩
  · exact ⟨_, t, bind_eq_some.2 (.inr ⟨_, mapError_eq_some.2 ⟨_, hrun, rfl⟩, rfl⟩),
      .fails hfield (hentered.trans henrolled) hdom⟩
  · have hagain : t.field? data place.shown.expression = some field := by
      rw [henrolled.field?, hfield]
    obtain ⟨u, hwatch, hwatched, hdom'⟩ := watch_over forwarded limit
      (fun value => .edit (place.paint value)) hagain
    have hsize : t.subscribers.size = s.subscribers.size := henrolled.size_subscribers
    rw [hsize] at hwatch hwatched
    have hfield' : s.field? data place.shown.expression = some field := hfield
    refine ⟨.ok (place.binding s.subscribers.size), u, bind_eq_some.2 (.inl ⟨_, t,
      mapError_eq_some.2 ⟨_, hrun, rfl⟩, bind_eq_some.2 (.inl ⟨_, u,
        mapError_eq_some.2 ⟨_, hwatch, rfl⟩, rfl⟩)⟩), ?_⟩
    have hbound : s.Enrolled u (s.tracked field ++ [(field, s.subscribers.size)])
        [place.subscriber (.over forwarded data)] := (hentered.trans henrolled).trans hwatched
    exact .binds hfield' hbound (hdom'.trans hdom) (.nil (.refl u) rfl)

/-! Attributes are directives by their names: the start of names, then a mode. -/

theorem dropStart?_eq_some {first cs rest : List Char} :
    dropStart? first cs = some rest ↔ cs = first ++ rest := by
  induction first generalizing cs with
  | nil => simp [dropStart?]
  | cons c first ih =>
      cases cs with
      | nil => simp [dropStart?]
      | cons d cs =>
          simp only [dropStart?, List.cons_append, List.cons.injEq]
          by_cases hsame : c = d
          · rw [if_pos hsame, ih]
            simp [hsame]
          · rw [if_neg hsame]
            simp [Ne.symm hsame]

theorem directiveName?_eq_some {name rest : String} :
    (standard start forwarded data : Compiler σ).directiveName? name = some rest ↔
      name = start ++ rest := by
  have hstart : (standard start forwarded data : Compiler σ).directivePrefix = start := rfl
  unfold directiveName?
  rw [hstart, Option.map_eq_some_iff]
  constructor
  · rintro ⟨cs, hcs, rfl⟩
    rw [dropStart?_eq_some] at hcs
    rw [← String.toList_inj, String.toList_append, String.toList_ofList, hcs]
  · rintro rfl
    exact ⟨rest.toList, dropStart?_eq_some.2 (String.toList_append ..), String.ofList_toList⟩

/-- An attribute that is no directive is passed over, with a report at most. -/
theorem compileAttributes_of_none {entry : String × String} (h : directive? start entry = none)
    (node : NodeId) (rest : List (String × String)) (s : Store σ) :
    ∃ u, s.Enrolled u [] [] ∧ u.dom = s.dom ∧
      (standard start forwarded data).compileAttributes limit node (entry :: rest) s =
        (standard start forwarded data).compileAttributes limit node rest u := by
  obtain ⟨attributeName, expression⟩ := entry
  rw [compileAttributes]
  cases hname : (standard start forwarded data : Compiler σ).directiveName? attributeName with
  | none => exact ⟨s, .refl s, rfl, rfl⟩
  | some name =>
      have hunknown : Table.find? (standard start forwarded data : Compiler σ).directives name =
          none := by
        rw [directiveName?_eq_some] at hname
        subst hname
        unfold directive? at h
        have htext : name ≠ "text" := by
          rintro rfl
          simp at h
        have hhtml : name ≠ "html" := by
          rintro rfl
          simp at h
        simp [standard, Directive.defaults, Table.find?, htext.symm, hhtml.symm]
      dsimp only
      rw [hunknown]
      exact ⟨_, .report s (.unknownDirective name), rfl, rfl⟩

/-- The updater of a default mode shows the value at the place. -/
theorem updater_ofDirective {mode : String} (hmode : mode = "text" ∨ mode = "html") :
    ∃ update : Updater σ, Table.find? Updater.defaults mode = some update ∧
      ∀ node expression, update node =
        fun value => .edit ((Place.ofDirective node (expression, mode)).paint value) := by
  have hrender (expression : String) (value : Value) :
      (⟨expression, "", ""⟩ : Interpolation).render value.display = value.display := by
    simp [Interpolation.render]
  rcases hmode with rfl | rfl
  · refine ⟨Updater.text, rfl, fun node expression => funext fun value => ?_⟩
    refine congrArg Routine.edit (funext fun dom => ?_)
    simp [Place.paint, Place.ofDirective, hrender]
  · refine ⟨Updater.html, rfl, fun node expression => funext fun value => ?_⟩
    refine congrArg Routine.edit (funext fun dom => ?_)
    simp [Place.paint, Place.ofDirective, hrender]

/-- A directive binds its place, and the attributes behind it follow. -/
theorem compileAttributes_of_some {entry : String × String} {expression mode : String}
    (h : directive? start entry = some (expression, mode)) (node : NodeId)
    (rest : List (String × String)) :
    ∃ update : Updater σ, (update node =
        fun value => .edit ((Place.ofDirective node (expression, mode)).paint value)) ∧
      (standard start forwarded data).compileAttributes limit node (entry :: rest) =
        (standard start forwarded data).bindWith limit (some update) node expression mode >>=
          fun binding =>
            (standard start forwarded data).compileAttributes limit node rest >>= fun others =>
              pure (binding :: others) := by
  obtain ⟨attributeName, value⟩ := entry
  have hmode : attributeName = start ++ mode ∧ value = expression ∧
      (mode = "text" ∨ mode = "html") := by
    unfold directive? at h
    split at h
    · next htext =>
        obtain ⟨rfl, rfl⟩ := Prod.mk.inj (Option.some.inj h)
        exact ⟨htext, rfl, .inl rfl⟩
    · split at h
      · next hhtml =>
          obtain ⟨rfl, rfl⟩ := Prod.mk.inj (Option.some.inj h)
          exact ⟨hhtml, rfl, .inr rfl⟩
      · cases h
  obtain ⟨hname, rfl, hmode⟩ := hmode
  obtain ⟨update, hfind, hupdate⟩ := updater_ofDirective (σ := σ) hmode
  refine ⟨update, hupdate node value, ?_⟩
  rw [← directiveName?_eq_some (σ := σ) start forwarded data] at hname
  have hdirective : Table.find? (standard start forwarded data : Compiler σ).directives mode =
      some (Directive.ofMode mode) := by
    rcases hmode with rfl | rfl <;> rfl
  have hbind : (standard start forwarded data : Compiler σ).bind limit node value mode =
      (standard start forwarded data).bindWith limit (some update) node value mode := by
    rw [Compiler.bind]
    exact congrArg (fun update? => bindWith _ limit update? node value mode) hfind
  rw [compileAttributes, hname]
  dsimp only
  rw [hdirective]
  dsimp only
  rw [Directive.ofMode, hbind, bind_map_left]
  rfl

/-- Induction on the attributes. -/
theorem compileAttributes_binds (node : NodeId) (attributes : List (String × String))
    (s : Store σ) :
    ∃ outcome t, (standard start forwarded data).compileAttributes limit node attributes s =
        some (outcome, t) ∧
      Binds (.over forwarded data) data
        ((attributes.filterMap (directive? start)).map (Place.ofDirective node)) s outcome t := by
  induction attributes generalizing s with
  | nil => exact ⟨.ok [], s, rfl, .nil (.refl s) rfl⟩
  | cons entry rest ih =>
      cases hdirective : directive? start entry with
      | none =>
          obtain ⟨u, hu, hdom, hskip⟩ :=
            compileAttributes_of_none start forwarded data limit hdirective node rest s
          obtain ⟨outcome, t, hrun, hbinds⟩ := ih u
          rw [List.filterMap_cons_none hdirective, hskip]
          exact ⟨outcome, t, hrun, hbinds.behind hu hdom⟩
      | some directive =>
          obtain ⟨expression, mode⟩ := directive
          obtain ⟨update, hupdate, hsteps⟩ :=
            compileAttributes_of_some start forwarded data limit hdirective node rest
          obtain ⟨first, u, hfirst, hbinds⟩ := bindWith_binds start forwarded data limit
            (Place.ofDirective node (expression, mode)) hupdate s
          rw [List.filterMap_cons_some hdirective, List.map_cons, hsteps]
          cases first with
          | error e =>
              exact ⟨.error e, u, bind_eq_some.2 (.inr ⟨e, hfirst, rfl⟩),
                hbinds.append_of_error _⟩
          | ok binding =>
              obtain ⟨outcome, t, hrun, hlater⟩ := ih u
              exact ⟨outcome.map (binding :: ·), t, bind_eq_some.2 (.inl ⟨binding, u, hfirst,
                bind_pure_eq_some.2 ⟨outcome, hrun, rfl⟩⟩), hbinds.append hlater⟩

/-- A visit of a node binds its places, if the node is there. -/
theorem compileNode_binds {node : NodeId} {s : Store σ} {cell : NodeCell}
    (hcell : s.dom.cell? node = some cell) :
    ∃ outcome t, (standard start forwarded data).compileNode limit node s = some (outcome, t) ∧
      Binds (.over forwarded data) data (placesAt start node cell) s outcome t := by
  rw [compileNode, inspect_bind, hcell]
  cases cell with
  | element tag attributes children =>
      dsimp only
      rw [inspect_bind, report_bind]
      obtain ⟨outcome, t, hrun, hbinds⟩ :=
        compileAttributes_binds start forwarded data limit node attributes _
      exact ⟨outcome, t, hrun, hbinds.behind (.report s (.element (s.dom.nodeName node))) rfl⟩
  | text text =>
      dsimp only
      rw [compileText, placesAt]
      cases Interpolation.find? text with
      | none => exact ⟨.ok [], s, rfl, .nil (.refl s) rfl⟩
      | some found =>
          dsimp only [Option.toList_some, List.map_cons, List.map_nil]
          rw [report_bind]
          have hupdate : (Updater.within found.before found.after Updater.text node :
              Value → Routine σ) = fun value => .edit (Place.paint ⟨node, found, "text"⟩ value) :=
            rfl
          obtain ⟨outcome, t, hrun, hbinds⟩ := bindWith_binds start forwarded data limit
            ⟨node, found, "text"⟩ hupdate (s.report (.text found.expression))
          exact ⟨outcome.map ([·]), t, bind_pure_eq_some.2 ⟨outcome, hrun, rfl⟩,
            hbinds.behind (.report s (.text found.expression)) rfl⟩
  | comment data => exact ⟨.ok [], s, rfl, .nil (.refl s) rfl⟩
  | document children => exact ⟨.ok [], s, rfl, .nil (.refl s) rfl⟩

/-- A visit that has an outcome has bound the places of its node. -/
theorem binds_of_compileNode {node : NodeId} {s t : Store σ} {cell : NodeCell}
    {outcome : Except CompileError (List Binding)} (hcell : s.dom.cell? node = some cell)
    (hrun : (standard start forwarded data).compileNode limit node s = some (outcome, t)) :
    Binds (.over forwarded data) data (placesAt start node cell) s outcome t := by
  obtain ⟨_, _, hcompile, hbinds⟩ := compileNode_binds start forwarded data limit hcell
  obtain ⟨rfl, rfl⟩ := Prod.mk.inj (Option.some.inj (hrun.symm.trans hcompile))
  exact hbinds

end Compiler

end LiveTemplate
