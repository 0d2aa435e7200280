import LiveTemplate.Proofs.Collector
import LiveTemplate.Proofs.Reactive.Slots
import LiveTemplate.Proofs.Template.Repaint

/-!
# Painters

Compiling constructs a painter for each place that it binds, and registers it once, with the field
of its expression.  A write of a field serves its painters in order, and each paints its place with
the present value.  Nobody is collecting then, so nobody is registered, whatever is painted.
-/

namespace LiveTemplate

variable {σ : Type}

/-! ## What compiling binds -/

/-- The place is at an element, or at a text that is to show a text. -/
def Place.Suits (place : Place) (dom : Dom) : Prop :=
  ∃ cell, dom.cell? place.node = some cell ∧
    (cell.kind = "element" ∨ cell.kind = "text" ∧ place.mode ≠ "html")

theorem Place.Suits.sameHeads {place : Place} {dom dom' : Dom} (h : place.Suits dom)
    (hheads : dom.SameHeads dom') : place.Suits dom' := by
  obtain ⟨cell, hcell, hsuits⟩ := h
  obtain ⟨cell', hcell', hkind, -⟩ := hheads _ cell hcell
  exact ⟨cell', hcell', hkind ▸ hsuits⟩

/-- Painting leaves every node what it is. -/
theorem Place.sameHeads_paintEach (places : List Place) (value : Value) (dom : Dom) :
    dom.SameHeads (Place.paintEach value places dom) := by
  induction places generalizing dom with
  | nil => exact .refl dom
  | cons place rest ih => exact (place.sameHeads_paint value dom).trans (ih _)

theorem Binds.sameHeads {source : Source σ} {data : ObjectId} {places : List Place}
    {s t : Store σ} {outcome : Except CompileError (List Binding)}
    (h : Binds source data places s outcome t) : s.dom.SameHeads t.dom :=
  h.keeps_dom .refl .trans fun place _ => place.sameHeads_paint

namespace Compiler

open Session

/-- What visits keep, and can be followed through, holds over a walk. -/
theorem walk_composes {α : Type} {visit : NodeId → Session σ CompileError (List α)}
    {Q : Store σ → List α → Store σ → Prop} (hnil : ∀ s, Q s [] s)
    (happend : ∀ {s t u own found}, Q s own t → Q t found u → Q s (own ++ found) u)
    (hvisit : ∀ {node s own t}, visit node s = some (.ok own, t) → Q s own t)
    {depth : Nat} {node : NodeId} {s t : Store σ} {found : List α}
    (hrun : walk visit depth node s = some (.ok found, t)) : Q s found t := by
  induction depth generalizing node s found t with
  | zero => cases hrun
  | succ depth ih =>
      rw [walk_succ] at hrun
      generalize s.dom.childrenOf node = children at hrun
      induction children generalizing s found with
      | nil =>
          obtain ⟨rfl, rfl⟩ := pure_ok.1 hrun
          exact hnil _
      | cons child rest ihrest =>
          obtain ⟨own, below, others, u, v, hown, hbelow, hrest, rfl⟩ :=
            forEach_descend_cons_ok.1 hrun
          exact happend (happend (hvisit hown) (ih hbelow)) (ihrest hrest)

variable (start : String) (forwarded : Option (List String)) (data : ObjectId) (limit : Nat)

theorem suits_placesAt {node : NodeId} {dom : Dom} {cell : NodeCell} {place : Place}
    (hcell : dom.cell? node = some cell) (hplace : place ∈ placesAt start node cell) :
    place.Suits dom := by
  have hnode := node_placesAt start hplace
  refine ⟨cell, hnode ▸ hcell, ?_⟩
  cases cell with
  | element tag attributes children => exact .inl rfl
  | text text =>
      obtain ⟨found, -, rfl⟩ := List.mem_map.1 hplace
      exact .inr ⟨rfl, show "text" ≠ "html" by decide⟩
  | comment text => cases hplace
  | document children => cases hplace

/-- A successful visit binds places that suit their nodes, and none if the node is not there. -/
theorem compileNode_suits {node : NodeId} {s t : Store σ} {own : List Binding}
    (hrun : (standard start forwarded data).compileNode limit node s = some (.ok own, t)) :
    ∃ places, Binds (.over forwarded data) data places s (.ok own) t ∧
      ∀ place ∈ places, place.Suits t.dom := by
  cases hcell : s.dom.cell? node with
  | none =>
      rw [compileNode, inspect_bind, hcell] at hrun
      obtain ⟨rfl, rfl⟩ := pure_ok.1 hrun
      exact ⟨[], .nil (.refl _) rfl, fun _ h => absurd h List.not_mem_nil⟩
  | some cell =>
      have hbinds := binds_of_compileNode start forwarded data limit hcell hrun
      exact ⟨_, hbinds, fun place hplace =>
        (suits_placesAt start hcell hplace).sameHeads hbinds.sameHeads⟩

/-- So does a whole compilation. -/
theorem compile_suits {root : NodeId} {s t : Store σ} {report : List Binding}
    (hrun : (standard start forwarded data).compile limit root s = some (.ok report, t)) :
    ∃ places, Binds (.over forwarded data) data places s (.ok report) t ∧
      ∀ place ∈ places, place.Suits t.dom := by
  obtain ⟨found, u, hwalk, hlast⟩ := bind_ok.1 hrun
  rw [report_bind] at hlast
  obtain ⟨rfl, rfl⟩ := pure_ok.1 hlast
  have hbound := walk_composes
    (Q := fun s found t => ∃ places, Binds (.over forwarded data) data places s (.ok found) t ∧
      ∀ place ∈ places, place.Suits t.dom)
    (fun s => ⟨[], .nil (.refl s) rfl, fun _ h => absurd h List.not_mem_nil⟩)
    (fun ⟨places, hfirst, hsuits⟩ ⟨later, hlast, hsuits'⟩ =>
      ⟨places ++ later, hfirst.append hlast, List.forall_mem_append.2
        ⟨fun place hplace => (hsuits place hplace).sameHeads hlast.sameHeads, hsuits'⟩⟩)
    (fun hvisit => compileNode_suits start forwarded data limit hvisit) hwalk
  obtain ⟨places, hbinds, hsuits⟩ := hbound
  exact ⟨places, hbinds.followed (.report u _) rfl, hsuits⟩

end Compiler

/-! ## Painters and their places -/

/-- The painters that are registered with a field: those whose expression is a key of it. -/
def Store.postedTo (s : Store σ) (data : ObjectId) (roster : List (SubscriberId × Place))
    (field : FieldId) : List (SubscriberId × Place) :=
  roster.filter fun entry => s.field? data entry.2.shown.expression = some field

/-- The registrations of painters, each with the field of its expression. -/
def Store.postings (s : Store σ) (data : ObjectId) (roster : List (SubscriberId × Place)) :
    List Registration :=
  roster.filterMap fun entry => (s.field? data entry.2.shown.expression).map (·, entry.1)

theorem Store.registeredWith_postings (s : Store σ) (data : ObjectId)
    (roster : List (SubscriberId × Place)) (field : FieldId) :
    registeredWith field (s.postings data roster) =
      (s.postedTo data roster field).map Prod.fst := by
  unfold registeredWith postings postedTo
  induction roster with
  | nil => rfl
  | cons entry rest ih =>
      cases hkey : s.field? data entry.2.shown.expression with
      | none => simpa [hkey] using ih
      | some other => by_cases hother : other = field <;> simpa [hkey, hother] using ih

theorem Store.postedTo_of_slots {s t : Store σ} {data : ObjectId}
    (h : ∀ key, t.field? data key = s.field? data key) (roster : List (SubscriberId × Place))
    (field : FieldId) : t.postedTo data roster field = s.postedTo data roster field := by
  unfold postedTo
  simp only [h]

theorem Store.postedTo_congr {s t : Store σ} (h : t.objects = s.objects) (data : ObjectId)
    (roster : List (SubscriberId × Place)) (field : FieldId) :
    t.postedTo data roster field = s.postedTo data roster field :=
  postedTo_of_slots (field?_congr h data) roster field

/-- The registrations that binding places makes, each with the field of its expression: when a place
is first painted, that of whoever is collecting, and then that of its painter. -/
def Store.bookings (s : Store σ) (data : ObjectId) (roster : List (SubscriberId × Place)) :
    List Registration :=
  roster.flatMap fun entry => (s.field? data entry.2.shown.expression).toList.flatMap fun field =>
    s.tracked field ++ [(field, entry.1)]

theorem Store.bookings_of_idle {s : Store σ} (hidle : s.active = none) (data : ObjectId)
    (roster : List (SubscriberId × Place)) : s.bookings data roster = s.postings data roster := by
  unfold bookings postings
  induction roster with
  | nil => rfl
  | cons entry rest ih =>
      rw [List.flatMap_cons, List.filterMap_cons, ih]
      cases s.field? data entry.2.shown.expression with
      | none => rfl
      | some field => simp [tracked_of_idle hidle]

theorem Store.registeredWith_bookings (s : Store σ) (data : ObjectId)
    (roster : List (SubscriberId × Place)) (field : FieldId) :
    registeredWith field (s.bookings data roster) =
      (s.postedTo data roster field).flatMap fun entry => s.active.toList ++ [entry.1] := by
  unfold registeredWith bookings postedTo tracked
  induction roster with
  | nil => rfl
  | cons entry rest ih =>
      rw [List.flatMap_cons, List.filterMap_append, ih]
      cases hkey : s.field? data entry.2.shown.expression with
      | none => simp [hkey]
      | some other =>
          by_cases hother : other = field
          · cases s.active <;> simp [hkey, hother]
          · cases s.active <;> simp [hkey, hother]

/-- New painters have been constructed, one after another, and each is registered once.  Whoever was
collecting meanwhile is registered before each of them. -/
structure Enlisted (source : Source σ) (data : ObjectId) (roster : List (SubscriberId × Place))
    (s t : Store σ) : Prop where
  names : roster.map Prod.fst = List.range' s.subscribers.size roster.length
  painters : ∀ entry ∈ roster, t.subscribers[entry.1]? = some (entry.2.subscriber source)
  enrolled : s.Enrolled t (s.bookings data roster)
    (roster.map fun entry => entry.2.subscriber source)

theorem Enlisted.registrations {source : Source σ} {data : ObjectId}
    {roster : List (SubscriberId × Place)} {s t : Store σ} (h : Enlisted source data roster s t)
    (hapart : s.Apart data) (field : FieldId) :
    t.registrations field = s.registrations field ++
      (s.postedTo data roster field).flatMap fun entry => s.active.toList ++ [entry.1] := by
  by_cases hfield : field < s.fields.size
  · rw [← Store.registeredWith_bookings]
    exact h.enrolled.registrations hfield
  · -- A field that is not there belongs to no key.
    have hle := Nat.le_of_not_lt hfield
    have hnobody : s.postedTo data roster field = [] :=
      List.filter_eq_nil_iff.2 fun entry _ => by
        simpa using fun hkey => hfield (hapart.there _ field hkey)
    have hsize : t.fields.size = s.fields.size := by rw [h.enrolled.fields, size_enroll]
    rw [hnobody, Store.registrations_of_size_le hle,
      Store.registrations_of_size_le (hsize ▸ hle)]
    rfl

/-- Binding places constructs their painters. -/
theorem Binds.enlisted {source : Source σ} {data : ObjectId} {places : List Place} {s t : Store σ}
    {bindings : List Binding} (h : Binds source data places s (.ok bindings) t) :
    ∃ roster, roster.map Prod.snd = places ∧
      bindings = roster.map (fun entry => entry.2.binding entry.1) ∧
      Enlisted source data roster s t := by
  generalize hfirst : (.ok bindings : Except CompileError (List Binding)) = first at h
  induction h generalizing bindings with
  | nil henrolled hdom =>
      obtain rfl := Except.ok.inj hfirst
      exact ⟨[], rfl, rfl, rfl, fun _ h => absurd h List.not_mem_nil, henrolled⟩
  | fails => cases hfirst
  | @binds place rest s t u field outcome hfield henrolled hdom _ ih =>
      cases outcome with
      | error e => cases hfirst
      | ok others =>
          obtain rfl := Except.ok.inj hfirst
          obtain ⟨roster, rfl, rfl, hnames, hpainters, hlater⟩ := ih rfl
          have hsize : t.subscribers.size = s.subscribers.size + 1 := henrolled.size_subscribers
          have hself : t.subscribers[s.subscribers.size]? = some (place.subscriber source) := by
            rw [← Array.getElem?_toList, henrolled.subscribers]
            simp
          refine ⟨(s.subscribers.size, place) :: roster, rfl, rfl, ?_,
            List.forall_mem_cons.2 ⟨hlater.getElem?_subscribers hself, hpainters⟩, ?_⟩
          · rw [List.map_cons, hnames, hsize]
            rfl
          · have hbookings : s.bookings data ((s.subscribers.size, place) :: roster) =
                (s.tracked field ++ [(field, s.subscribers.size)]) ++ t.bookings data roster := by
              unfold Store.bookings Store.tracked
              rw [List.flatMap_cons, hfield, henrolled.active]
              simp only [Option.toList_some, List.flatMap_singleton, henrolled.field?]
            rw [hbookings]
            exact henrolled.trans hlater

/-- New painters have been constructed, one after another, and each is registered once. -/
structure Manned (source : Source σ) (data : ObjectId) (roster : List (SubscriberId × Place))
    (s t : Store σ) : Prop where
  names : roster.map Prod.fst = List.range' s.subscribers.size roster.length
  painters : ∀ entry ∈ roster, t.subscribers[entry.1]? = some (entry.2.subscriber source)
  enrolled : s.Enrolled t (s.postings data roster)
    (roster.map fun entry => entry.2.subscriber source)

theorem Enlisted.manned {source : Source σ} {data : ObjectId}
    {roster : List (SubscriberId × Place)} {s t : Store σ} (h : Enlisted source data roster s t)
    (hidle : s.active = none) : Manned source data roster s t :=
  ⟨h.names, h.painters, Store.bookings_of_idle hidle data roster ▸ h.enrolled⟩

/-- Binding places while nobody is collecting registers their painters and nobody else. -/
theorem Binds.manned {source : Source σ} {data : ObjectId} {places : List Place} {s t : Store σ}
    {bindings : List Binding} (h : Binds source data places s (.ok bindings) t)
    (hidle : s.active = none) :
    ∃ roster, roster.map Prod.snd = places ∧
      bindings = roster.map (fun entry => entry.2.binding entry.1) ∧
      Manned source data roster s t := by
  obtain ⟨roster, hplaces, hbindings, henlisted⟩ := h.enlisted
  exact ⟨roster, hplaces, hbindings, henlisted.manned hidle⟩

/-- The painters are the only subscribers of the data, each registered once, in order. -/
structure Crewed (source : Source σ) (data : ObjectId) (roster : List (SubscriberId × Place))
    (s : Store σ) : Prop where
  idle : s.active = none
  registrations : ∀ key field, s.field? data key = some field →
    ∃ cell, s.fields[field]? = some cell ∧
      cell.registrations = (s.postedTo data roster field).map Prod.fst
  painters : ∀ entry ∈ roster, s.subscribers[entry.1]? = some (entry.2.subscriber source)

/-- New painters are the only subscribers of data that had none before. -/
theorem Manned.crewed {source : Source σ} {data : ObjectId}
    {roster : List (SubscriberId × Place)} {s t : Store σ} (h : Manned source data roster s t)
    (hidle : s.active = none) (hapart : s.Apart data) (hunwatched : s.Unwatched data) :
    Crewed source data roster t where
  idle := h.enrolled.active.trans hidle
  registrations key field hfield := by
    rw [h.enrolled.field?] at hfield
    obtain ⟨cell, hcell⟩ : ∃ cell, s.fields[field]? = some cell :=
      ⟨_, Array.getElem?_eq_getElem (hapart.there key field hfield)⟩
    have hnone := hunwatched key field hfield
    unfold Store.registrations at hnone
    rw [hcell, Option.map_some, Option.getD_some] at hnone
    refine ⟨_, by rw [h.enrolled.fields, getElem?_enroll, hcell]; rfl, ?_⟩
    rw [Store.postedTo_congr h.enrolled.objects, ← Store.registeredWith_postings]
    exact congrArg (· ++ registeredWith field (s.postings data roster)) hnone
  painters := h.painters

/-! ## Writes -/

/-- What a write of a field has done: the field has the value, unless it had the same one before,
the places show the present value, and nothing else has changed. -/
structure Store.Written (s : Store σ) (field : FieldId) (value : Value) (places : List Place)
    (t : Store σ) : Prop where
  objects : t.objects = s.objects
  peek : t.peek = Function.update s.peek field
    (if (s.peek field).sameValue value then s.peek field else value)
  registrations : ∀ other, t.registrations other = s.registrations other
  dom : t.dom = Place.paintEach (t.peek field) places s.dom

namespace Crewed

open Session Engine

variable {source : Source σ} {forwarded : Option (List String)} {data : ObjectId}
  {roster : List (SubscriberId × Place)} {s t : Store σ} (fuel : Nat)

theorem enrolled (h : Crewed source data roster s) (hst : s.Enrolled t [] []) :
    Crewed source data roster t where
  idle := hst.active.trans h.idle
  registrations key field hfield := by
    rw [hst.field?] at hfield
    obtain ⟨cell, hcell, hregistrations⟩ := h.registrations key field hfield
    refine ⟨cell, by rw [hst.fields]; exact hcell, ?_⟩
    rw [Store.postedTo_congr hst.objects, hregistrations]
  painters entry hentry := hst.getElem?_subscribers (h.painters entry hentry)

theorem assign (h : Crewed source data roster s) (field : FieldId) (value : Value) :
    Crewed source data roster (s.assign field value) where
  idle := (s.assign_active field value).trans h.idle
  registrations key other hother := by
    rw [Store.field?_congr (s.assign_objects field value)] at hother
    obtain ⟨cell, hcell, hregistrations⟩ := h.registrations key other hother
    obtain ⟨later, hlater, -, hsame, -⟩ := s.assign_field field value hcell
    refine ⟨later, hlater, ?_⟩
    rw [Store.postedTo_congr (s.assign_objects field value), hsame, hregistrations]
  painters entry hentry := by
    rw [s.assign_subscribers field value]
    exact h.painters entry hentry

/-- A write of a field goes through, paints the places of the field, and changes nothing else. -/
theorem set (h : Crewed (.over forwarded data) data roster s) {key : String} {field : FieldId}
    (hfield : s.field? data key = some field) (value : Value) :
    ∃ t, Engine.set (recompute (fuel + 1)) field value s = some (.ok .null, t) ∧
      s.Written field value ((s.postedTo data roster field).map Prod.snd) t ∧
      Crewed (.over forwarded data) data roster t := by
  obtain ⟨old, hold, -⟩ := h.registrations key field hfield
  have hobjects := s.assign_objects field value
  have hassigned := h.assign field value
  obtain ⟨cell, hcell, hregistrations⟩ :=
    hassigned.registrations key field ((Store.field?_congr hobjects data key).trans hfield)
  rw [Store.postedTo_congr hobjects] at hregistrations
  have hreported : (s.assign field value).Enrolled
      ((s.assign field value).report (.notified cell.registrations.length)) [] [] := .report _ _
  have hnotified := hassigned.enrolled hreported
  -- The painters are served when the field has its value, and before anything else is written.
  have hvalue : ∀ entry ∈ s.postedTo data roster field,
      ((s.assign field value).report (.notified cell.registrations.length)).valueOf? data
        entry.2.shown.expression = some ((s.assign field value).peek field) := by
    intro entry hentry
    have hshows : s.field? data entry.2.shown.expression = some field :=
      of_decide_eq_true (List.mem_filter.1 hentry).2
    rw [hreported.sameData.valueOf?, Store.valueOf?, Store.field?_congr hobjects, hshows]
    rfl
  have hpainters : ∀ entry ∈ s.postedTo data roster field,
      ((s.assign field value).report (.notified cell.registrations.length)).subscribers[entry.1]? =
        some (entry.2.subscriber (.over forwarded data)) :=
    fun entry hentry => hnotified.painters entry (List.mem_filter.1 hentry).1
  obtain ⟨t, hfast, hcollect, hst, hdom⟩ :=
    Live.serve_painters fuel hnotified.idle hpainters hvalue
  rw [← hregistrations] at hfast hcollect
  have hdata : (s.assign field value).SameData t := (hreported.trans hst).sameData
  have hpeek : t.peek = (s.assign field value).peek := funext hdata.peek
  refine ⟨t, Live.notify_of_served hcell hfast hcollect,
    ⟨hdata.objects.trans hobjects, ?_, fun other => ?_, ?_⟩, hnotified.enrolled hst⟩
  · rw [hpeek]
    exact Store.peek_assign hold value
  · rw [hst.registrations_of_nil, hreported.registrations_of_nil, Store.registrations_assign]
  · rw [hdom, hpeek]
    exact congrArg _ (s.assign_dom field value)

/-- So does a write of a key, as it is or through a table of forwarded keys. -/
theorem write (h : Crewed (.over forwarded data) data roster s) {key : String} {field : FieldId}
    (writer : Option (List String)) (hfield : s.field? data key = some field) (value : Value) :
    ∃ t, run (fuel + 1) ((Source.over writer data).write key value) s = some (.ok .null, t) ∧
      s.Written field value ((s.postedTo data roster field).map Prod.snd) t ∧
      Crewed (.over forwarded data) data roster t := by
  have hheard := enrolled_heard writer key s
  obtain ⟨t, hset, hwritten, hcrewed⟩ :=
    (h.enrolled hheard).set fuel ((hheard.field? data key).trans hfield) value
  have hpeek : (heard writer key s).peek = s.peek := funext hheard.sameData.peek
  refine ⟨t, ?_, ⟨hwritten.objects.trans hheard.objects, ?_, fun other => ?_, ?_⟩, hcrewed⟩
  · have hwrite : run (fuel + 1) ((Source.over writer data).write key value) s = _ :=
      runWith_write_over writer hfield value
    rw [hwrite, runWith_setField]
    exact hset
  · rw [hwritten.peek, hpeek]
  · rw [hwritten.registrations, hheard.registrations_of_nil]
  · rw [hwritten.dom, heard_dom, Store.postedTo_congr hheard.objects]

end Crewed

/-! ## Writes in sequence -/

/-- Write keys one after another, up to the first write that fails. -/
def Source.writeAll (source : Source σ) (limit : Nat) :
    List (String × Value) → Engine.ReactiveSession σ Unit
  | [] => pure ()
  | (key, value) :: rest =>
    Engine.run limit (source.write key value) >>= fun _ => writeAll source limit rest

/-- All writes of present keys go through, and what each of them keeps holds in the end.  The
property may speak of the writes done so far. -/
theorem Crewed.writeAll {forwarded : Option (List String)} {data : ObjectId}
    {roster : List (SubscriberId × Place)} {s : Store σ}
    (h : Crewed (.over forwarded data) data roster s) (fuel : Nat) (writer : Option (List String))
    {entries : List (String × Value)} (hkeys : ∀ entry ∈ entries, (s.field? data entry.1).isSome)
    {I : List (String × Value) → Store σ → Prop} (hstart : I [] s)
    (hstep : ∀ {done u v key field value}, I done u → u.field? data key = some field →
      u.Written field value ((u.postedTo data roster field).map Prod.snd) v →
      I (done ++ [(key, value)]) v) :
    ∃ t, (Source.over writer data).writeAll (fuel + 1) entries s = some (.ok (), t) ∧
      t.objects = s.objects ∧ Crewed (.over forwarded data) data roster t ∧ I entries t := by
  -- The property counts the writes that are done, so some may have been done before.
  suffices hall : ∀ {done : List (String × Value)}, I done s →
      ∃ t, (Source.over writer data).writeAll (fuel + 1) entries s = some (.ok (), t) ∧
        t.objects = s.objects ∧ Crewed (.over forwarded data) data roster t ∧
        I (done ++ entries) t from hall hstart
  clear hstart
  induction entries generalizing s with
  | nil => exact fun hdone => ⟨s, rfl, rfl, h, by rwa [List.append_nil]⟩
  | cons entry rest ih =>
      intro done hdone
      obtain ⟨key, value⟩ := entry
      obtain ⟨field, hfield⟩ := Option.isSome_iff_exists.1 (hkeys (key, value) List.mem_cons_self)
      obtain ⟨u, hrun, hwritten, hcrewed⟩ := h.write fuel writer hfield value
      obtain ⟨t, hrest, hobjects, hlater, hlast⟩ := ih hcrewed (fun other hother => by
        rw [Store.field?_congr hwritten.objects]
        exact hkeys other (List.mem_cons_of_mem _ hother)) (hstep hdone hfield hwritten)
      refine ⟨t, Session.bind_ok.2 ⟨.null, u, hrun, hrest⟩, hobjects.trans hwritten.objects,
        hlater, ?_⟩
      rwa [List.append_assoc] at hlast

/-! ## Other operations in between -/

/-- The operation writes data, by a key or by a field of it, or makes other data reactive. -/
inductive Operation.Feeds (s : Store σ) (data : ObjectId) : Operation σ → Prop
  | write (writer : Option (List String)) (key : String) (value : Value) :
    Feeds s data (.write (.over writer data) key value)
  | set {key : String} {field : FieldId} (hfield : s.field? data key = some field) (value : Value) :
    Feeds s data (.set field value)
  | observe (json : Json) (policy : NotifyPolicy) : Feeds s data (.observe json policy)

theorem Operation.Feeds.of_slots {s t : Store σ} {data : ObjectId} {operation : Operation σ}
    (h : operation.Feeds s data) (hslots : ∀ key, t.field? data key = s.field? data key) :
    operation.Feeds t data := by
  cases h with
  | write writer key value => exact .write writer key value
  | set hfield value => exact .set ((hslots _).trans hfield) value
  | observe json policy => exact .observe json policy

namespace Crewed

variable {forwarded : Option (List String)} {data : ObjectId}
  {roster : List (SubscriberId × Place)} {s t : Store σ}

/-- Data that is made reactive has no share in the data that is there. -/
theorem observe {source : Source σ} (h : Crewed source data roster s)
    (hthere : data < s.objects.size) (policy : NotifyPolicy) (json : Json) :
    Crewed source data roster (s.observe policy json).1 := by
  have hextended := Store.Extended.observe policy s json
  have hslots := hextended.field? hthere
  have hsubscribers : (s.observe policy json).1.subscribers = s.subscribers :=
    RequestProgress.sameSubscribers.observe policy s json
  have hactive : (s.observe policy json).1.active = s.active :=
    Progress.sameActive.toObserveProgress.observe policy s json
  refine ⟨hactive.trans h.idle, fun key field hfield => ?_, fun entry hentry => ?_⟩
  · obtain ⟨cell, hcell, hregistrations⟩ := h.registrations key field (hslots key ▸ hfield)
    refine ⟨cell, ?_, hregistrations.trans ?_⟩
    · rw [hextended.fields field (Array.getElem?_eq_some_iff.1 hcell).1]
      exact hcell
    · rw [Store.postedTo_of_slots hslots]
  · rw [hsubscribers]
    exact h.painters entry hentry

/-- An operation that feeds the data comes to an end.  It paints the places of one field at most,
and leaves the slots of the data. -/
theorem perform (h : Crewed (.over forwarded data) data roster s) (fuel : Nat)
    (hthere : data < s.objects.size) {operation : Operation σ}
    (hfeeds : operation.Feeds s data) (rest : List (Operation σ)) :
    ∃ t, Operation.performAll (fuel + 1) (operation :: rest) s =
        Operation.performAll (fuel + 1) rest t ∧
      Crewed (.over forwarded data) data roster t ∧ s.objects.size ≤ t.objects.size ∧
      (∀ key, t.field? data key = s.field? data key) ∧
      (t.dom = s.dom ∨ ∃ field value,
        t.dom = Place.paintEach value ((s.postedTo data roster field).map Prod.snd) s.dom) := by
  have hwritten {u t : Store σ} {field : FieldId} {value : Value} {places : List Place}
      (h : u.Written field value places t) : u.objects.size ≤ t.objects.size ∧
        ∀ key, t.field? data key = u.field? data key :=
    ⟨h.objects ▸ Nat.le_refl _, Store.field?_congr h.objects data⟩
  cases hfeeds with
  | write writer key value =>
      cases hfield : s.field? data key with
      | none =>
          have hheard := Engine.enrolled_heard writer key s
          have hrun : Engine.run (fuel + 1) ((Source.over writer data).write key value) s = _ :=
            Engine.runWith_write_over_of_none writer hfield value
          exact ⟨_, Operation.performAll_cons rfl hrun, h.enrolled hheard,
            hheard.objects ▸ Nat.le_refl _, hheard.field? data,
            .inl (Engine.heard_dom writer key s)⟩
      | some field =>
          obtain ⟨t, hrun, hchange, hcrewed⟩ := h.write fuel writer hfield value
          obtain ⟨hsize, hslots⟩ := hwritten hchange
          exact ⟨t, Operation.performAll_cons rfl hrun, hcrewed, hsize, hslots,
            .inr ⟨field, _, hchange.dom⟩⟩
  | @set key field hfield value =>
      obtain ⟨t, hset, hchange, hcrewed⟩ := h.set fuel hfield value
      have hrun : Engine.run (fuel + 1) (.setField field value) s = some (.ok .null, t) := by
        rw [Engine.run, Engine.runWith_setField]
        exact hset
      obtain ⟨hsize, hslots⟩ := hwritten hchange
      exact ⟨t, Operation.performAll_cons rfl hrun, hcrewed, hsize, hslots,
        .inr ⟨field, _, hchange.dom⟩⟩
  | observe json policy =>
      have hextended := Store.Extended.observe policy s json
      exact ⟨_, Operation.performAll_cons rfl rfl, h.observe hthere policy json,
        hextended.size_objects, hextended.field? hthere,
        .inl (ObserveProgress.sameDom.observe policy s json)⟩

/-- All operations that feed the data come to an end, and what painting the places of a field
keeps holds then. -/
theorem performAll (h : Crewed (.over forwarded data) data roster s) (fuel : Nat)
    (hthere : data < s.objects.size) {operations : List (Operation σ)}
    (hfeeds : ∀ operation ∈ operations, operation.Feeds s data) {I : Dom → Prop}
    (hstart : I s.dom)
    (hstep : ∀ (field : FieldId) (value : Value) (dom : Dom), s.dom.SameHeads dom → I dom →
      I (Place.paintEach value ((s.postedTo data roster field).map Prod.snd) dom)) :
    ∃ t, Operation.performAll (fuel + 1) operations s = some t ∧
      Crewed (.over forwarded data) data roster t ∧
      (∀ key, t.field? data key = s.field? data key) ∧ s.dom.SameHeads t.dom ∧ I t.dom := by
  induction operations generalizing s with
  | nil => exact ⟨s, rfl, h, fun _ => rfl, .refl s.dom, hstart⟩
  | cons operation rest ih =>
      obtain ⟨hfirst, hrest⟩ := List.forall_mem_cons.1 hfeeds
      obtain ⟨u, hperform, hcrewed, hsize, hslots, hdom⟩ := h.perform fuel hthere hfirst rest
      have hpainted : s.dom.SameHeads u.dom ∧ I u.dom := by
        rcases hdom with hdom | ⟨field, value, hdom⟩
        · rw [hdom]
          exact ⟨.refl s.dom, hstart⟩
        · rw [hdom]
          exact ⟨Place.sameHeads_paintEach _ value s.dom,
            hstep field value s.dom (.refl s.dom) hstart⟩
      obtain ⟨t, hlast, hcrewed', hslots', hheads, hdone⟩ := ih hcrewed
        (Nat.lt_of_lt_of_le hthere hsize)
        (fun other hother => (hrest other hother).of_slots hslots) hpainted.2
        fun field value dom hheads => by
          rw [Store.postedTo_of_slots hslots]
          exact hstep field value dom (hpainted.1.trans hheads)
      exact ⟨t, hperform.trans hlast, hcrewed', fun key => (hslots' key).trans (hslots key),
        hpainted.1.trans hheads, hdone⟩

/-- The slots of the data have their fields. -/
theorem apart {source : Source σ} (h : Crewed source data roster t) (hapart : s.Apart data)
    (hslots : ∀ key, t.field? data key = s.field? data key) : t.Apart data where
  there key field hfield := by
    obtain ⟨cell, hcell, -⟩ := h.registrations key field hfield
    exact (Array.getElem?_eq_some_iff.1 hcell).1
  unique key key' field hfield hfield' :=
    hapart.unique key key' field (hslots key ▸ hfield) (hslots key' ▸ hfield')

end Crewed

end LiveTemplate
