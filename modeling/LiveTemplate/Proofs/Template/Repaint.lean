import LiveTemplate.Proofs.Interface
import LiveTemplate.Proofs.Template.Layout

/-!
# Repainting

Behind a compilation the subscribers of the data are the painters of its places, each registered
with the field of its expression, after some that only look on.  A write paints the places of its
field again, with what compiling would paint there: between writes each place shows the present
value of its key.
-/

namespace LiveTemplate

variable {σ : Type}

/-- What places show under the present values, by node. -/
def Store.showing? (s : Store σ) (data : ObjectId) (places : List Place) (node : NodeId) :
    Option String :=
  (places.find? fun place => place.node = node).bind fun place =>
    (s.valueOf? data place.shown.expression).map fun value => place.shown.render value.display

/-- Show a value at places, one after another. -/
def Place.paintEach (value : Value) (places : List Place) (dom : Dom) : Dom :=
  places.foldl (fun dom place => place.paint value dom) dom

/-- Each of the places shows the value then. -/
theorem Dom.Painted.paintEach {base dom : Dom} {text? shown? : NodeId → Option String}
    {value : Value} {places : List Place} (h : base.Painted text? dom)
    (hfits : ∀ place ∈ places, place.Fits base)
    (hshown : ∀ place ∈ places, shown? place.node = some (place.shown.render value.display)) :
    base.Painted (fun m => if m ∈ places.map Place.node then shown? m else text? m)
      (Place.paintEach value places dom) := by
  induction places generalizing dom text? with
  | nil => simpa [Place.paintEach] using h
  | cons place rest ih =>
      have hrest := ih ((hfits place List.mem_cons_self).paint h value)
        (fun other hother => hfits other (List.mem_cons_of_mem _ hother))
        (fun other hother => hshown other (List.mem_cons_of_mem _ hother))
      refine (congrArg (fun text? => base.Painted text? _) (funext fun m => ?_)).mp hrest
      rw [List.map_cons]
      by_cases hlater : m ∈ rest.map Place.node
      · rw [if_pos hlater, if_pos (List.mem_cons_of_mem _ hlater)]
      · rw [if_neg hlater]
        by_cases hm : m = place.node
        · rw [hm, Function.update_self, if_pos List.mem_cons_self,
            hshown place List.mem_cons_self]
        · rw [Function.update_of_ne hm,
            if_neg (fun h => (List.mem_cons.1 h).elim hm hlater)]

namespace Store

variable {s t : Store σ} {data : ObjectId} {places : List Place} {place : Place} {value : Value}

theorem SameData.showing? (h : s.SameData t) (data : ObjectId) (places : List Place) :
    t.showing? data places = s.showing? data places := by
  funext node
  unfold Store.showing?
  simp only [h.valueOf?]

theorem showing?_of_mem (hnodup : (places.map Place.node).Nodup) (hplace : place ∈ places)
    (hvalue : s.valueOf? data place.shown.expression = some value) :
    s.showing? data places place.node = some (place.shown.render value.display) := by
  have hfind : places.find? (fun other => other.node = place.node) = some place := by
    induction places with
    | nil => cases hplace
    | cons other rest ih =>
        obtain ⟨hother, hnodup⟩ := List.nodup_cons.1 hnodup
        rcases List.mem_cons.1 hplace with rfl | hplace
        · rw [List.find?_cons_of_pos (by simp)]
        · have hne : other.node ≠ place.node := fun h => hother (h ▸ List.mem_map_of_mem hplace)
          rw [List.find?_cons_of_neg (by simpa using hne)]
          exact ih hnodup hplace
  unfold Store.showing?
  rw [hfind, Option.bind_some, hvalue]
  rfl

/-- One place more shows its own value. -/
theorem showing?_append (hnode : place.node ∉ places.map Place.node)
    (hvalue : s.valueOf? data place.shown.expression = some value) :
    s.showing? data (places ++ [place]) =
      Function.update (s.showing? data places) place.node
        (some (place.shown.render value.display)) := by
  funext m
  unfold Store.showing?
  rw [List.find?_append]
  by_cases hm : m = place.node
  · subst hm
    have hnone : places.find? (fun other => other.node = place.node) = none := by
      refine List.find?_eq_none.2 fun other hother => ?_
      have hne : other.node ≠ place.node := fun h => hnode (h ▸ List.mem_map_of_mem hother)
      simpa using hne
    rw [hnone, Function.update_self]
    simp [hvalue]
  · rw [Function.update_of_ne hm, List.find?_cons_of_neg (by simpa using fun h => hm h.symm)]
    simp

theorem peek_assign {field : FieldId} {cell : FieldCell} (hcell : s.fields[field]? = some cell)
    (value : Value) :
    (s.assign field value).peek = Function.update s.peek field
      (if (s.peek field).sameValue value then s.peek field else value) := by
  funext other
  unfold assign
  by_cases hsame : (s.peek field).sameValue value
  · rw [if_pos hsame, if_pos hsame, Function.update_eq_self]
  · rw [if_neg hsame, if_neg hsame]
    by_cases hother : other = field
    · subst hother
      rw [Function.update_self]
      simp [peek, report, record, Array.getElem?_modify, hcell]
    · rw [Function.update_of_ne hother]
      simp [peek, report, record, Array.getElem?_modify, Ne.symm hother]

/-- A write matters only where its field is shown. -/
theorem showing?_assign {field : FieldId} {cell : FieldCell} {node : NodeId}
    (hcell : s.fields[field]? = some cell) (value : Value)
    (hother : ∀ place ∈ places, place.node = node →
      s.field? data place.shown.expression ≠ some field) :
    (s.assign field value).showing? data places node = s.showing? data places node := by
  unfold Store.showing?
  cases hfind : places.find? fun place => place.node = node with
  | none => rfl
  | some place =>
      have hfield := hother place (List.mem_of_find?_eq_some hfind)
        (by simpa using List.find?_some hfind)
      have hvalue : (s.assign field value).valueOf? data place.shown.expression =
          s.valueOf? data place.shown.expression := by
        unfold Store.valueOf?
        rw [field?_congr (assign_objects s field value), peek_assign hcell]
        cases hkey : s.field? data place.shown.expression with
        | none => rfl
        | some other =>
            have hne : other ≠ field := fun h => hfield (h ▸ hkey)
            rw [Option.map_some, Option.map_some, Function.update_of_ne hne]
      rw [Option.bind_some, Option.bind_some, hvalue]

end Store

/-- The subscriber does nothing but look at objects as they are: recomputing it goes through, and
leaves data, subscribers and nodes alone. -/
def Subscriber.LooksOn (objects : Array ObjectCell) (cell : Subscriber σ) : Prop :=
  ∀ (fuel : Nat) (s : Store σ), s.objects = objects → s.active = none →
    ∃ value t, Engine.runWith (Engine.recompute fuel) ((cell.source.read cell.key).bind
      cell.callback) s = some (.ok value, t) ∧ s.Enrolled t [] [] ∧ t.dom = s.dom

/-- The subscribers of the data are, in this order, some that only look on, and the painters of
places, one for each. -/
structure Staffed (base : Dom) (source : Source σ) (data : ObjectId)
    (onlookers : FieldId → List SubscriberId) (roster : List (SubscriberId × Place))
    (s : Store σ) : Prop where
  idle : s.active = none
  registrations : ∀ key field, s.field? data key = some field →
    ∃ cell, s.fields[field]? = some cell ∧ cell.registrations = onlookers field ++
      (roster.filter fun entry => s.field? data entry.2.shown.expression = some field).map Prod.fst
  lookOn : ∀ key field, s.field? data key = some field → ∀ subscriber ∈ onlookers field,
    ∃ cell, s.subscribers[subscriber]? = some cell ∧ cell.LooksOn s.objects
  painters : ∀ entry ∈ roster, s.subscribers[entry.1]? = some (entry.2.subscriber source)
  keyed : ∀ entry ∈ roster, (s.field? data entry.2.shown.expression).isSome
  fitting : Fitting base (roster.map Prod.snd)

/-- Each place shows the present value of its key. -/
structure Live (base : Dom) (source : Source σ) (data : ObjectId)
    (onlookers : FieldId → List SubscriberId) (roster : List (SubscriberId × Place))
    (s : Store σ) : Prop
    extends Staffed base source data onlookers roster s where
  painted : base.Painted (s.showing? data (roster.map Prod.snd)) s.dom

namespace Staffed

variable {base : Dom} {source : Source σ} {data : ObjectId}
  {onlookers : FieldId → List SubscriberId} {roster : List (SubscriberId × Place)}
  {s t : Store σ}

theorem enrolled (h : Staffed base source data onlookers roster s) (hst : s.Enrolled t [] []) :
    Staffed base source data onlookers roster t where
  idle := hst.active.trans h.idle
  registrations := by
    simp only [hst.field?, hst.fields]
    exact h.registrations
  lookOn key field hfield subscriber hsubscriber := by
    rw [hst.field?] at hfield
    obtain ⟨cell, hcell, hlooks⟩ := h.lookOn key field hfield subscriber hsubscriber
    exact ⟨cell, hst.getElem?_subscribers hcell, hst.objects ▸ hlooks⟩
  painters entry hentry := hst.getElem?_subscribers (h.painters entry hentry)
  keyed entry hentry := by
    rw [hst.field?]
    exact h.keyed entry hentry
  fitting := h.fitting

theorem assign (h : Staffed base source data onlookers roster s) (field : FieldId) (value : Value) :
    Staffed base source data onlookers roster (s.assign field value) where
  idle := (s.assign_active field value).trans h.idle
  registrations := by
    simp only [Store.field?_congr (s.assign_objects field value)]
    intro key other hother
    obtain ⟨cell, hcell, hregistrations⟩ := h.registrations key other hother
    obtain ⟨later, hlater, -, hsame, -⟩ := s.assign_field field value hcell
    exact ⟨later, hlater, hsame.trans hregistrations⟩
  lookOn key other hother := by
    rw [Store.field?_congr (s.assign_objects field value)] at hother
    rw [s.assign_subscribers field value, s.assign_objects field value]
    exact h.lookOn key other hother
  painters entry hentry := by
    rw [s.assign_subscribers field value]
    exact h.painters entry hentry
  keyed entry hentry := by
    rw [Store.field?_congr (s.assign_objects field value)]
    exact h.keyed entry hentry
  fitting := h.fitting

end Staffed

namespace Operation

/-- Writes of keys of a source, one after another. -/
def writes (source : Source σ) (entries : List (String × Value)) : List (Operation σ) :=
  entries.map fun entry => .write source entry.1 entry.2

/-- Behind the run of a routine the other operations go on, whatever its outcome. -/
theorem performAll_cons {operation : Operation σ} {routine : Routine σ} {limit : Nat}
    {outcome : Except ReactiveError Value} {rest : List (Operation σ)} {s t : Store σ}
    (hroutine : operation.session limit = ofRoutine limit routine)
    (hrun : Engine.run limit routine s = some (outcome, t)) :
    performAll limit (operation :: rest) s = performAll limit rest t := by
  have hsession : ∃ ended, operation.session limit s = some (ended, t) := by
    have hworded : (Engine.run limit routine).mapError MountError.reactive s =
        some (outcome.mapError .reactive, t) := Session.mapError_eq_some.2 ⟨outcome, hrun, rfl⟩
    rw [hroutine]
    cases outcome with
    | ok answer => exact ⟨.ok (), Session.bind_eq_some.2 (.inl ⟨answer, t, hworded, rfl⟩)⟩
    | error e => exact ⟨.error _, Session.bind_eq_some.2 (.inr ⟨_, hworded, rfl⟩)⟩
  obtain ⟨ended, hended⟩ := hsession
  rw [performAll, hended]

theorem performAll_write {source : Source σ} {key : String} {value : Value} {limit : Nat}
    {outcome : Except ReactiveError Value} {rest : List (String × Value)} {s t : Store σ}
    (hrun : Engine.run limit (source.write key value) s = some (outcome, t)) :
    performAll limit (writes source ((key, value) :: rest)) s =
      performAll limit (writes source rest) t := by
  unfold writes
  rw [List.map_cons]
  exact performAll_cons rfl hrun

end Operation

namespace Live

open Session Engine

variable {base : Dom} {source : Source σ} {data : ObjectId}
  {onlookers : FieldId → List SubscriberId} {roster : List (SubscriberId × Place)}
  {s t : Store σ}

/-- Before anything is compiled, there are onlookers at most. -/
theorem fresh (source : Source σ) (hidle : s.active = none)
    (hfields : ∀ key field, s.field? data key = some field →
      ∃ cell, s.fields[field]? = some cell ∧ ∀ subscriber ∈ cell.registrations,
        ∃ cell, s.subscribers[subscriber]? = some cell ∧ cell.LooksOn s.objects) :
    Live s.dom source data s.registrations [] s where
  idle := hidle
  registrations key field h := by
    obtain ⟨cell, hcell, -⟩ := hfields key field h
    refine ⟨cell, hcell, ?_⟩
    rw [Store.registrations_of_getElem? hcell]
    exact (List.append_nil _).symm
  lookOn key field h := by
    obtain ⟨cell, hcell, hlooks⟩ := hfields key field h
    rw [Store.registrations_of_getElem? hcell]
    exact hlooks
  painters _ h := absurd h List.not_mem_nil
  keyed _ h := absurd h List.not_mem_nil
  fitting := .nil s.dom
  painted := .nil s.dom

/-- Reports do not matter. -/
theorem reported (h : Live base source data onlookers roster s) (hst : s.Enrolled t [] [])
    (hdom : t.dom = s.dom) : Live base source data onlookers roster t where
  toStaffed := h.enrolled hst
  painted := by
    rw [hst.sameData.showing?, hdom]
    exact h.painted

/-- A place that is bound gets a painter. -/
theorem bind (h : Live base source data onlookers roster s) {place : Place} {field : FieldId}
    (hfield : s.field? data place.shown.expression = some field)
    (hfitting : Fitting base (roster.map Prod.snd ++ [place]))
    (hst : s.Enrolled t (s.tracked field ++ [(field, s.subscribers.size)])
      [place.subscriber source])
    (hdom : t.dom = place.paint (s.peek field) s.dom) :
    Live base source data onlookers (roster ++ [(s.subscribers.size, place)]) t := by
  rw [Store.tracked_of_idle h.idle, List.nil_append] at hst
  have hplaces : (roster ++ [(s.subscribers.size, place)]).map Prod.snd =
      roster.map Prod.snd ++ [place] := List.map_append
  have hmem {motive : SubscriberId × Place → Prop} (hroster : ∀ entry ∈ roster, motive entry)
      (hlast : motive (s.subscribers.size, place)) :
      ∀ entry ∈ roster ++ [(s.subscribers.size, place)], motive entry := by
    intro entry hentry
    rcases List.mem_append.1 hentry with hentry | hentry
    · exact hroster entry hentry
    · rw [List.mem_singleton.1 hentry]
      exact hlast
  refine ⟨⟨hst.active.trans h.idle, fun key other hother => ?_,
    fun key other hother subscriber hsubscriber => ?_, hmem (fun entry hentry => ?_) ?_,
    hmem (fun entry hentry => ?_) ?_, hplaces ▸ hfitting⟩, ?_⟩
  · rw [hst.field?] at hother
    obtain ⟨cell, hcell, hregistrations⟩ := h.registrations key other hother
    refine ⟨_, by rw [hst.fields, getElem?_enroll, hcell]; rfl, ?_⟩
    simp only [hst.field?, hregistrations, List.filter_append, List.map_append]
    by_cases hsame : field = other <;> simp [registeredWith, hfield, hsame]
  · rw [hst.field?] at hother
    obtain ⟨cell, hcell, hlooks⟩ := h.lookOn key other hother subscriber hsubscriber
    exact ⟨cell, hst.getElem?_subscribers hcell, hst.objects ▸ hlooks⟩
  · exact hst.getElem?_subscribers (h.painters entry hentry)
  · rw [← Array.getElem?_toList, hst.subscribers]
    simp
  · rw [hst.field?]
    exact h.keyed entry hentry
  · rw [hst.field?, hfield]
    rfl
  · have hvalue : s.valueOf? data place.shown.expression = some (s.peek field) := by
      rw [Store.valueOf?, hfield]
      rfl
    have hnode : place.node ∉ (roster.map Prod.snd).map Place.node := by
      have hnodup := hfitting.nodup
      rw [List.map_append] at hnodup
      exact fun hmem => (List.nodup_append.1 hnodup).2.2 _ hmem _ List.mem_cons_self rfl
    have hfits := hfitting.fits place (List.mem_append_right _ List.mem_cons_self)
    rw [hplaces, hst.sameData.showing?, Store.showing?_append hnode hvalue, hdom]
    exact hfits.paint h.painted _

/-- Places that are bound get painters, up to the first whose expression is no key, and binding
succeeds if there is none. -/
theorem binds {places : List Place} {outcome : Except CompileError (List Binding)}
    (h : Live base source data onlookers roster s) (hbinds : Binds source data places s outcome t)
    (hfitting : Fitting base (roster.map Prod.snd ++ places)) :
    ∃ later, Live base source data onlookers later t ∧
      later.map Prod.snd = roster.map Prod.snd ++ s.reached data places ∧
      (outcome.isOk ↔ ∀ place ∈ places, (s.field? data place.shown.expression).isSome) := by
  induction hbinds generalizing roster with
  | nil henrolled hdom =>
      exact ⟨roster, h.reported henrolled hdom, (List.append_nil _).symm,
        iff_of_true rfl fun _ hplace => absurd hplace List.not_mem_nil⟩
  | @fails place rest s t hfield henrolled hdom =>
      have hnone : s.reached data (place :: rest) = [] :=
        List.takeWhile_cons_of_neg (by simp [hfield])
      refine ⟨roster, h.reported henrolled hdom, by rw [hnone, List.append_nil],
        iff_of_false nofun fun hkeys => ?_⟩
      have hkey := hkeys place List.mem_cons_self
      rw [hfield] at hkey
      cases hkey
  | @binds place rest s t u field outcome hfield henrolled hdom _ ih =>
      have hplaces : (roster ++ [(s.subscribers.size, place)]).map Prod.snd =
          roster.map Prod.snd ++ [place] := List.map_append
      rw [List.append_cons] at hfitting
      obtain ⟨later, hlive, hlater, hok⟩ :=
        ih (h.bind hfield (hfitting.sublist (List.sublist_append_left _ _)) henrolled hdom)
          (by rwa [hplaces])
      have hreached : s.reached data (place :: rest) = place :: t.reached data rest := by
        rw [Store.reached_congr henrolled.objects]
        exact List.takeWhile_cons_of_pos (by simp [hfield])
      refine ⟨later, hlive, ?_, ?_⟩
      · rw [hlater, hplaces, List.append_assoc, hreached]
        rfl
      · simp only [henrolled.field?] at hok
        rw [List.forall_mem_cons, hfield, and_iff_right Option.isSome_some, ← hok]
        cases outcome <;> rfl

/-! ## Writes -/

variable {forwarded : Option (List String)} (fuel : Nat)

/-- The painter of a place paints it with the present value. -/
theorem recompute_painter (hidle : s.active = none) {subscriber : SubscriberId} {place : Place}
    {value : Value}
    (hpainter : s.subscribers[subscriber]? = some (place.subscriber (.over forwarded data)))
    (hvalue : s.valueOf? data place.shown.expression = some value) :
    ∃ t, recompute (fuel + 1) subscriber s = some (.ok .null, t) ∧ s.Enrolled t [] [] ∧
      t.dom = place.paint value s.dom := by
  rw [recompute_succ_of_some hpainter]
  obtain ⟨field, hfield, rfl⟩ := Option.map_eq_some_iff.1 hvalue
  rcases Compiler.run_paint_over forwarded data fuel place s with
    ⟨_, hnone, -⟩ | ⟨field', t, hfield', hrun, henrolled, hdom⟩
  · cases hnone.symm.trans hfield
  · obtain rfl := Option.some.inj (hfield.symm.trans hfield')
    rw [Store.tracked_of_idle hidle] at henrolled
    exact ⟨t, hrun, henrolled, hdom⟩

/-- Onlookers that are served change nothing, whoever is served behind them. -/
theorem serve_onlookers {subscribers : List SubscriberId} (hidle : s.active = none)
    (hlook : ∀ subscriber ∈ subscribers,
      ∃ cell, s.subscribers[subscriber]? = some cell ∧ cell.LooksOn s.objects)
    (later : List SubscriberId) :
    ∃ t, s.Enrolled t [] [] ∧ t.dom = s.dom ∧
      notifyFailFast (recompute (fuel + 1)) (subscribers ++ later) s =
        notifyFailFast (recompute (fuel + 1)) later t ∧
      collectFailures (recompute (fuel + 1)) (subscribers ++ later) s =
        collectFailures (recompute (fuel + 1)) later t := by
  induction subscribers generalizing s with
  | nil => exact ⟨s, .refl s, rfl, rfl, rfl⟩
  | cons subscriber rest ih =>
      obtain ⟨cell, hcell, hlooks⟩ := hlook subscriber List.mem_cons_self
      obtain ⟨value, t, hrun, hst, hdom⟩ := hlooks fuel s rfl hidle
      rw [← recompute_succ_of_some hcell] at hrun
      obtain ⟨u, htu, hdom', hfast, hcollect⟩ := ih (hst.active.trans hidle) fun other hother => by
        obtain ⟨cell, hcell, hlooks⟩ := hlook other (List.mem_cons_of_mem _ hother)
        exact ⟨cell, hst.getElem?_subscribers hcell, hst.objects ▸ hlooks⟩
      refine ⟨u, hst.trans htu, hdom'.trans hdom, ?_, ?_⟩
      · rw [← hfast, List.cons_append, notifyFailFast, bind_eq_followedBy, followedBy, hrun]
      · rw [← hcollect, List.cons_append, collectFailures, followedBy, hrun]

/-- Painters that are served one after another paint their places, under either policy. -/
theorem serve_painters {entries : List (SubscriberId × Place)} {value : Value}
    (hidle : s.active = none)
    (hpainters : ∀ entry ∈ entries,
      s.subscribers[entry.1]? = some (entry.2.subscriber (.over forwarded data)))
    (hvalue : ∀ entry ∈ entries, s.valueOf? data entry.2.shown.expression = some value) :
    ∃ t, notifyFailFast (recompute (fuel + 1)) (entries.map Prod.fst) s = some (.ok .null, t) ∧
      collectFailures (recompute (fuel + 1)) (entries.map Prod.fst) s = some (.ok [], t) ∧
      s.Enrolled t [] [] ∧ t.dom = Place.paintEach value (entries.map Prod.snd) s.dom := by
  induction entries generalizing s with
  | nil => exact ⟨s, rfl, rfl, .refl s, rfl⟩
  | cons entry rest ih =>
      obtain ⟨t, hrun, hst, hdom⟩ := recompute_painter fuel hidle
        (hpainters entry List.mem_cons_self) (hvalue entry List.mem_cons_self)
      obtain ⟨u, hfast, hcollect, htu, hrest⟩ := ih (hst.active.trans hidle)
        (fun other hother =>
          hst.getElem?_subscribers (hpainters other (List.mem_cons_of_mem _ hother)))
        (fun other hother => by
          rw [hst.sameData.valueOf?]
          exact hvalue other (List.mem_cons_of_mem _ hother))
      refine ⟨u, bind_eq_some.2 (.inl ⟨.null, t, hrun, hfast⟩),
        followedBy_eq_some.2 ⟨.ok .null, t, hrun, hcollect⟩, hst.trans htu, ?_⟩
      rw [hrest, hdom]
      rfl

/-- A notification that serves painters goes through under either policy. -/
theorem notify_of_served {recompute : SubscriberId → ReactiveSession σ Value} {field : FieldId}
    {cell : FieldCell} (hcell : s.fields[field]? = some cell)
    (hfast : notifyFailFast recompute cell.registrations
      (s.report (.notified cell.registrations.length)) = some (.ok .null, t))
    (hcollect : collectFailures recompute cell.registrations
      (s.report (.notified cell.registrations.length)) = some (.ok [], t)) :
    notify recompute field s = some (.ok .null, t) := by
  cases hpolicy : cell.policy with
  | failFast =>
      rw [notify_of_failFast hcell hpolicy]
      exact hfast
  | isolate =>
      rw [notify_of_isolate hcell hpolicy]
      exact bind_eq_some.2 (.inl ⟨[], t, hcollect, rfl⟩)

/-- A write of a field goes through, changes the value of the field, and leaves each place with the
present value. -/
theorem set (h : Live base (.over forwarded data) data onlookers roster s) {key : String}
    {field : FieldId}
    (hfield : s.field? data key = some field) (value : Value) :
    ∃ t, Engine.set (recompute (fuel + 1)) field value s = some (.ok .null, t) ∧
      t.objects = s.objects ∧
      t.peek = Function.update s.peek field
        (if (s.peek field).sameValue value then s.peek field else value) ∧
      Live base (.over forwarded data) data onlookers roster t := by
  obtain ⟨old, hold, -⟩ := h.registrations key field hfield
  have hstaffed := h.toStaffed.assign field value
  have hsame (object : ObjectId) (key : String) :
      (s.assign field value).field? object key = s.field? object key :=
    Store.field?_congr (s.assign_objects field value) object key
  have hfield' : (s.assign field value).field? data key = some field :=
    (hsame data key).trans hfield
  obtain ⟨cell, hcell, hregistrations⟩ := hstaffed.registrations key field hfield'
  let served := roster.filter fun entry =>
    decide ((s.assign field value).field? data entry.2.shown.expression = some field)
  let notified := (s.assign field value).report (.notified cell.registrations.length)
  have hreported : (s.assign field value).Enrolled notified [] [] := .report _ _
  have hnotified : Staffed base (.over forwarded data) data onlookers roster notified :=
    hstaffed.enrolled hreported
  -- The onlookers are served first, and leave everything as it is.
  obtain ⟨u, hlooked, hdom, hfast', hcollect'⟩ := serve_onlookers fuel hnotified.idle
    (hnotified.lookOn key field hfield') (served.map Prod.fst)
  have hlast : Staffed base (.over forwarded data) data onlookers roster u :=
    hnotified.enrolled hlooked
  have hserved (entry : SubscriberId × Place) (hentry : entry ∈ served) : entry ∈ roster ∧
      u.valueOf? data entry.2.shown.expression = some (u.peek field) := by
    obtain ⟨hmem, hshows⟩ := List.mem_filter.1 hentry
    refine ⟨hmem, ?_⟩
    unfold Store.valueOf?
    rw [hlooked.field?, show notified.field? data entry.2.shown.expression = some field from
      of_decide_eq_true hshows]
    rfl
  have hpainted : base.Painted (s.showing? data (roster.map Prod.snd)) u.dom := by
    rw [hdom, show notified.dom = s.dom from s.assign_dom field value]
    exact h.painted
  obtain ⟨t, hfast, hcollect, hst, hdom'⟩ := serve_painters fuel hlast.idle
    (fun entry hentry => hlast.painters entry (hserved entry hentry).1)
    (fun entry hentry => (hserved entry hentry).2)
  have hfits : ∀ place ∈ served.map Prod.snd, place.Fits base :=
    List.forall_mem_map.2 fun entry hentry =>
      h.fitting.fits _ (List.mem_map_of_mem (hserved entry hentry).1)
  have hrest := hpainted.paintEach hfits
    (List.forall_mem_map.2 fun entry hentry => Store.showing?_of_mem h.fitting.nodup
      (List.mem_map_of_mem (hserved entry hentry).1) (hserved entry hentry).2)
  rw [← hdom'] at hrest
  rw [← hfast', ← hregistrations] at hfast
  rw [← hcollect', ← hregistrations] at hcollect
  have hdata : (s.assign field value).SameData t :=
    (hreported.trans (hlooked.trans hst)).sameData
  refine ⟨t, notify_of_served hcell hfast hcollect, ?_, ?_, hlast.enrolled hst, ?_⟩
  · exact hdata.objects.trans (s.assign_objects field value)
  · rw [← Store.peek_assign hold value]
    exact funext hdata.peek
  · -- What is not served does not show the field.
    refine (congrArg (fun text? => base.Painted text? t.dom) (funext fun m => ?_)).mp hrest
    rw [hst.sameData.showing?, hlooked.sameData.showing?]
    by_cases hm : m ∈ (served.map Prod.snd).map Place.node
    · rw [if_pos hm]
    · rw [if_neg hm]
      refine (Store.showing?_assign hold value fun place hplace hnode hshows => hm ?_).symm
      obtain ⟨entry, hentry, rfl⟩ := List.mem_map.1 hplace
      refine List.mem_map.2 ⟨entry.2, List.mem_map_of_mem (List.mem_filter.2 ⟨hentry, ?_⟩), hnode⟩
      rw [hsame, hshows]
      exact decide_eq_true rfl

/-- So does a write of a key of the data. -/
theorem write (h : Live base (.over forwarded data) data onlookers roster s) {key : String}
    {field : FieldId}
    (hfield : s.field? data key = some field) (value : Value) :
    ∃ t, run (fuel + 1) ((Source.over forwarded data).write key value) s = some (.ok .null, t) ∧
      t.objects = s.objects ∧
      t.peek = Function.update s.peek field
        (if (s.peek field).sameValue value then s.peek field else value) ∧
      Live base (.over forwarded data) data onlookers roster t := by
  have hheard := enrolled_heard forwarded key s
  have hpeek : (heard forwarded key s).peek = s.peek := funext hheard.sameData.peek
  obtain ⟨t, hset, hobjects, hvalues, hlive⟩ :=
    (h.reported hheard (heard_dom forwarded key s)).set fuel
      ((hheard.field? data key).trans hfield) value
  refine ⟨t, ?_, hobjects.trans hheard.objects, by rw [hvalues, hpeek], hlive⟩
  have hwrite : run (fuel + 1) ((Source.over forwarded data).write key value) s = _ :=
    runWith_write_over forwarded hfield value
  rw [hwrite, runWith_setField]
  exact hset

/-- Two stores with the same data take the same writes, and have the same data behind them. -/
theorem performAll_writes {base' : Dom} {onlookers' : FieldId → List SubscriberId}
    {roster' : List (SubscriberId × Place)} {s' : Store σ} {writes : List (String × Value)}
    (h : Live base (.over forwarded data) data onlookers roster s)
    (h' : Live base' (.over forwarded data) data onlookers' roster' s') (hsame : s.SameData s')
    (hkeys : ∀ entry ∈ writes, (s.field? data entry.1).isSome) :
    ∃ t t', Operation.performAll (fuel + 1)
        (Operation.writes (.over forwarded data) writes) s = some t ∧
      Operation.performAll (fuel + 1)
        (Operation.writes (.over forwarded data) writes) s' = some t' ∧
      t.objects = s.objects ∧ t.SameData t' ∧
      Live base (.over forwarded data) data onlookers roster t ∧
      Live base' (.over forwarded data) data onlookers' roster' t' := by
  induction writes generalizing s s' with
  | nil => exact ⟨s, s', rfl, rfl, rfl, hsame, h, h'⟩
  | cons entry rest ih =>
      obtain ⟨key, value⟩ := entry
      obtain ⟨field, hfield⟩ := Option.isSome_iff_exists.1 (hkeys (key, value) List.mem_cons_self)
      obtain ⟨u, hrun, hobjects, hpeek, hu⟩ := h.write fuel hfield value
      obtain ⟨u', hrun', hobjects', hpeek', hu'⟩ :=
        h'.write fuel ((hsame.field? data key).trans hfield) value
      have hboth : u.SameData u' := by
        refine ⟨by rw [hobjects', hobjects, hsame.objects], fun other => ?_⟩
        rw [hpeek', hpeek, funext hsame.peek]
      obtain ⟨t, t', hrest, hrest', htu, hlast⟩ := ih hu hu' hboth fun other hother => by
        rw [Store.field?_congr hobjects]
        exact hkeys other (List.mem_cons_of_mem _ hother)
      refine ⟨t, t', ?_, ?_, htu.trans hobjects, hlast⟩
      · rw [Operation.performAll_write hrun]
        exact hrest
      · rw [Operation.performAll_write hrun']
        exact hrest'

end Live

end LiveTemplate
