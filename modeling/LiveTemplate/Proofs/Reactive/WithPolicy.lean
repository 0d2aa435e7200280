import LiveTemplate.Reactive.Store

/-!
# Stores that differ in their policies

Policies are read by notifications only.  Every other operation gives the same answer on a store
whose objects and dependencies all have another policy, and leaves the same store up to policies;
where it makes new objects, they have to have that policy too.
-/

namespace LiveTemplate

variable {σ : Type}

theorem map_modify_comm {α : Type} (xs : Array α) (i : Nat) {f g h : α → α}
    (hcomm : ∀ x, h (f x) = f (g x)) : (xs.map f).modify i h = (xs.modify i g).map f := by
  apply Array.ext_getElem?
  intro j
  rw [Array.getElem?_modify, Array.getElem?_map, Array.getElem?_map, Array.getElem?_modify]
  by_cases hij : i = j
  · rw [if_pos hij, if_pos hij, Option.map_map, Option.map_map]
    cases xs[j]? with
    | none => rfl
    | some x => exact congrArg some (hcomm x)
  · rw [if_neg hij, if_neg hij]

/-- The object under another policy. -/
def ObjectCell.withPolicy (policy : NotifyPolicy) (cell : ObjectCell) : ObjectCell :=
  { cell with policy }

/-- The field with another policy for its dependency. -/
def FieldCell.withPolicy (policy : NotifyPolicy) (cell : FieldCell) : FieldCell :=
  { cell with policy }

namespace Store

/-- The store with one policy for all objects and dependencies. -/
def withPolicy (policy : NotifyPolicy) (s : Store σ) : Store σ :=
  { s with
    objects := s.objects.map (ObjectCell.withPolicy policy)
    fields := s.fields.map (FieldCell.withPolicy policy) }

variable (policy : NotifyPolicy) (s : Store σ)

@[simp] theorem withPolicy_withPolicy (first : NotifyPolicy) :
    (s.withPolicy first).withPolicy policy = s.withPolicy policy := by
  simp only [withPolicy, Array.map_map]
  rfl

theorem withPolicy_fieldsOf (object : ObjectId) :
    (s.withPolicy policy).fieldsOf object = s.fieldsOf object := by
  simp only [fieldsOf, withPolicy, Array.getElem?_map, Option.map_map]
  rfl

theorem withPolicy_field? (object : ObjectId) (key : String) :
    (s.withPolicy policy).field? object key = s.field? object key := by
  rw [field?, field?, withPolicy_fieldsOf]

theorem withPolicy_peek (field : FieldId) : (s.withPolicy policy).peek field = s.peek field := by
  simp only [peek, withPolicy, Array.getElem?_map, Option.map_map]
  rfl

theorem withPolicy_fieldKey (field : FieldId) :
    (s.withPolicy policy).fieldKey field = s.fieldKey field := by
  simp only [fieldKey, withPolicy, Array.getElem?_map, Option.map_map]
  rfl

theorem withPolicy_report (event : Event) :
    (s.withPolicy policy).report event = (s.report event).withPolicy policy := rfl

theorem withPolicy_withActive (subscriber : Option SubscriberId) :
    (s.withPolicy policy).withActive subscriber = (s.withActive subscriber).withPolicy policy := rfl

theorem withPolicy_subscribe (cell : Subscriber σ) :
    (s.withPolicy policy).subscribe cell = (s.subscribe cell).withPolicy policy := by
  cases hactive : s.active with
  | none => simp only [subscribe, withPolicy, hactive, Option.isSome_none, Bool.false_eq_true,
      if_false]
  | some other => simp only [subscribe, withPolicy, hactive, Option.isSome_some, if_true, report,
      record]

theorem withPolicy_register (field : FieldId) (subscriber : SubscriberId) :
    (s.withPolicy policy).register field subscriber =
      (s.register field subscriber).withPolicy policy := by
  unfold register
  simp only [withPolicy, report, record, subscriberKey]
  rw [map_modify_comm]
  exact fun cell => rfl

theorem withPolicy_assign (field : FieldId) (value : Value) :
    (s.withPolicy policy).assign field value = (s.assign field value).withPolicy policy := by
  unfold assign
  rw [withPolicy_peek, withPolicy_fieldKey]
  by_cases hsame : (s.peek field).sameValue value
  · rw [if_pos hsame, if_pos hsame]
  · rw [if_neg hsame, if_neg hsame]
    simp only [withPolicy, report, record]
    rw [map_modify_comm]
    exact fun cell => rfl

theorem withPolicy_get (field : FieldId) :
    (s.withPolicy policy).get field = ((s.get field).1.withPolicy policy, (s.get field).2) := by
  have htrack : ((s.withPolicy policy).report (.gotten (s.fieldKey field))).track field =
      ((s.report (.gotten (s.fieldKey field))).track field).withPolicy policy := by
    rw [withPolicy_report]
    unfold track
    cases hactive : (s.report (.gotten (s.fieldKey field))).active with
    | none =>
        have hactive' : ((s.report (.gotten (s.fieldKey field))).withPolicy policy).active = none :=
          hactive
        simp only [hactive']
    | some subscriber =>
        have hactive' : ((s.report (.gotten (s.fieldKey field))).withPolicy policy).active =
            some subscriber := hactive
        simp only [hactive']
        exact withPolicy_register policy _ field subscriber
  unfold get
  simp only [withPolicy_fieldKey, htrack, withPolicy_peek]

end Store

/-! ## Making objects and fields -/

namespace Store

variable (s : Store σ)

theorem withPolicy_policyOf (object : ObjectId) :
    (s.withPolicy .failFast).policyOf object = .failFast := by
  simp only [policyOf, withPolicy, Array.getElem?_map, Option.map_map]
  cases s.objects[object]? <;> rfl

theorem withPolicy_define (object : ObjectId) (key : String) (value : Value) :
    (s.withPolicy .failFast).define object key value =
      ((s.define object key value).1.withPolicy .failFast, (s.define object key value).2) := by
  unfold define
  rw [withPolicy_policyOf]
  simp only [withPolicy, report, record, Array.size_map, Array.map_push]
  rw [map_modify_comm]
  · rfl
  · exact fun cell => rfl

theorem withPolicy_newObject :
    (s.withPolicy .failFast).newObject .failFast =
      ((s.newObject .failFast).1.withPolicy .failFast, (s.newObject .failFast).2) := by
  simp only [newObject, withPolicy, Array.size_map, Array.map_push]
  rfl

theorem withPolicy_observe (json : Json) :
    (s.withPolicy .failFast).observe .failFast json =
      ((s.observe .failFast json).1.withPolicy .failFast, (s.observe .failFast json).2) := by
  refine observe.induct .failFast
    (fun s json => (s.withPolicy .failFast).observe .failFast json =
      ((s.observe .failFast json).1.withPolicy .failFast, (s.observe .failFast json).2))
    (fun s object members => (s.withPolicy .failFast).observeMembers .failFast object members =
      (s.observeMembers .failFast object members).withPolicy .failFast)
    ?null ?bool ?number ?string ?array ?object ?nil ?cons s json
  case null => exact fun s => rfl
  case bool => exact fun s _ => rfl
  case number => exact fun s _ => rfl
  case string => exact fun s _ => rfl
  case array => exact fun s _ => rfl
  case object =>
    intro s members t object hnew ih
    simp only [observe, withPolicy_newObject, hnew, ih]
  case nil =>
    intro s object
    rfl
  case cons =>
    intro s object key json rest t value hobserve u field hdefine ihjson ihrest
    simp only [observeMembers, ihjson, hobserve, withPolicy_define, hdefine, ihrest]

end Store

end LiveTemplate
