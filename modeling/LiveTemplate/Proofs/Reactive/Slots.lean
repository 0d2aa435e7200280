import LiveTemplate.Proofs.Reactive.Fields

/-!
# Slots

A slot is a key of an object.  Every definition makes a field of its own, so the slots of an object
hold different fields, whatever is defined and redefined later.  The fields of an object that has
just been made from data have no subscribers.  Making data reactive leaves what was there before.
-/

namespace LiveTemplate.Store

variable {σ : Type}

/-- The fields of an object are there, and no two keys of it share one. -/
structure Apart (s : Store σ) (object : ObjectId) : Prop where
  there : ∀ key field, s.field? object key = some field → field < s.fields.size
  unique : ∀ key key' field, s.field? object key = some field →
    s.field? object key' = some field → key = key'

/-- Nobody has subscribed to the fields of an object. -/
def Unwatched (s : Store σ) (object : ObjectId) : Prop :=
  ∀ key field, s.field? object key = some field → s.registrations field = []

/-! ## Looking slots up -/

theorem field?_newObject (s : Store σ) (policy : NotifyPolicy) (object : ObjectId) (key : String) :
    (s.newObject policy).1.field? object key = s.field? object key := by
  unfold field?
  rw [fieldsOf_newObject]

theorem field?_define (s : Store σ) (object other : ObjectId) (key key' : String) (value : Value) :
    (s.define object key value).1.field? other key' =
      if object = other ∧ key = key' ∧ other < s.objects.size then some s.fields.size
      else s.field? other key' := by
  unfold field?
  rw [fieldsOf_define]
  by_cases hobject : object = other ∧ other < s.objects.size
  · rw [if_pos hobject, Table.find?_insert]
    by_cases hkey : key = key'
    · rw [if_pos hkey, if_pos ⟨hobject.1, hkey, hobject.2⟩]
    · rw [if_neg hkey, if_neg fun h => hkey h.2.1]
  · rw [if_neg hobject, if_neg fun h => hobject ⟨h.1, h.2.2⟩]

theorem size_fields_define (s : Store σ) (object : ObjectId) (key : String) (value : Value) :
    (s.define object key value).1.fields.size = s.fields.size + 1 :=
  Array.size_push _

theorem size_fields_assign (s : Store σ) (field : FieldId) (value : Value) :
    (s.assign field value).fields.size = s.fields.size := by
  unfold assign
  split
  · rfl
  · exact Array.size_modify

theorem registrations_assign (s : Store σ) (field : FieldId) (value : Value) (other : FieldId) :
    (s.assign field value).registrations other = s.registrations other := by
  unfold registrations assign
  split
  · rfl
  · simp only [report, record, Array.getElem?_modify]
    split
    · cases s.fields[other]? <;> rfl
    · rfl

theorem registrations_of_size_le {s : Store σ} {field : FieldId} (h : s.fields.size ≤ field) :
    s.registrations field = [] := by
  unfold registrations
  rw [Array.getElem?_eq_none_iff.2 h]
  rfl

theorem field?_of_not_there (s : Store σ) (key : String) :
    s.field? s.objects.size key = none := by
  cases hfield : s.field? s.objects.size key with
  | none => rfl
  | some field => exact absurd (lt_of_field?_eq_some hfield) (Nat.lt_irrefl _)

/-! ## Slots over time -/

/-- A slot holds what it held before, or a field that was not there. -/
structure Renewed (s t : Store σ) : Prop where
  size_fields : s.fields.size ≤ t.fields.size
  slot : ∀ object key field, t.field? object key = some field → field < s.fields.size →
    s.field? object key = some field

namespace Renewed

theorem of_slots {s t : Store σ} (hsize : s.fields.size ≤ t.fields.size)
    (hslots : ∀ object key, t.field? object key = s.field? object key) : s.Renewed t where
  size_fields := hsize
  slot object key _ hfield _ := (hslots object key).symm.trans hfield

/-- Every step leaves a slot what it holds, or puts a field of its own into it. -/
theorem progress : Progress (Renewed : Store σ → Store σ → Prop) where
  refl _ := of_slots (Nat.le_refl _) fun _ _ => rfl
  trans hst htu :=
    { size_fields := Nat.le_trans hst.size_fields htu.size_fields
      slot := fun object key field hfield hlt => hst.slot object key field
        (htu.slot object key field hfield (Nat.lt_of_lt_of_le hlt hst.size_fields)) hlt }
  record _ _ := of_slots (Nat.le_refl _) fun _ _ => rfl
  newObject s policy := of_slots (Nat.le_refl _) (s.field?_newObject policy)
  newArray _ _ := of_slots (Nat.le_refl _) fun _ _ => rfl
  define s object key value :=
    { size_fields := by
        rw [size_fields_define]
        exact Nat.le_succ _
      slot := fun other key' field hfield hlt => by
        rw [field?_define] at hfield
        split at hfield
        · obtain rfl := Option.some.inj hfield
          exact absurd hlt (Nat.lt_irrefl _)
        · exact hfield }
  register s field subscriber := of_slots (Nat.le_of_eq Array.size_modify.symm) fun _ _ => rfl
  edit _ _ := of_slots (Nat.le_refl _) fun _ _ => rfl
  share _ _ := of_slots (Nat.le_refl _) fun _ _ => rfl
  assign s field value := of_slots (Nat.le_of_eq (size_fields_assign s field value).symm)
    (field?_congr (assign_objects s field value))
  push _ _ := of_slots (Nat.le_refl _) fun _ _ => rfl
  collecting _ h := ⟨h.size_fields, h.slot⟩

end Renewed

/-! ## Slots apart -/

namespace Apart

variable {s t : Store σ} {object : ObjectId}

/-- The field of a key is the field of no other one. -/
theorem field?_iff (h : s.Apart object) {key key' : String} {field : FieldId}
    (hfield : s.field? object key = some field) :
    s.field? object key' = some field ↔ key' = key :=
  ⟨fun hother => h.unique key' key field hother hfield, fun hsame => hsame ▸ hfield⟩

/-- What leaves the slots of an object keeps them apart. -/
theorem of_slots (hsame : ∀ key, t.field? object key = s.field? object key)
    (hsize : s.fields.size ≤ t.fields.size) (h : s.Apart object) : t.Apart object where
  there key field hfield := Nat.lt_of_lt_of_le (h.there key field (hsame key ▸ hfield)) hsize
  unique key key' field hfield hfield' :=
    h.unique key key' field (hsame key ▸ hfield) (hsame key' ▸ hfield')

/-- A definition puts a field of its own into its slot, and the other slots keep theirs. -/
theorem define (h : s.Apart object) (other : ObjectId) (key : String) (value : Value) :
    (s.define other key value).1.Apart object where
  there key' field hfield := by
    rw [size_fields_define]
    rw [field?_define] at hfield
    split at hfield
    · obtain rfl := Option.some.inj hfield
      exact Nat.lt_succ_self _
    · exact Nat.lt_succ_of_lt (h.there key' field hfield)
  unique key₁ key₂ field h₁ h₂ := by
    rw [field?_define] at h₁ h₂
    -- The new field is none of the old ones.
    split at h₁ <;> split at h₂
    · next hslot₁ hslot₂ => exact hslot₁.2.1.symm.trans hslot₂.2.1
    · obtain rfl := Option.some.inj h₁
      exact absurd (h.there key₂ _ h₂) (Nat.lt_irrefl _)
    · obtain rfl := Option.some.inj h₂
      exact absurd (h.there key₁ _ h₁) (Nat.lt_irrefl _)
    · exact h.unique key₁ key₂ field h₁ h₂

/-- Every step keeps the slots of an object apart. -/
theorem progress (object : ObjectId) :
    Progress fun s t : Store σ => s.Apart object → t.Apart object where
  refl _ h := h
  trans hst htu h := htu (hst h)
  record _ _ h := ⟨h.there, h.unique⟩
  newArray _ _ h := ⟨h.there, h.unique⟩
  newObject s policy h := h.of_slots (s.field?_newObject policy object) (Nat.le_refl _)
  define _ other key value h := h.define other key value
  register s field subscriber h := by
    refine of_slots (s := s) (fun _ => rfl) (Nat.le_of_eq ?_) h
    exact (Array.size_modify).symm
  edit _ _ h := ⟨h.there, h.unique⟩
  share _ _ h := ⟨h.there, h.unique⟩
  assign s field value h := h.of_slots (field?_congr (assign_objects s field value) object)
    (Nat.le_of_eq (size_fields_assign s field value).symm)
  push _ _ h := ⟨h.there, h.unique⟩
  collecting _ hrun h := by
    obtain ⟨hthere, hunique⟩ := hrun ⟨h.there, h.unique⟩
    exact ⟨hthere, hunique⟩

end Apart

/-! ## Fresh objects -/

/-- Making objects and fields registers nobody. -/
theorem registrations_progress : ObserveProgress fun s t : Store σ =>
    ∀ field, t.registrations field = s.registrations field where
  refl _ _ := rfl
  trans hst htu field := (htu field).trans (hst field)
  record _ _ _ := rfl
  newObject _ _ _ := rfl
  newArray _ _ _ := rfl
  define s object key value field := by
    simp only [registrations, Store.define, report, record, Array.getElem?_push]
    split
    · next hsize =>
        rw [hsize, Array.getElem?_eq_none_iff.2 (Nat.le_refl _)]
        rfl
    · rfl

/-- An object gets no subscribers while data is made reactive. -/
theorem Unwatched.progress (object : ObjectId) :
    ObserveProgress fun s t : Store σ => s.Unwatched object → t.Unwatched object where
  refl _ h := h
  trans hst htu h := htu (hst h)
  record _ _ h := h
  newObject s policy h key field hfield :=
    h key field (s.field?_newObject policy object key ▸ hfield)
  newArray _ _ h := h
  define s other key value h key' field hfield := by
    rw [registrations_progress.define s other key value field]
    rw [field?_define] at hfield
    split at hfield
    · obtain rfl := Option.some.inj hfield
      unfold registrations
      rw [Array.getElem?_eq_none_iff.2 (Nat.le_refl _)]
      rfl
    · exact h key' field hfield

/-- An object made from data has its slots apart, and no subscribers. -/
theorem apart_observe (s : Store σ) (policy : NotifyPolicy) (json : Json) {object : ObjectId}
    (h : (s.observe policy json).2 = .object object) :
    (s.observe policy json).1.Apart object ∧ (s.observe policy json).1.Unwatched object := by
  cases json with
  | object members =>
      obtain rfl := Value.object.inj h
      have hnone (key : String) : (s.newObject policy).1.field? s.objects.size key = none :=
        (s.field?_newObject policy s.objects.size key).trans (s.field?_of_not_there key)
      constructor
      · refine (Apart.progress s.objects.size).observeMembers policy _ _ members ⟨?_, ?_⟩
        · exact fun key field hfield => nomatch (hnone key).symm.trans hfield
        · exact fun key key' field hfield => nomatch (hnone key).symm.trans hfield
      · refine (Unwatched.progress s.objects.size).observeMembers policy _ _ members ?_
        exact fun key field hfield => nomatch (hnone key).symm.trans hfield
  | _ => cases h

/-! ## Objects that are there -/

/-- There may be more objects and fields, and those from before are as they were. -/
structure Extended (s t : Store σ) : Prop where
  size_objects : s.objects.size ≤ t.objects.size
  size_fields : s.fields.size ≤ t.fields.size
  objects : ∀ object < s.objects.size, t.objects[object]? = s.objects[object]?
  fields : ∀ field < s.fields.size, t.fields[field]? = s.fields[field]?

namespace Extended

variable {s t u : Store σ}

theorem of_same (hobjects : t.objects = s.objects) (hfields : t.fields = s.fields) :
    s.Extended t where
  size_objects := hobjects ▸ Nat.le_refl _
  size_fields := hfields ▸ Nat.le_refl _
  objects _ _ := hobjects ▸ rfl
  fields _ _ := hfields ▸ rfl

theorem refl (s : Store σ) : s.Extended s := .of_same rfl rfl

theorem trans (hst : s.Extended t) (htu : t.Extended u) : s.Extended u where
  size_objects := Nat.le_trans hst.size_objects htu.size_objects
  size_fields := Nat.le_trans hst.size_fields htu.size_fields
  objects object h :=
    (htu.objects object (Nat.lt_of_lt_of_le h hst.size_objects)).trans (hst.objects object h)
  fields field h :=
    (htu.fields field (Nat.lt_of_lt_of_le h hst.size_fields)).trans (hst.fields field h)

theorem newObject (s : Store σ) (policy : NotifyPolicy) : s.Extended (s.newObject policy).1 where
  size_objects := by simp [Store.newObject]
  size_fields := Nat.le_refl _
  objects object h := by
    simp only [Store.newObject]
    rw [Array.getElem?_push_lt h, Array.getElem?_eq_getElem h]
  fields _ _ := rfl

/-- A definition in an object that was not there before. -/
theorem define (h : s.Extended t) {object : ObjectId} (hnew : s.objects.size ≤ object)
    (key : String) (value : Value) : s.Extended (t.define object key value).1 where
  size_objects := by
    rw [show (t.define object key value).1.objects.size = t.objects.size from Array.size_modify]
    exact h.size_objects
  size_fields := by
    rw [size_fields_define]
    exact Nat.le_succ_of_le h.size_fields
  objects other hother := by
    rw [getElem?_objects_define, if_neg (Nat.ne_of_gt (Nat.lt_of_lt_of_le hother hnew))]
    exact h.objects other hother
  fields field hfield := by
    rw [getElem?_fields_define t object key value (Nat.lt_of_lt_of_le hfield h.size_fields)]
    exact h.fields field hfield

/-- Making data reactive fills new objects only. -/
theorem observe_and_observeMembers (policy : NotifyPolicy) :
    (∀ (s : Store σ) (json : Json), s.Extended (s.observe policy json).1) ∧
      ∀ (s : Store σ) (object : ObjectId) (members : List (String × Json)),
        ∀ base : Store σ, base.Extended s → base.objects.size ≤ object →
          base.Extended (s.observeMembers policy object members) := by
  refine Store.observe.mutual_induct policy
    (fun s json => s.Extended (s.observe policy json).1)
    (fun s object members => ∀ base : Store σ, base.Extended s → base.objects.size ≤ object →
      base.Extended (s.observeMembers policy object members))
    ?null ?bool ?number ?string ?array ?object ?nil ?cons
  case null => exact fun s => .refl s
  case bool => exact fun s _ => .refl s
  case number => exact fun s _ => .refl s
  case string => exact fun s _ => .refl s
  case array => exact fun s _ => .of_same rfl rfl
  case object =>
    intro s members s₁ object hnew ih
    obtain ⟨rfl, rfl⟩ := Prod.mk.inj hnew
    exact ih s (.newObject s policy) (Nat.le_refl _)
  case nil => exact fun s object base h _ => h
  case cons =>
    intro s object key json rest s₁ value hobserve s₂ field hdefine ihjson ihrest base h hobject
    have hfirst : s.Extended s₁ := by simpa only [hobserve] using ihjson
    have hsecond : base.Extended s₂ := by
      simpa only [hdefine] using (h.trans hfirst).define hobject key value
    simpa only [Store.observeMembers, hobserve, hdefine] using ihrest base hsecond hobject

theorem observe (policy : NotifyPolicy) (s : Store σ) (json : Json) :
    s.Extended (s.observe policy json).1 :=
  (observe_and_observeMembers policy).1 s json

theorem field? (h : s.Extended t) {object : ObjectId} (hobject : object < s.objects.size)
    (key : String) : t.field? object key = s.field? object key := by
  unfold Store.field? fieldsOf
  rw [h.objects object hobject]

end Extended

/-- One object may have been filled, and there may be more objects and fields.  The other objects
from before, and all fields, are as they were. -/
structure Filled (object : ObjectId) (s t : Store σ) : Prop where
  size_objects : s.objects.size ≤ t.objects.size
  size_fields : s.fields.size ≤ t.fields.size
  objects : ∀ other < s.objects.size, other ≠ object → t.objects[other]? = s.objects[other]?
  fields : ∀ field < s.fields.size, t.fields[field]? = s.fields[field]?

theorem Extended.filled {s t : Store σ} (h : s.Extended t) (object : ObjectId) :
    Filled object s t where
  size_objects := h.size_objects
  size_fields := h.size_fields
  objects other hother _ := h.objects other hother
  fields := h.fields

namespace Filled

variable {s t u : Store σ} {object : ObjectId}

theorem trans (hst : Filled object s t) (htu : Filled object t u) : Filled object s u where
  size_objects := Nat.le_trans hst.size_objects htu.size_objects
  size_fields := Nat.le_trans hst.size_fields htu.size_fields
  objects other h hne :=
    (htu.objects other (Nat.lt_of_lt_of_le h hst.size_objects) hne).trans (hst.objects other h hne)
  fields field h :=
    (htu.fields field (Nat.lt_of_lt_of_le h hst.size_fields)).trans (hst.fields field h)

theorem define (s : Store σ) (object : ObjectId) (key : String) (value : Value) :
    Filled object s (s.define object key value).1 where
  size_objects := Nat.le_of_eq Array.size_modify.symm
  size_fields := by
    rw [size_fields_define]
    exact Nat.le_succ _
  objects other _ hne := by rw [getElem?_objects_define, if_neg hne.symm]
  fields field h := getElem?_fields_define s object key value h

theorem observeMembers (s : Store σ) (policy : NotifyPolicy) (object : ObjectId)
    (members : List (String × Json)) :
    Filled object s (s.observeMembers policy object members) := by
  induction members generalizing s with
  | nil => exact (Extended.refl s).filled object
  | cons member rest ih =>
      have hobserved := (Extended.observe policy s member.2).filled object
      have hdefined := define (s.observe policy member.2).1 object member.1
        (s.observe policy member.2).2
      exact (hobserved.trans hdefined).trans (ih _)

end Filled

end LiveTemplate.Store
