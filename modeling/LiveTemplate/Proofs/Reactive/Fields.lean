import LiveTemplate.Proofs.Reactive.Progress

/-!
# Fields

A definition adds a field and puts it under its key, and leaves what is under other keys and in
other objects.  A write changes the value of its own field.  The fields of an object get the policy
of the object, however it is filled, and keep it.
-/

namespace LiveTemplate

variable {σ : Type}

theorem Table.find?_insert {α : Type} (table : Table α) (key other : String) (value : α) :
    find? (insert table key value) other =
      if key = other then some value else find? table other := by
  induction table with
  | nil => rfl
  | cons entry rest ih =>
      obtain ⟨k, v⟩ := entry
      unfold insert
      by_cases hk : k = key
      · subst hk
        rw [if_pos rfl, find?, find?]
        by_cases hother : k = other
        · rw [if_pos hother, if_pos hother]
        · rw [if_neg hother, if_neg hother, if_neg hother]
      · rw [if_neg hk, find?, find?, ih]
        by_cases hother : k = other
        · have hkey : key ≠ other := fun hkey => hk (hother.trans hkey.symm)
          rw [if_pos hother, if_pos hother, if_neg hkey]
        · rw [if_neg hother, if_neg hother]

/-- A new key comes last; a present one keeps its place. -/
theorem Table.keys_insert {α : Type} (table : Table α) (key : String) (value : α) :
    keys (insert table key value) =
      if key ∈ keys table then keys table else keys table ++ [key] := by
  induction table with
  | nil => rfl
  | cons entry rest ih =>
      obtain ⟨k, v⟩ := entry
      by_cases hk : k = key
      · simp [insert, keys, hk]
      · have hkeys : keys (insert ((k, v) :: rest) key value) =
            k :: keys (insert rest key value) := by
          simp only [insert, if_neg hk, keys, List.map_cons]
        rw [hkeys, ih]
        by_cases hpresent : key ∈ keys rest
        · have hmem : key ∈ keys ((k, v) :: rest) := List.mem_cons_of_mem k hpresent
          rw [if_pos hpresent, if_pos hmem]
          rfl
        · have habsent : key ∉ keys ((k, v) :: rest) := fun hmem =>
            hpresent ((List.mem_cons.1 hmem).resolve_left (Ne.symm hk))
          rw [if_neg hpresent, if_neg habsent]
          rfl

theorem Table.insert_of_not_mem {α : Type} {table : Table α} {key : String}
    (h : key ∉ keys table) (value : α) : insert table key value = table ++ [(key, value)] := by
  induction table with
  | nil => rfl
  | cons entry rest ih =>
      obtain ⟨k, v⟩ := entry
      have hk : k ≠ key := fun hk => h (hk ▸ List.mem_cons_self)
      unfold insert
      rw [if_neg hk, ih fun hmem => h (List.mem_cons_of_mem _ hmem)]
      rfl

theorem Table.mem_insert {α : Type} {table : Table α} {key : String} {value : α}
    {entry : String × α} (h : entry ∈ insert table key value) :
    entry ∈ table ∨ entry = (key, value) := by
  induction table with
  | nil => exact .inr (List.mem_singleton.1 h)
  | cons first rest ih =>
      obtain ⟨k, v⟩ := first
      unfold insert at h
      split at h
      · rcases List.mem_cons.1 h with rfl | hrest
        · exact .inr rfl
        · exact .inl (List.mem_cons_of_mem _ hrest)
      · rcases List.mem_cons.1 h with rfl | hrest
        · exact .inl List.mem_cons_self
        · exact (ih hrest).imp_left (List.mem_cons_of_mem _)

theorem Table.nodup_keys_insert {α : Type} {table : Table α} (h : (keys table).Nodup)
    (key : String) (value : α) : (keys (insert table key value)).Nodup := by
  rw [keys_insert]
  split
  · exact h
  · next hnew =>
      refine List.nodup_append.2 ⟨h, by simp, fun other hother last hlast => ?_⟩
      rw [List.mem_singleton.1 hlast]
      exact fun heq => hnew (heq ▸ hother)

theorem Table.mem_of_find? {α : Type} {table : Table α} {key : String} {value : α}
    (h : find? table key = some value) : (key, value) ∈ table := by
  induction table with
  | nil => cases h
  | cons entry rest ih =>
      obtain ⟨other, found⟩ := entry
      rw [find?] at h
      split at h
      · next hkey =>
          obtain rfl := Option.some.inj h
          rw [hkey]
          exact List.mem_cons_self
      · exact List.mem_cons_of_mem _ (ih h)

theorem Table.mem_keys_iff {α : Type} {table : Table α} {key : String} :
    key ∈ keys table ↔ ∃ value, find? table key = some value := by
  constructor
  · intro h
    induction table with
    | nil => cases h
    | cons entry rest ih =>
        obtain ⟨other, value⟩ := entry
        rw [find?]
        by_cases hkey : other = key
        · exact ⟨value, if_pos hkey⟩
        · rw [if_neg hkey]
          exact ih ((List.mem_cons.1 h).resolve_left (Ne.symm hkey))
  · rintro ⟨value, hvalue⟩
    exact List.mem_map.2 ⟨(key, value), mem_of_find? hvalue, rfl⟩

namespace Store

/-- The value of a key, if there is one. -/
def valueOf? (s : Store σ) (data : ObjectId) (key : String) : Option Value :=
  (s.field? data key).map s.peek

theorem fieldsOf_of_getElem? {s : Store σ} {object : ObjectId} {cell : ObjectCell}
    (h : s.objects[object]? = some cell) : s.fieldsOf object = cell.fields := by
  unfold fieldsOf
  rw [h]
  rfl

theorem peek_of_getElem? {s : Store σ} {field : FieldId} {cell : FieldCell}
    (h : s.fields[field]? = some cell) : s.peek field = cell.value := by
  unfold peek
  rw [h]
  rfl

theorem registrations_of_getElem? {s : Store σ} {field : FieldId} {cell : FieldCell}
    (h : s.fields[field]? = some cell) : s.registrations field = cell.registrations := by
  unfold registrations
  rw [h]
  rfl

theorem fieldsOf_of_size_le {s : Store σ} {object : ObjectId} (h : s.objects.size ≤ object) :
    s.fieldsOf object = [] := by
  unfold fieldsOf
  rw [Array.getElem?_eq_none_iff.2 h]
  rfl

/-- An object that has just been added has no fields, as before. -/
theorem fieldsOf_newObject (s : Store σ) (policy : NotifyPolicy) (object : ObjectId) :
    (s.newObject policy).1.fieldsOf object = s.fieldsOf object := by
  unfold fieldsOf newObject
  rw [Array.getElem?_push]
  split
  · next hsize =>
      rw [hsize, Array.getElem?_eq_none_iff.2 (Nat.le_refl _)]
      rfl
  · rfl

theorem getElem?_fields_define (s : Store σ) (object : ObjectId) (key : String) (value : Value)
    {field : FieldId} (hfield : field < s.fields.size) :
    (s.define object key value).1.fields[field]? = s.fields[field]? := by
  simp only [define, report, record]
  rw [Array.getElem?_push_lt hfield, Array.getElem?_eq_getElem hfield]

theorem getElem?_objects_define (s : Store σ) (object other : ObjectId) (key : String)
    (value : Value) :
    (s.define object key value).1.objects[other]? =
      if object = other then
        s.objects[other]?.map fun cell =>
          { cell with fields := Table.insert cell.fields key s.fields.size }
      else s.objects[other]? := by
  simp only [define, report, record, Array.getElem?_modify]

theorem fieldsOf_define (s : Store σ) (object other : ObjectId) (key : String) (value : Value) :
    (s.define object key value).1.fieldsOf other =
      if object = other ∧ other < s.objects.size then
        Table.insert (s.fieldsOf other) key s.fields.size
      else s.fieldsOf other := by
  unfold fieldsOf
  rw [getElem?_objects_define]
  by_cases hobject : object = other
  · rw [if_pos hobject]
    cases hcell : s.objects[other]? with
    | none =>
        have hge : ¬other < s.objects.size := Nat.not_lt.2 (Array.getElem?_eq_none_iff.1 hcell)
        rw [if_neg fun h => hge h.2]
        rfl
    | some cell =>
        have hlt : other < s.objects.size := (Array.getElem?_eq_some_iff.1 hcell).1
        rw [if_pos ⟨hobject, hlt⟩]
        rfl
  · rw [if_neg hobject, if_neg fun h => hobject h.1]

theorem field?_define_of_ne (s : Store σ) {object other : ObjectId} {key key' : String}
    (value : Value) (h : object = other → key ≠ key') :
    (s.define object key value).1.field? other key' = s.field? other key' := by
  unfold field?
  rw [fieldsOf_define]
  by_cases hobject : object = other ∧ other < s.objects.size
  · rw [if_pos hobject, Table.find?_insert, if_neg (h hobject.1)]
  · rw [if_neg hobject]

theorem field?_congr {s t : Store σ} (h : t.objects = s.objects) (object : ObjectId)
    (key : String) : t.field? object key = s.field? object key := by
  unfold field? fieldsOf
  rw [h]

theorem lt_of_field?_eq_some {s : Store σ} {object : ObjectId} {key : String} {field : FieldId}
    (h : s.field? object key = some field) : object < s.objects.size := by
  by_cases hlt : object < s.objects.size
  · exact hlt
  · have hnone : s.objects[object]? = none := Array.getElem?_eq_none_iff.2 (Nat.le_of_not_lt hlt)
    unfold field? fieldsOf at h
    rw [hnone] at h
    cases h

/-- A write changes at most the value of its own field. -/
theorem assign_field (s : Store σ) (field : FieldId) (value : Value) {other : FieldId}
    {cell : FieldCell} (h : s.fields[other]? = some cell) :
    ∃ later, (s.assign field value).fields[other]? = some later ∧ later.policy = cell.policy ∧
      later.registrations = cell.registrations ∧ (field ≠ other → later.value = cell.value) := by
  unfold assign
  by_cases hsame : (s.peek field).sameValue value
  · rw [if_pos hsame]
    exact ⟨cell, h, rfl, rfl, fun _ => rfl⟩
  · rw [if_neg hsame]
    simp only [report, record, Array.getElem?_modify, h]
    by_cases hfield : field = other
    · rw [if_pos hfield]
      exact ⟨_, rfl, rfl, rfl, fun hne => absurd hfield hne⟩
    · rw [if_neg hfield]
      exact ⟨cell, rfl, rfl, rfl, fun _ => rfl⟩

theorem assign_objects (s : Store σ) (field : FieldId) (value : Value) :
    (s.assign field value).objects = s.objects := by
  unfold assign
  split <;> rfl

/-- A registration changes at most the registrations of its own field. -/
theorem register_field (s : Store σ) (field : FieldId) (subscriber : SubscriberId)
    {other : FieldId} {cell : FieldCell} (h : s.fields[other]? = some cell) :
    ∃ later, (s.register field subscriber).fields[other]? = some later ∧
      later.value = cell.value ∧ later.policy = cell.policy ∧
      cell.registrations ⊆ later.registrations ∧
      (field = other → subscriber ∈ later.registrations) := by
  unfold register
  simp only [report, record, Array.getElem?_modify, h, Option.map_some]
  by_cases hfield : field = other
  · rw [if_pos hfield]
    refine ⟨_, rfl, rfl, rfl, List.subset_append_left _ _, fun _ => ?_⟩
    exact List.mem_append_right _ (List.mem_singleton.2 rfl)
  · rw [if_neg hfield]
    exact ⟨cell, rfl, rfl, rfl, List.Subset.refl _, fun heq => absurd heq hfield⟩

/-- A tracked read registers whoever is collecting, and changes nothing else about fields. -/
theorem get_field (s : Store σ) (field : FieldId) {other : FieldId} {cell : FieldCell}
    (h : s.fields[other]? = some cell) :
    ∃ later, (s.get field).1.fields[other]? = some later ∧ later.value = cell.value ∧
      later.policy = cell.policy ∧ cell.registrations ⊆ later.registrations ∧
      (field = other → ∀ subscriber, s.active = some subscriber →
        subscriber ∈ later.registrations) := by
  have hreported : (s.report (.gotten (s.fieldKey field))).fields[other]? = some cell := h
  have hslot : (s.report (.gotten (s.fieldKey field))).active = s.active := rfl
  unfold get track
  rw [hslot]
  cases hactive : s.active with
  | none => exact ⟨cell, h, rfl, rfl, List.Subset.refl _, fun _ _ habsurd => nomatch habsurd⟩
  | some subscriber =>
      obtain ⟨later, hlater, hvalue, hpolicy, hsubset, hmem⟩ :=
        register_field _ field subscriber hreported
      refine ⟨later, hlater, hvalue, hpolicy, hsubset, fun hsame other hother => ?_⟩
      obtain rfl := Option.some.inj hother
      exact hmem hsame

/-- The object is there, has the policy, and so has each of its fields. -/
structure Uniform (s : Store σ) (object : ObjectId) (policy : NotifyPolicy) : Prop where
  isObject : ∃ cell, s.objects[object]? = some cell ∧ cell.policy = policy
  fields : ∀ key field, s.field? object key = some field →
    ∃ cell, s.fields[field]? = some cell ∧ cell.policy = policy

theorem Uniform.newObject (s : Store σ) (policy : NotifyPolicy) :
    (s.newObject policy).1.Uniform s.objects.size policy where
  isObject := ⟨{ policy }, Array.getElem?_push_size, rfl⟩
  fields key field h := by
    unfold field? fieldsOf at h
    simp only [Store.newObject, Array.getElem?_push_size] at h
    cases h

theorem Uniform.of_policies {s t : Store σ} {object : ObjectId} {policy : NotifyPolicy}
    (hobjects : t.objects = s.objects)
    (hfields : ∀ (field : FieldId) (cell : FieldCell), s.fields[field]? = some cell →
      ∃ later : FieldCell, t.fields[field]? = some later ∧ later.policy = cell.policy)
    (h : s.Uniform object policy) : t.Uniform object policy where
  isObject := by
    rw [hobjects]
    exact h.isObject
  fields key field hfield := by
    unfold field? fieldsOf at hfield
    rw [hobjects] at hfield
    obtain ⟨cell, hcell, hpolicy⟩ := h.fields key field hfield
    obtain ⟨later, hlater, hsame⟩ := hfields field cell hcell
    exact ⟨later, hlater, hsame.trans hpolicy⟩

/-- Every step, definitions in the object included, keeps it uniform. -/
theorem Uniform.progress (object : ObjectId) (policy : NotifyPolicy) :
    Progress fun s t : Store σ => s.Uniform object policy → t.Uniform object policy where
  refl _ h := h
  trans hst htu h := htu (hst h)
  record _ _ h := ⟨h.isObject, h.fields⟩
  newArray _ _ h := ⟨h.isObject, h.fields⟩
  newObject s other h := by
    obtain ⟨cell, hcell, hpolicy⟩ := h.isObject
    have hlt : object < s.objects.size := (Array.getElem?_eq_some_iff.1 hcell).1
    have hsame : (s.newObject other).1.objects[object]? = s.objects[object]? := by
      simp only [Store.newObject]
      rw [Array.getElem?_push_lt hlt, Array.getElem?_eq_getElem hlt]
    refine ⟨⟨cell, hsame.trans hcell, hpolicy⟩, fun key field hfield => h.fields key field ?_⟩
    unfold field? fieldsOf at hfield ⊢
    rw [hsame] at hfield
    exact hfield
  register s field subscriber h := by
    refine of_policies (s := s) rfl (fun other cell hcell => ?_) h
    obtain ⟨later, hlater, -, hpolicy, -⟩ := register_field s field subscriber hcell
    exact ⟨later, hlater, hpolicy⟩
  edit _ _ h := ⟨h.isObject, h.fields⟩
  share _ _ h := ⟨h.isObject, h.fields⟩
  assign s field value h := by
    refine of_policies (assign_objects s field value) (fun other cell hcell => ?_) h
    obtain ⟨later, hlater, hpolicy, -⟩ := assign_field s field value hcell
    exact ⟨later, hlater, hpolicy⟩
  push _ _ h := ⟨h.isObject, h.fields⟩
  collecting _ hrun h := by
    obtain ⟨hobject, hfields⟩ := hrun ⟨h.isObject, h.fields⟩
    exact ⟨hobject, hfields⟩
  define s other key value h := by
    obtain ⟨cell, hcell, hpolicy⟩ := h.isObject
    have hlt : object < s.objects.size := (Array.getElem?_eq_some_iff.1 hcell).1
    have hkept (field : FieldId) (cell : FieldCell) (hfield : s.fields[field]? = some cell) :
        (s.define other key value).1.fields[field]? = some cell := by
      rw [getElem?_fields_define s other key value (Array.getElem?_eq_some_iff.1 hfield).1]
      exact hfield
    constructor
    · rw [getElem?_objects_define, hcell]
      by_cases hother : other = object
      · rw [if_pos hother]
        exact ⟨_, rfl, hpolicy⟩
      · rw [if_neg hother]
        exact ⟨cell, rfl, hpolicy⟩
    · intro key' field hfield
      -- The field is the one defined here, with the object's policy, or one of the old ones.
      by_cases hnew : other = object ∧ key = key'
      · obtain ⟨rfl, rfl⟩ := hnew
        unfold field? at hfield
        rw [fieldsOf_define, if_pos ⟨rfl, hlt⟩, Table.find?_insert, if_pos rfl] at hfield
        obtain rfl := Option.some.inj hfield
        refine ⟨{ key, value, policy := s.policyOf other }, ?_, ?_⟩
        · simp only [define, report, record, Array.getElem?_push_size]
        · simp only [policyOf, hcell, Option.map_some, Option.getD_some, hpolicy]
      · rw [field?_define_of_ne s value fun hobject hkey => hnew ⟨hobject, hkey⟩] at hfield
        obtain ⟨old, hold, hsame⟩ := h.fields key' field hfield
        exact ⟨old, hkept field old hold, hsame⟩

/-- An object made from data is uniform. -/
theorem uniform_observe (s : Store σ) (policy : NotifyPolicy) (json : Json) {object : ObjectId}
    (h : (s.observe policy json).2 = .object object) :
    (s.observe policy json).1.Uniform object policy := by
  cases json with
  | object members =>
      obtain rfl := Value.object.inj h
      exact (Uniform.progress s.objects.size policy).observeMembers policy _ _ members
        (Uniform.newObject s policy)
  | _ => cases h

end Store

end LiveTemplate
