import LiveTemplate.Proofs.Reactive.Slots
import Mathlib.Data.List.Induction

/-!
# The history of definitions

Every definition makes the next field, and no field ever goes away, so the fields in their order
tell what has been defined so far, and under which key.  The history adds in which object.  The
table of an object is what its part of the history makes of an empty one: its keys stand in the
order in which they were defined first, and each holds the field that was defined last.
-/

namespace LiveTemplate

variable {σ : Type}

/-! ## Tables of entries -/

namespace Table

variable {α : Type}

theorem ofEntries_concat (entries : List (String × α)) (key : String) (value : α) :
    ofEntries (entries ++ [(key, value)]) = insert (ofEntries entries) key value := by
  unfold ofEntries
  rw [List.foldl_append]
  rfl

/-- The keys are those of the entries, each where it comes first. -/
theorem keys_ofEntries (entries : List (String × α)) :
    keys (ofEntries entries) = (entries.map Prod.fst).eraseDups := by
  induction entries using List.reverseRecOn with
  | nil => rfl
  | append_singleton entries entry ih =>
      obtain ⟨key, value⟩ := entry
      rw [ofEntries_concat, keys_insert, ih, List.map_append, List.eraseDups_append]
      by_cases hpresent : key ∈ entries.map Prod.fst
      · rw [if_pos (List.mem_eraseDups.2 hpresent)]
        simp [List.removeAll, hpresent]
      · rw [if_neg (mt List.mem_eraseDups.1 hpresent)]
        simp [List.removeAll, hpresent, List.eraseDups_cons]

theorem nodup_keys_ofEntries (entries : List (String × α)) :
    (keys (ofEntries entries)).Nodup := by
  induction entries using List.reverseRecOn with
  | nil => exact List.nodup_nil
  | append_singleton entries entry ih =>
      rw [ofEntries_concat]
      exact nodup_keys_insert ih entry.1 entry.2

/-- Entries with different keys are a table as they are. -/
theorem ofEntries_of_nodup {entries : List (String × α)} (h : (keys entries).Nodup) :
    ofEntries entries = entries := by
  induction entries using List.reverseRecOn with
  | nil => rfl
  | append_singleton entries entry ih =>
      obtain ⟨key, value⟩ := entry
      rw [keys, List.map_append, List.nodup_append] at h
      rw [ofEntries_concat, ih h.1, insert_of_not_mem]
      exact fun hmem => h.2.2 key hmem key (List.mem_singleton_self key) rfl

theorem mem_of_mem_ofEntries {entries : List (String × α)} {entry : String × α}
    (h : entry ∈ ofEntries entries) : entry ∈ entries := by
  induction entries using List.reverseRecOn with
  | nil => exact h
  | append_singleton entries last ih =>
      rw [ofEntries_concat] at h
      rcases mem_insert h with hold | rfl
      · exact List.mem_append_left _ (ih hold)
      · exact List.mem_append_right _ (List.mem_singleton.2 rfl)

end Table

/-! ## Histories -/

/-- A definition: its key, and its object, if that was there. -/
structure Definition where
  object : Option ObjectId
  key : String

/-- The definitions of a history in one object, each with its field. -/
def definitionsIn (history : List Definition) (object : ObjectId) : Table FieldId :=
  history.zipIdx.filterMap fun entry =>
    if entry.1.object = some object then some (entry.1.key, entry.2) else none

theorem definitionsIn_concat (history : List Definition) (definition : Definition)
    (object : ObjectId) :
    definitionsIn (history ++ [definition]) object = definitionsIn history object ++
      if definition.object = some object then [(definition.key, history.length)] else [] := by
  unfold definitionsIn
  rw [List.zipIdx_append, List.filterMap_append]
  split <;> simp [*]

theorem mem_definitionsIn {history : List Definition} {object : ObjectId} {key : String}
    {field : FieldId} :
    (key, field) ∈ definitionsIn history object ↔ history[field]? = some ⟨some object, key⟩ := by
  unfold definitionsIn
  simp only [List.mem_filterMap, Prod.exists, Option.ite_none_right_eq_some, Option.some.injEq,
    Prod.mk.injEq, List.mem_zipIdx_iff_getElem?]
  constructor
  · rintro ⟨definition, other, hentry, hobject, rfl, rfl⟩
    rw [hentry, ← hobject]
  · intro hentry
    exact ⟨_, field, hentry, rfl, rfl, rfl⟩

namespace Store

/-- The history tells the keys of all fields, the objects that they were defined in, and with that
the tables of all objects. -/
structure HasHistory (s : Store σ) (history : List Definition) : Prop where
  keys (field : FieldId) :
    s.fields[field]?.map FieldCell.key = history[field]?.map Definition.key
  there : ∀ definition ∈ history, ∀ object, definition.object = some object →
    object < s.objects.size
  tables (object : ObjectId) : s.fieldsOf object = Table.ofEntries (definitionsIn history object)

namespace HasHistory

variable {s t : Store σ} {history : List Definition}

theorem empty {s : Store σ} (hobjects : s.objects = #[]) (hfields : s.fields = #[]) :
    s.HasHistory [] where
  keys field := by simp [hfields]
  there _ h := absurd h List.not_mem_nil
  tables object := by simp [fieldsOf, hobjects, definitionsIn, Table.ofEntries]

theorem length_eq (h : s.HasHistory history) : history.length = s.fields.size := by
  have hnone (field : Nat) : history.length ≤ field ↔ s.fields.size ≤ field := by
    rw [← List.getElem?_eq_none_iff, ← Array.getElem?_eq_none_iff, ← Option.map_eq_none_iff,
      ← h.keys field, Option.map_eq_none_iff]
  exact Nat.le_antisymm ((hnone _).2 (Nat.le_refl _)) ((hnone _).1 (Nat.le_refl _))

/-- What changes no table and no key of a field has no part in the history. -/
theorem of_same (h : s.HasHistory history)
    (hobjects : t.objects = s.objects)
    (hkeys : ∀ field : FieldId,
      t.fields[field]?.map FieldCell.key = s.fields[field]?.map FieldCell.key) :
    t.HasHistory history where
  keys field := (hkeys field).trans (h.keys field)
  there := hobjects ▸ h.there
  tables object := by
    rw [← h.tables object]
    unfold fieldsOf
    rw [hobjects]

theorem newObject (h : s.HasHistory history) (policy : NotifyPolicy) :
    (s.newObject policy).1.HasHistory history where
  keys := h.keys
  there definition hdefinition object hobject := by
    have hsize : (s.newObject policy).1.objects.size = s.objects.size + 1 := Array.size_push _
    rw [hsize]
    exact Nat.lt_succ_of_lt (h.there definition hdefinition object hobject)
  tables object := (fieldsOf_newObject s policy object).trans (h.tables object)

/-- A definition comes last in the history. -/
theorem define (h : s.HasHistory history) (object : ObjectId) (key : String) (value : Value) :
    (s.define object key value).1.HasHistory
      (history ++ [⟨if object < s.objects.size then some object else none, key⟩]) where
  keys field := by
    have hlength := h.length_eq
    simp only [Store.define, report, record, Array.getElem?_push]
    split
    · next hlast =>
        rw [hlast, ← hlength, List.getElem?_concat_length]
        rfl
    · next hother =>
        by_cases hlt : field < history.length
        · rw [List.getElem?_append_left hlt]
          exact h.keys field
        · have hbehind : s.fields.size < field :=
            Nat.lt_of_le_of_ne (hlength ▸ Nat.le_of_not_lt hlt) (Ne.symm hother)
          rw [Array.getElem?_eq_none_iff.2 (Nat.le_of_lt hbehind), List.getElem?_eq_none_iff.2
            (by rw [List.length_append, hlength]; exact hbehind)]
          rfl
  there definition hdefinition other hother := by
    have hsize : (s.define object key value).1.objects.size = s.objects.size := Array.size_modify
    rw [hsize]
    rcases List.mem_append.1 hdefinition with hold | hnew
    · exact h.there definition hold other hother
    · rw [List.mem_singleton.1 hnew] at hother
      obtain ⟨hlt, heq⟩ := Option.ite_none_right_eq_some.1 hother
      exact Option.some.inj heq ▸ hlt
  tables other := by
    rw [fieldsOf_define, definitionsIn_concat, h.tables, h.length_eq]
    by_cases hlt : object < s.objects.size
    · rw [if_pos hlt]
      by_cases hobject : object = other
      · rw [if_pos ⟨hobject, hobject ▸ hlt⟩, if_pos (congrArg some hobject),
          Table.ofEntries_concat]
      · rw [if_neg fun hboth => hobject hboth.1, if_neg fun heq => hobject (Option.some.inj heq),
          List.append_nil]
    · -- A definition in an object that is not there makes a field that nobody has.
      have hnobody : (none : Option ObjectId) ≠ some other := (Option.some_ne_none other).symm
      have hneither : ¬(object = other ∧ other < s.objects.size) :=
        fun hboth => hlt (hboth.1 ▸ hboth.2)
      rw [if_neg hneither, if_neg hlt, if_neg hnobody, List.append_nil]

theorem register (h : s.HasHistory history) (field : FieldId) (subscriber : SubscriberId) :
    (s.register field subscriber).HasHistory history := by
  refine h.of_same rfl fun other => ?_
  simp only [Store.register, report, record, Array.getElem?_modify]
  split
  · rw [Option.map_map]
    rfl
  · rfl

theorem assign (h : s.HasHistory history) (field : FieldId) (value : Value) :
    (s.assign field value).HasHistory history := by
  refine h.of_same (assign_objects s field value) fun other => ?_
  unfold Store.assign
  split
  · rfl
  · simp only [report, record, Array.getElem?_modify]
    split
    · rw [Option.map_map]
      rfl
    · rfl

/-- Every step only adds to the history. -/
theorem progress : Progress fun s t : Store σ =>
    ∀ history, s.HasHistory history → ∃ later, t.HasHistory (history ++ later) where
  refl _ history h := ⟨[], (List.append_nil history).symm ▸ h⟩
  trans hst htu history h := by
    obtain ⟨later, hlater⟩ := hst history h
    obtain ⟨last, hlast⟩ := htu _ hlater
    exact ⟨later ++ last, List.append_assoc history later last ▸ hlast⟩
  record _ _ history h := ⟨[], (List.append_nil history).symm ▸ h.of_same rfl fun _ => rfl⟩
  newObject _ policy history h := ⟨[], (List.append_nil history).symm ▸ h.newObject policy⟩
  newArray _ _ history h := ⟨[], (List.append_nil history).symm ▸ h.of_same rfl fun _ => rfl⟩
  define _ object key value history h := ⟨_, h.define object key value⟩
  register _ field subscriber history h :=
    ⟨[], (List.append_nil history).symm ▸ h.register field subscriber⟩
  edit _ _ history h := ⟨[], (List.append_nil history).symm ▸ h.of_same rfl fun _ => rfl⟩
  share _ _ history h := ⟨[], (List.append_nil history).symm ▸ h.of_same rfl fun _ => rfl⟩
  assign _ field value history h := ⟨[], (List.append_nil history).symm ▸ h.assign field value⟩
  push _ _ history h := ⟨[], (List.append_nil history).symm ▸ h.of_same rfl fun _ => rfl⟩
  collecting _ hrun history h := by
    obtain ⟨later, hlater⟩ := hrun history (h.of_same rfl fun _ => rfl)
    exact ⟨later, hlater.of_same rfl fun _ => rfl⟩

/-! ## Reading the history -/

theorem keys_fieldsOf (h : s.HasHistory history) (object : ObjectId) :
    Table.keys (s.fieldsOf object) =
      ((definitionsIn history object).map Prod.fst).eraseDups := by
  rw [h.tables, Table.keys_ofEntries]

/-- The field in a slot was defined there. -/
theorem getElem?_of_field? (h : s.HasHistory history) {object : ObjectId} {key : String}
    {field : FieldId} (hfield : s.field? object key = some field) :
    history[field]? = some ⟨some object, key⟩ := by
  have hmem := Table.mem_of_find? hfield
  rw [h.tables] at hmem
  exact mem_definitionsIn.1 (Table.mem_of_mem_ofEntries hmem)

/-- A key has been defined in an object if and only if the object has it. -/
theorem mem_iff (h : s.HasHistory history) {object : ObjectId} {key : String} :
    ⟨some object, key⟩ ∈ history ↔ ∃ field, s.field? object key = some field := by
  unfold field?
  rw [← Table.mem_keys_iff, h.keys_fieldsOf, List.mem_eraseDups, List.mem_iff_getElem?]
  simp only [List.mem_map, Prod.exists, exists_and_right, exists_eq_right, mem_definitionsIn]

end HasHistory

/-- The keys of each object are different, and so are the fields of different slots.  Each field has
the key of its slot. -/
structure Slotted (s : Store σ) : Prop where
  nodup_keys (object : ObjectId) : (Table.keys (s.fieldsOf object)).Nodup
  key {object : ObjectId} {key : String} {field : FieldId} (h : s.field? object key = some field) :
    ∃ cell, s.fields[field]? = some cell ∧ cell.key = key
  apart {object other : ObjectId} {key key' : String} {field : FieldId}
    (h : s.field? object key = some field) (h' : s.field? other key' = some field) :
    object = other ∧ key = key'

theorem HasHistory.slotted {s : Store σ} {history : List Definition} (h : s.HasHistory history) :
    s.Slotted where
  nodup_keys object := by
    rw [h.tables]
    exact Table.nodup_keys_ofEntries _
  key {object key field} hfield := by
    have hkey := h.keys field
    rw [h.getElem?_of_field? hfield] at hkey
    exact Option.map_eq_some_iff.1 hkey
  apart hfield hfield' := by
    have hsame := (h.getElem?_of_field? hfield).symm.trans (h.getElem?_of_field? hfield')
    simpa using hsame

end Store

end LiveTemplate
