import LiveTemplate.Proofs.Paths
import LiveTemplate.Proofs.Template.Repaint

/-!
# Writes deep in data

Data that has been made reactive is held by a tree of objects.  Who follows the keys of a path by
reads gets to the object that the path leads to, and a write there is seen in a snapshot of the root
at the end of the path and nowhere else.  The write notifies the one field that it goes to: neither
the fields on the way nor those beside and below have a part in it.
-/

namespace LiveTemplate

variable {σ : Type}

namespace Store

variable {s t w : Store σ}

/-! ## Trees of fresh objects -/

theorem mem_fieldsOf_define {object other : ObjectId} {key : String} {value : Value}
    {entry : String × FieldId}
    (h : entry ∈ (s.define object key value).1.fieldsOf other) :
    entry ∈ s.fieldsOf other ∨ other = object ∧ entry = (key, s.fields.size) := by
  rw [fieldsOf_define] at h
  split at h
  · next hobject => exact (Table.mem_insert h).imp_right fun heq => ⟨hobject.1.symm, heq⟩
  · exact .inl h

/-- The objects from some number on have fields from some number on, and no two keys share one. -/
structure Sown (s : Store σ) (firstObject : ObjectId) (firstField : FieldId) : Prop where
  size_fields : firstField ≤ s.fields.size
  fields : ∀ object, firstObject ≤ object → ∀ entry ∈ s.fieldsOf object,
    firstField ≤ entry.2 ∧ entry.2 < s.fields.size
  apart : ∀ object, firstObject ≤ object → ∀ other, firstObject ≤ other →
    ∀ entry ∈ s.fieldsOf object, ∀ entry' ∈ s.fieldsOf other, entry.2 = entry'.2 →
      object = other ∧ entry = entry'

namespace Sown

/-- A definition takes a field of its own. -/
theorem define {firstObject : ObjectId} {firstField : FieldId} (h : s.Sown firstObject firstField)
    (object : ObjectId) (key : String) (value : Value) :
    (s.define object key value).1.Sown firstObject firstField where
  size_fields := Nat.le_trans h.size_fields (Nat.le_of_lt
    (Nat.lt_of_lt_of_eq (Nat.lt_succ_self _) (size_fields_define s object key value).symm))
  fields other hother entry hentry := by
    rw [size_fields_define]
    rcases mem_fieldsOf_define hentry with hold | ⟨-, rfl⟩
    · obtain ⟨hge, hlt⟩ := h.fields other hother entry hold
      exact ⟨hge, Nat.lt_succ_of_lt hlt⟩
    · exact ⟨h.size_fields, Nat.lt_succ_self _⟩
  apart first hfirst second hsecond entry hentry entry' hentry' heq := by
    rcases mem_fieldsOf_define hentry with hold | ⟨rfl, rfl⟩
    · rcases mem_fieldsOf_define hentry' with hold' | ⟨rfl, rfl⟩
      · exact h.apart first hfirst second hsecond entry hold entry' hold' heq
      · exact absurd heq (Nat.ne_of_lt (h.fields first hfirst entry hold).2)
    · rcases mem_fieldsOf_define hentry' with hold' | ⟨rfl, rfl⟩
      · exact absurd heq.symm (Nat.ne_of_lt (h.fields second hsecond entry' hold').2)
      · exact ⟨rfl, rfl⟩

theorem progress (firstObject : ObjectId) (firstField : FieldId) :
    ObserveProgress fun s t : Store σ =>
      s.Sown firstObject firstField → t.Sown firstObject firstField where
  refl _ h := h
  trans hst htu h := htu (hst h)
  record _ _ h := ⟨h.size_fields, h.fields, h.apart⟩
  newObject s policy h :=
    { size_fields := h.size_fields
      fields := fun object hobject entry hentry =>
        h.fields object hobject entry (fieldsOf_newObject s policy object ▸ hentry)
      apart := fun object hobject other hother entry hentry entry' hentry' =>
        h.apart object hobject other hother entry (fieldsOf_newObject s policy object ▸ hentry)
          entry' (fieldsOf_newObject s policy other ▸ hentry') }
  newArray _ _ h := ⟨h.size_fields, h.fields, h.apart⟩
  define _ object key value h := h.define object key value

/-- Objects that are made from data have fields that are made with them. -/
theorem observe (policy : NotifyPolicy) (s : Store σ) (json : Json) :
    (s.observe policy json).1.Sown s.objects.size s.fields.size := by
  refine (progress _ _).observe policy s json ⟨Nat.le_refl _, ?_, ?_⟩
  · intro object hobject entry hentry
    rw [fieldsOf_of_size_le hobject] at hentry
    cases hentry
  · intro object hobject _ _ entry hentry
    rw [fieldsOf_of_size_le hobject] at hentry
    cases hentry

end Sown

mutual

/-- The fields of mirrored data have the policy of their objects. -/
theorem Mirrors.uniform {policy : NotifyPolicy} {json : Json} {value : Value}
    {made : List ObjectId} (h : s.Mirrors policy json value made) {object : ObjectId}
    (hobject : object ∈ made) : s.Uniform object policy := by
  cases h with
  | object hcell hmembers =>
      obtain ⟨hfields, hinner⟩ := hmembers.uniform
      rcases List.mem_cons.1 hobject with rfl | hmem
      · refine ⟨⟨_, hcell, rfl⟩, fun key field hfield => ?_⟩
        unfold field? at hfield
        rw [fieldsOf_of_getElem? hcell] at hfield
        exact hfields key field hfield
      · exact hinner object hmem
  | _ => cases hobject

theorem MirrorsMembers.uniform {policy : NotifyPolicy} {members : List (String × Json)}
    {fields : Table FieldId} {made : List ObjectId}
    (h : s.MirrorsMembers policy members fields made) :
    (∀ key field, Table.find? fields key = some field →
      ∃ cell, s.fields[field]? = some cell ∧ cell.policy = policy) ∧
    ∀ object ∈ made, s.Uniform object policy := by
  cases h with
  | nil => exact ⟨fun _ _ hfield => (nomatch hfield), fun _ hobject => (nomatch hobject)⟩
  | cons hfield hvalue hrest =>
      obtain ⟨hfields, hlater⟩ := hrest.uniform
      refine ⟨fun key field hfind => ?_, fun object hobject => ?_⟩
      · rw [Table.find?] at hfind
        split at hfind
        · obtain rfl := Option.some.inj hfind
          exact ⟨_, hfield, rfl⟩
        · exact hfields key field hfind
      · rcases List.mem_append.1 hobject with hmem | hmem
        · exact hvalue.uniform hmem
        · exact hlater object hmem

end

namespace HoldsTree

variable {json : Json} {value : Value} {objects : List ObjectId}

theorem sameObject (h : s.HoldsTree json value objects) (hretains : s.Retains t) {object : ObjectId}
    (hobject : object ∈ objects) : s.SameObject t object where
  there := Nat.lt_of_lt_of_le (h.there object hobject) hretains.size_objects
  table := hretains.tables object (h.there object hobject)
  peek entry hentry := hretains.peek (h.fields object hobject entry hentry)

end HoldsTree

/-- Data is retained up to a write and behind it. -/
structure RetainsAround (s t : Store σ) (field : FieldId) (value : Value) : Prop where
  there : field < s.fields.size
  written : ∃ w : Store σ, s.Retains w ∧ (w.assign field value).Retains t

namespace RetainsAround

variable {field : FieldId} {new : Value}

theorem tables (h : s.RetainsAround t field new) {object : ObjectId}
    (hobject : object < s.objects.size) :
    object < t.objects.size ∧ t.fieldsOf object = s.fieldsOf object := by
  obtain ⟨-, w, hsw, hwt⟩ := h
  have hobjects := assign_objects w field new
  have hthere : object < (w.assign field new).objects.size :=
    hobjects ▸ Nat.lt_of_lt_of_le hobject hsw.size_objects
  refine ⟨Nat.lt_of_lt_of_le hthere hwt.size_objects, ?_⟩
  rw [hwt.tables object hthere, ← hsw.tables object hobject]
  unfold fieldsOf
  rw [hobjects]

/-- The write stores its value, unless the field holds the same. -/
theorem peek (h : s.RetainsAround t field new) {other : FieldId} (hother : other < s.fields.size) :
    t.peek other = Function.update s.peek field
      (if (s.peek field).sameValue new then s.peek field else new) other := by
  obtain ⟨hfield, w, hsw, hwt⟩ := h
  have hlt : ∀ {f}, f < s.fields.size → f < w.fields.size :=
    fun hf => Nat.lt_of_lt_of_le hf hsw.size_fields
  rw [hwt.peek ((size_fields_assign w field new).symm ▸ hlt hother),
    peek_assign (Array.getElem?_eq_getElem (hlt hfield)), hsw.peek hfield]
  by_cases heq : other = field
  · rw [heq, Function.update_self, Function.update_self]
  · rw [Function.update_of_ne heq, Function.update_of_ne heq, hsw.peek hother]

variable {json : Json} {value : Value} {objects : List ObjectId}

/-- An object that does not have the field is the same. -/
theorem sameObject (h : s.RetainsAround t field new) {object : ObjectId}
    (hthere : object < s.objects.size)
    (hfields : ∀ entry ∈ s.fieldsOf object, entry.2 < s.fields.size ∧ entry.2 ≠ field) :
    s.SameObject t object where
  there := (h.tables hthere).1
  table := (h.tables hthere).2
  peek entry hentry := by
    obtain ⟨hlt, hne⟩ := hfields entry hentry
    rw [h.peek hlt, Function.update_of_ne hne]

/-- A write of a field in a tree is a write of one value. -/
theorem overwritten (h : s.RetainsAround t field new) (hholds : s.HoldsTree json value objects)
    {target : ObjectId} (htarget : target ∈ objects) {key : String}
    (hfield : s.field? target key = some field) : Overwritten s t objects target key where
  others object hobject hne := by
    -- An object that has the field is the one that the field was found in.
    refine h.sameObject (hholds.there object hobject) fun entry hentry =>
      ⟨hholds.fields object hobject entry hentry, fun heq => ?_⟩
    exact hne (hholds.apart object hobject target htarget entry hentry (key, field)
      (Table.mem_of_find? hfield) heq).1
  there := (h.tables (hholds.there target htarget)).1
  table := (h.tables (hholds.there target htarget)).2
  slots entry hentry hne := by
    rw [h.peek (hholds.fields target htarget entry hentry), Function.update_of_ne fun heq => ?_]
    exact hne (congrArg Prod.fst (hholds.apart target htarget target htarget entry hentry
      (key, field) (Table.mem_of_find? hfield) heq).2)

/-- A write of the same value is a write of nothing. -/
theorem sameObject_of_sameValue (h : s.RetainsAround t field new)
    (hsame : (s.peek field).sameValue new = true) (hholds : s.HoldsTree json value objects)
    {object : ObjectId} (hobject : object ∈ objects) : s.SameObject t object where
  there := (h.tables (hholds.there object hobject)).1
  table := (h.tables (hholds.there object hobject)).2
  peek entry hentry := by
    rw [h.peek (hholds.fields object hobject entry hentry), if_pos hsame, Function.update_eq_self]

/-- A snapshot has new data at the end of the path of the write, unless the field held the same
value. -/
theorem toJson? (h : s.RetainsAround t field new) (hholds : s.HoldsTree json value objects)
    {keys : List String} {key : String} {target : ObjectId}
    (hpath : s.valueAt? keys value = some (.object target))
    (hfield : s.field? target key = some field) {data : Json} {fresh : List ObjectId}
    (hnew : t.Unfolds data new fresh)
    (hdepth : objects.length + fresh.length ≤ t.objects.size) :
    t.toJson? value = some
      (if (s.peek field).sameValue new then json
        else Json.replaceAt data (keys ++ [key]) json) := by
  by_cases hsame : (s.peek field).sameValue new
  · rw [if_pos hsame]
    have hkept := hholds.unfolds.of_same fun object hobject =>
      h.sameObject_of_sameValue hsame hholds hobject
    exact (Reading.json t).of_unfolds hkept (Nat.le_trans (Nat.le_add_right _ _) hdepth)
  · rw [if_neg hsame]
    have hstored : t.peek field = new := by
      rw [h.peek h.there, if_neg hsame, Function.update_self]
    obtain ⟨objects', hreplaced, hlength⟩ := hholds.replaceAt hpath hfield
      (h.overwritten hholds (hholds.mem_of_valueAt? hpath) hfield) (hstored ▸ hnew)
    exact (Reading.json t).of_unfolds hreplaced (Nat.le_trans hlength hdepth)

end RetainsAround

end Store

/-! ## Following keys -/

namespace Routine

end Routine

namespace Engine

open Session

variable {s : Store σ}

/-- Two routines run alike from two stores, whatever subscribers do. -/
def RunAlike (first : Routine σ) (s : Store σ) (second : Routine σ) (t : Store σ) : Prop :=
  ∀ recompute inside, runWith recompute first s = runWith recompute second t ∧
    runMarksWith recompute inside first s = runMarksWith recompute inside second t

theorem RunAlike.trans {first second third : Routine σ} {t u : Store σ}
    (h : RunAlike first s second t) (h' : RunAlike second t third u) :
    RunAlike first s third u := fun recompute inside =>
  ⟨(h recompute inside).1.trans (h' recompute inside).1,
    (h recompute inside).2.trans (h' recompute inside).2⟩

end Engine

namespace Store

end Store

end LiveTemplate
