import LiveTemplate.Proofs.Reactive.Passive
import LiveTemplate.Proofs.Snapshots

/-!
# Paths through data

A path of keys leads from a value through objects to another value, and the same path leads through
the data that the value holds.  Where no object is passed twice, a value can be put in place of
another one at the end of a path: the data gets the new data there, and every other path leads where
it led before.
-/

namespace LiveTemplate

variable {σ : Type}

namespace Table

variable {α : Type}

theorem find?_append_cons {front back : Table α} {key : String} (h : key ∉ keys front)
    (value : α) : find? (front ++ (key, value) :: back) key = some value := by
  induction front with
  | nil => exact if_pos rfl
  | cons entry rest ih =>
      have hne : entry.1 ≠ key := fun heq => h (heq ▸ List.mem_cons_self)
      rw [List.cons_append, find?, if_neg hne]
      exact ih fun hmem => h (List.mem_cons_of_mem _ hmem)

theorem insert_append_cons {front back : Table α} {key : String} (h : key ∉ keys front)
    (old value : α) :
    insert (front ++ (key, old) :: back) key value = front ++ (key, value) :: back := by
  induction front with
  | nil => exact if_pos rfl
  | cons entry rest ih =>
      have hne : entry.1 ≠ key := fun heq => h (heq ▸ List.mem_cons_self)
      rw [List.cons_append, insert, if_neg hne]
      exact congrArg _ (ih fun hmem => h (List.mem_cons_of_mem _ hmem))

end Table

/-! ## Paths through data and through values -/

namespace Json

/-- The data that a path leads to, through the members of objects. -/
def at? : List String → Json → Option Json
  | [], json => some json
  | key :: rest, json => (json.member? key).bind (at? rest)

/-- The data with new data at the end of a path.  A path that leads nowhere changes nothing. -/
def replaceAt (new : Json) : List String → Json → Json
  | [], _ => new
  | key :: rest, .object members =>
    match Table.find? members key with
    | some member => .object (Table.insert members key (replaceAt new rest member))
    | none => .object members
  | _ :: _, json => json

theorem at?_cons {key : String} {rest : List String} {json found : Json}
    (h : json.at? (key :: rest) = some found) :
    ∃ members member, json = .object members ∧ Table.find? members key = some member ∧
      member.at? rest = some found := by
  obtain ⟨member, hmember, hrest⟩ := Option.bind_eq_some_iff.1 h
  cases json with
  | object members => exact ⟨members, member, rfl, hmember, hrest⟩
  | _ => cases hmember

theorem replaceAt_cons {key : String} {members : List (String × Json)} {member : Json}
    (h : Table.find? members key = some member) (new : Json) (rest : List String) :
    replaceAt new (key :: rest) (.object members) =
      .object (Table.insert members key (replaceAt new rest member)) := by
  rw [replaceAt, h]

theorem Keyed.member {members : List (String × Json)} (h : (Json.object members).Keyed)
    {key : String} {member : Json} (hmember : Table.find? members key = some member) :
    member.Keyed :=
  keyedMembers_iff.1 h.2 (key, member) (Table.mem_of_find? hmember)

end Json

namespace Store

/-- The value that a path leads to, through the fields of objects. -/
def valueAt? (s : Store σ) : List String → Value → Option Value
  | [], value => some value
  | key :: rest, .object object => (s.valueOf? object key).bind (valueAt? s rest)
  | _ :: _, _ => none

variable {s t : Store σ}

theorem valueAt?_cons {key : String} {rest : List String} {value found : Value}
    (h : s.valueAt? (key :: rest) value = some found) :
    ∃ object field, value = .object object ∧ s.field? object key = some field ∧
      s.valueAt? rest (s.peek field) = some found := by
  cases value with
  | object object =>
      obtain ⟨mid, hmid, hrest⟩ := Option.bind_eq_some_iff.1 h
      obtain ⟨field, hfield, rfl⟩ := Option.map_eq_some_iff.1 hmid
      exact ⟨object, field, rfl, hfield, hrest⟩
  | _ => cases h

theorem valueAt?_of_field? {object : ObjectId} {key : String} {field : FieldId}
    (h : s.field? object key = some field) (rest : List String) :
    s.valueAt? (key :: rest) (.object object) = s.valueAt? rest (s.peek field) := by
  rw [valueAt?, valueOf?, h]
  rfl

/-! ## What stays the same -/

/-- The object is there with its fields, and they have their values. -/
structure SameObject (s t : Store σ) (object : ObjectId) : Prop where
  there : object < t.objects.size
  table : t.fieldsOf object = s.fieldsOf object
  peek : ∀ entry ∈ s.fieldsOf object, t.peek entry.2 = s.peek entry.2

theorem SameObject.field? {object : ObjectId} (h : s.SameObject t object) (key : String) :
    t.field? object key = s.field? object key := by
  unfold Store.field?
  rw [h.table]

mutual

/-- Data is held as long as the objects are the same. -/
theorem Unfolds.of_same {json : Json} {value : Value} {objects : List ObjectId}
    (h : s.Unfolds json value objects) (hsame : ∀ object ∈ objects, s.SameObject t object) :
    t.Unfolds json value objects := by
  cases h with
  | null => exact .null
  | bool b => exact .bool b
  | number n => exact .number n
  | string text => exact .string text
  | array identity items => exact .array identity items
  | object hthere hmembers =>
      have hself := hsame _ List.mem_cons_self
      refine .object hself.there (hself.table.symm ▸ ?_)
      exact hmembers.of_same hself.peek fun other hother =>
        hsame other (List.mem_cons_of_mem _ hother)

theorem UnfoldsMembers.of_same {members : List (String × Json)} {fields : Table FieldId}
    {objects : List ObjectId} (h : s.UnfoldsMembers members fields objects)
    (hpeek : ∀ entry ∈ fields, t.peek entry.2 = s.peek entry.2)
    (hsame : ∀ object ∈ objects, s.SameObject t object) :
    t.UnfoldsMembers members fields objects := by
  cases h with
  | nil => exact .nil
  | cons hvalue hrest =>
      refine .cons ?_ ?_
      · rw [hpeek _ List.mem_cons_self]
        exact hvalue.of_same fun object hobject => hsame object (List.mem_append_left _ hobject)
      · exact hrest.of_same (fun entry hentry => hpeek entry (List.mem_cons_of_mem _ hentry))
          fun object hobject => hsame object (List.mem_append_right _ hobject)

end

/-! ## One member among the others -/

theorem UnfoldsMembers.keys {members : List (String × Json)} {fields : Table FieldId}
    {objects : List ObjectId} (h : s.UnfoldsMembers members fields objects) :
    Table.keys fields = Table.keys members := by
  cases h with
  | nil => rfl
  | cons hvalue hrest => exact congrArg _ hrest.keys

theorem UnfoldsMembers.append {members members' : List (String × Json)}
    {fields fields' : Table FieldId} {objects objects' : List ObjectId}
    (h : s.UnfoldsMembers members fields objects)
    (h' : s.UnfoldsMembers members' fields' objects') :
    s.UnfoldsMembers (members ++ members') (fields ++ fields') (objects ++ objects') := by
  cases h with
  | nil => exact h'
  | cons hvalue hrest =>
      rw [List.append_assoc]
      exact .cons hvalue (hrest.append h')

/-- The value of each field holds data, in objects among those of the members. -/
theorem UnfoldsMembers.of_mem {members : List (String × Json)} {fields : Table FieldId}
    {objects : List ObjectId} (h : s.UnfoldsMembers members fields objects)
    {entry : String × FieldId} (hentry : entry ∈ fields) :
    ∃ json inner, s.Unfolds json (s.peek entry.2) inner ∧ inner ⊆ objects := by
  cases h with
  | nil => cases hentry
  | cons hvalue hrest =>
      rcases List.mem_cons.1 hentry with rfl | hmem
      · exact ⟨_, _, hvalue, List.subset_append_left _ _⟩
      · obtain ⟨json, inner, hunfolds, hsubset⟩ := hrest.of_mem hmem
        exact ⟨json, inner, hunfolds, List.Subset.trans hsubset (List.subset_append_right _ _)⟩

/-- One member stands among the others: they have other keys and share no object with it. -/
inductive Parted (s : Store σ) (key : String) (json : Json) (field : FieldId)
    (inner : List ObjectId) : List (String × Json) → Table FieldId → List ObjectId → Prop
  | intro {front back : List (String × Json)} {before behind : Table FieldId}
      {earlier later : List ObjectId} (hfront : s.UnfoldsMembers front before earlier)
      (hvalue : s.Unfolds json (s.peek field) inner)
      (hback : s.UnfoldsMembers back behind later)
      (hkeys : ∀ entry ∈ before ++ behind, entry.1 ≠ key)
      (hobjects : ∀ object ∈ earlier ++ later, object ∉ inner) :
    Parted s key json field inner (front ++ (key, json) :: back)
      (before ++ (key, field) :: behind) (earlier ++ (inner ++ later))

/-- Each member stands among the others if no key and no object is there twice. -/
theorem UnfoldsMembers.parted {members : List (String × Json)} {fields : Table FieldId}
    {objects : List ObjectId} (h : s.UnfoldsMembers members fields objects)
    (hkeys : (Table.keys fields).Nodup) (hnodup : objects.Nodup) {key : String}
    (hkey : key ∈ Table.keys fields) :
    ∃ json field inner, s.Parted key json field inner members fields objects := by
  cases h with
  | nil => cases hkey
  | @cons first json field inner later rest fields hvalue hrest =>
      obtain ⟨hfirst, hothers⟩ := List.nodup_cons.1 hkeys
      obtain ⟨-, hlater, hdisjoint⟩ := List.nodup_append.1 hnodup
      -- The member with the key comes first, or the first one stands in front of it.
      by_cases heq : first = key
      · subst heq
        refine ⟨json, field, inner, .intro .nil hvalue hrest (fun entry hentry hsame => ?_)
          fun object hobject hinner => hdisjoint object hinner object hobject rfl⟩
        exact hfirst (List.mem_map.2 ⟨entry, hentry, hsame⟩)
      · have hmem : key ∈ Table.keys fields := (List.mem_cons.1 hkey).resolve_left (Ne.symm heq)
        obtain ⟨found, at', below, hparted⟩ := hrest.parted hothers hlater hmem
        refine ⟨found, at', below, ?_⟩
        cases hparted with
        | @intro front back before behind earlier last hfront hfound hback hnames hobjects =>
            rw [← List.append_assoc]
            refine .intro (.cons hvalue hfront) hfound hback (fun entry hentry => ?_)
              fun object hobject hbranch => ?_
            · rcases List.mem_cons.1 hentry with rfl | hentry
              · exact heq
              · exact hnames entry hentry
            · rw [List.append_assoc] at hobject
              rcases List.mem_append.1 hobject with hinner | hobject
              · exact hdisjoint object hinner object (by simp [hbranch]) rfl
              · exact hobjects object hobject hbranch

namespace Parted

variable {key : String} {json : Json} {field : FieldId} {inner : List ObjectId}
  {members : List (String × Json)} {fields : Table FieldId} {objects : List ObjectId}

theorem unfolds (h : s.Parted key json field inner members fields objects) :
    s.Unfolds json (s.peek field) inner := by
  obtain ⟨_, hvalue, _, _, _⟩ := h
  exact hvalue

theorem sublist (h : s.Parted key json field inner members fields objects) :
    inner.Sublist objects := by
  obtain ⟨_, _, _, _, _⟩ := h
  exact (List.sublist_append_left _ _).trans (List.sublist_append_right _ _)

theorem find?_fields (h : s.Parted key json field inner members fields objects) :
    Table.find? fields key = some field := by
  obtain ⟨_, _, _, hkeys, _⟩ := h
  refine Table.find?_append_cons (fun hmem => ?_) field
  obtain ⟨entry, hentry, hkey⟩ := List.mem_map.1 hmem
  exact hkeys entry (List.mem_append_left _ hentry) hkey

theorem not_mem_front {front : List (String × Json)} {before behind : Table FieldId}
    {earlier : List ObjectId} (hfront : s.UnfoldsMembers front before earlier)
    (hkeys : ∀ entry ∈ before ++ behind, entry.1 ≠ key) : key ∉ Table.keys front := by
  rw [← hfront.keys]
  intro hmem
  obtain ⟨entry, hentry, hkey⟩ := List.mem_map.1 hmem
  exact hkeys entry (List.mem_append_left _ hentry) hkey

theorem find?_members (h : s.Parted key json field inner members fields objects) :
    Table.find? members key = some json := by
  obtain ⟨hfront, _, _, hkeys, _⟩ := h
  exact Table.find?_append_cons (not_mem_front hfront hkeys) json

/-- The values of the other fields are in other objects. -/
theorem other (h : s.Parted key json field inner members fields objects)
    {entry : String × FieldId} (hentry : entry ∈ fields) (hne : entry.1 ≠ key) :
    ∃ json' inner', s.Unfolds json' (s.peek entry.2) inner' ∧
      ∀ object ∈ inner', object ∈ objects ∧ object ∉ inner := by
  obtain ⟨hfront, _, hback, _, hobjects⟩ := h
  rcases List.mem_append.1 hentry with hmem | hmem
  · obtain ⟨json', inner', hunfolds, hsubset⟩ := hfront.of_mem hmem
    refine ⟨json', inner', hunfolds, fun object hobject => ⟨?_, ?_⟩⟩
    · exact List.mem_append_left _ (hsubset hobject)
    · exact hobjects object (List.mem_append_left _ (hsubset hobject))
  · rcases List.mem_cons.1 hmem with rfl | hmem
    · exact absurd rfl hne
    · obtain ⟨json', inner', hunfolds, hsubset⟩ := hback.of_mem hmem
      refine ⟨json', inner', hunfolds, fun object hobject => ⟨?_, ?_⟩⟩
      · exact List.mem_append_right _ (List.mem_append_right _ (hsubset hobject))
      · exact hobjects object (List.mem_append_right _ (hsubset hobject))

/-- The member can be another one, while the others are the same. -/
theorem refill (h : s.Parted key json field inner members fields objects)
    (hpeek : ∀ entry ∈ fields, entry.1 ≠ key → t.peek entry.2 = s.peek entry.2)
    (hsame : ∀ object ∈ objects, object ∉ inner → s.SameObject t object) {new : Json}
    {fresh : List ObjectId} (hnew : t.Unfolds new (t.peek field) fresh) :
    ∃ objects', t.UnfoldsMembers (Table.insert members key new) fields objects' ∧
      objects'.length + inner.length = objects.length + fresh.length := by
  obtain @⟨front, back, before, behind, earlier, later, hfront, _, hback, hkeys, hobjects⟩ := h
  have hbefore : t.UnfoldsMembers front before earlier := by
    refine hfront.of_same (fun entry hentry => ?_) fun object hobject => ?_
    · exact hpeek entry (List.mem_append_left _ hentry)
        (hkeys entry (List.mem_append_left _ hentry))
    · exact hsame object (List.mem_append_left _ hobject)
        (hobjects object (List.mem_append_left _ hobject))
  have hbehind : t.UnfoldsMembers back behind later := by
    refine hback.of_same (fun entry hentry => ?_) fun object hobject => ?_
    · exact hpeek entry (List.mem_append_right _ (List.mem_cons_of_mem _ hentry))
        (hkeys entry (List.mem_append_right _ hentry))
    · exact hsame object (List.mem_append_right _ (List.mem_append_right _ hobject))
        (hobjects object (List.mem_append_right _ hobject))
  refine ⟨earlier ++ (fresh ++ later), ?_, ?_⟩
  · rw [Table.insert_append_cons (not_mem_front hfront hkeys)]
    exact hbefore.append (.cons hnew hbehind)
  · simp only [List.length_append]
    omega

end Parted

/-! ## Data in a tree of objects -/

/-- The value holds the data in a tree: no object is passed twice, and each key of each object has a
field that is there and that no other key has. -/
structure HoldsTree (s : Store σ) (json : Json) (value : Value) (objects : List ObjectId) :
    Prop where
  unfolds : s.Unfolds json value objects
  keyed : json.Keyed
  nodup : objects.Nodup
  there : ∀ object ∈ objects, object < s.objects.size
  fields : ∀ object ∈ objects, ∀ entry ∈ s.fieldsOf object, entry.2 < s.fields.size
  apart : ∀ object ∈ objects, ∀ other ∈ objects, ∀ entry ∈ s.fieldsOf object,
    ∀ entry' ∈ s.fieldsOf other, entry.2 = entry'.2 → object = other ∧ entry = entry'

/-- A member is in a tree of its own, below the object. -/
structure Branch (s : Store σ) (members : List (String × Json)) (object : ObjectId)
    (inner : List ObjectId) (key : String) (json : Json) (field : FieldId)
    (below : List ObjectId) : Prop where
  parted : s.Parted key json field below members (s.fieldsOf object) inner
  holds : s.HoldsTree json (s.peek field) below
  apart : object ∉ inner

namespace HoldsTree

variable {json : Json} {value : Value} {objects : List ObjectId}

/-- Where there is a key, there is an object with a member in it. -/
theorem branch {object : ObjectId} {key : String} (h : s.HoldsTree json (.object object) objects)
    (hkey : key ∈ Table.keys (s.fieldsOf object)) :
    ∃ members inner member field below, json = .object members ∧ objects = object :: inner ∧
      s.Branch members object inner key member field below := by
  obtain ⟨hunfolds, hkeyed, hnodup, hthere, hfields, hapart⟩ := h
  cases hunfolds with
  | @object members _ inner _ hmembers =>
      obtain ⟨hself, hinner⟩ := List.nodup_cons.1 hnodup
      have hkeys : (Table.keys (s.fieldsOf object)).Nodup := hmembers.keys ▸ hkeyed.1
      obtain ⟨member, field, below, hparted⟩ := hmembers.parted hkeys hinner hkey
      refine ⟨members, inner, member, field, below, rfl, rfl, hparted, ?_, hself⟩
      have hsub : below ⊆ object :: inner :=
        List.Subset.trans hparted.sublist.subset (List.subset_cons_self object inner)
      exact ⟨hparted.unfolds, hkeyed.member hparted.find?_members, hinner.sublist hparted.sublist,
        fun other hother => hthere other (hsub hother),
        fun other hother => hfields other (hsub hother),
        fun other hother last hlast => hapart other (hsub hother) last (hsub hlast)⟩

/-- Data that a path leads to is held by the value that the path leads to. -/
theorem at? {path : List String} (h : s.HoldsTree json value objects) {found : Json}
    (hpath : json.at? path = some found) :
    ∃ mid below, s.valueAt? path value = some mid ∧ s.HoldsTree found mid below ∧
      below ⊆ objects := by
  induction path generalizing json value objects with
  | nil =>
      obtain rfl := Option.some.inj hpath
      exact ⟨value, objects, rfl, h, List.Subset.refl _⟩
  | cons key rest ih =>
      obtain ⟨members, member, rfl, hmember, hrest⟩ := Json.at?_cons hpath
      obtain ⟨object, rfl, hkey⟩ : ∃ object, value = .object object ∧
          key ∈ Table.keys (s.fieldsOf object) := by
        cases h.unfolds with
        | object hthere hmembers =>
            exact ⟨_, rfl, hmembers.keys ▸ Table.mem_keys_iff.2 ⟨_, hmember⟩⟩
      obtain ⟨_, inner, found', field, below, heq, rfl, hbranch⟩ := h.branch hkey
      obtain rfl := Json.object.inj heq
      obtain rfl := Option.some.inj (hbranch.parted.find?_members.symm.trans hmember)
      obtain ⟨mid, last, hmid, hholds, hsubset⟩ := ih hbranch.holds hrest
      refine ⟨mid, last, ?_, hholds, List.Subset.trans hsubset ?_⟩
      · rw [valueAt?_of_field? hbranch.parted.find?_fields]
        exact hmid
      · exact List.Subset.trans hbranch.parted.sublist.subset (List.subset_cons_self object inner)

/-- A path that goes on from an object goes on with a member of it. -/
theorem branch_of_valueAt? {key : String} {rest : List String} {found : Value}
    (h : s.HoldsTree json value objects) (hpath : s.valueAt? (key :: rest) value = some found) :
    ∃ object members inner member field below, value = .object object ∧ json = .object members ∧
      objects = object :: inner ∧ s.Branch members object inner key member field below ∧
      s.valueAt? rest (s.peek field) = some found := by
  obtain ⟨object, field, rfl, hfield, hrest⟩ := valueAt?_cons hpath
  obtain ⟨members, inner, member, field', below, rfl, rfl, hbranch⟩ :=
    h.branch (Table.mem_keys_iff.2 ⟨_, hfield⟩)
  obtain rfl := Option.some.inj (hbranch.parted.find?_fields.symm.trans hfield)
  exact ⟨object, members, inner, member, field', below, rfl, rfl, rfl, hbranch, hrest⟩

/-- Paths lead to objects of the tree. -/
theorem mem_of_valueAt? {path : List String} (h : s.HoldsTree json value objects)
    {target : ObjectId} (hpath : s.valueAt? path value = some (.object target)) :
    target ∈ objects := by
  induction path generalizing json value objects with
  | nil =>
      obtain rfl := Option.some.inj hpath
      cases h.unfolds with
      | object hthere hmembers => exact List.mem_cons_self
  | cons key rest ih =>
      obtain ⟨object, members, inner, member, field, below, rfl, rfl, rfl, hbranch, hrest⟩ :=
        h.branch_of_valueAt? hpath
      exact List.mem_cons_of_mem _ (hbranch.parted.sublist.subset (ih hbranch.holds hrest))

end HoldsTree

/-! ## Values put in place of others -/

/-- The objects are the same, but one of them may have another value under a key. -/
structure Overwritten (s t : Store σ) (objects : List ObjectId) (target : ObjectId)
    (key : String) : Prop where
  others : ∀ object ∈ objects, object ≠ target → s.SameObject t object
  there : target < t.objects.size
  table : t.fieldsOf target = s.fieldsOf target
  slots : ∀ entry ∈ s.fieldsOf target, entry.1 ≠ key → t.peek entry.2 = s.peek entry.2

theorem Overwritten.mono {objects inner : List ObjectId} {target : ObjectId} {key : String}
    (h : Overwritten s t objects target key) (hsubset : inner ⊆ objects) :
    Overwritten s t inner target key :=
  ⟨fun object hobject => h.others object (hsubset hobject), h.there, h.table, h.slots⟩

namespace HoldsTree

variable {json : Json} {value : Value} {objects : List ObjectId} {target : ObjectId}
  {keys : List String} {key : String}

/-- The data gets new data at the end of the path, if the field there holds it now.  Induction on
the path: at each object on it one member becomes another one, and the others are the same. -/
theorem replaceAt {field : FieldId} {new : Json} {fresh : List ObjectId}
    (h : s.HoldsTree json value objects) (hpath : s.valueAt? keys value = some (.object target))
    (hfield : s.field? target key = some field) (hover : Overwritten s t objects target key)
    (hnew : t.Unfolds new (t.peek field) fresh) :
    ∃ objects', t.Unfolds (Json.replaceAt new (keys ++ [key]) json) value objects' ∧
      objects'.length ≤ objects.length + fresh.length := by
  induction keys generalizing json value objects with
  | nil =>
      obtain rfl := Option.some.inj hpath
      obtain ⟨members, inner, member, field', below, rfl, rfl, hbranch⟩ :=
        h.branch (Table.mem_keys_iff.2 ⟨_, hfield⟩)
      obtain rfl := Option.some.inj (hbranch.parted.find?_fields.symm.trans hfield)
      obtain ⟨objects', hmembers, hlength⟩ := hbranch.parted.refill hover.slots
        (fun object hobject _ => hover.others object (List.mem_cons_of_mem _ hobject)
          fun heq => hbranch.apart (heq ▸ hobject)) hnew
      refine ⟨target :: objects', ?_, ?_⟩
      · rw [List.nil_append, Json.replaceAt_cons hbranch.parted.find?_members, Json.replaceAt]
        exact .object hover.there (hover.table.symm ▸ hmembers)
      · simp only [List.length_cons]
        omega
  | cons first rest ih =>
      obtain ⟨object, members, inner, member, step, below, rfl, rfl, rfl, hbranch, hrest⟩ :=
        h.branch_of_valueAt? hpath
      -- The target is below, so this object is another one, and keeps the values of its fields.
      have hsub : below ⊆ inner := hbranch.parted.sublist.subset
      have htarget := hbranch.holds.mem_of_valueAt? hrest
      have hself := hover.others object List.mem_cons_self
        fun heq => hbranch.apart (heq ▸ hsub htarget)
      have hpeek : t.peek step = s.peek step :=
        hself.peek _ (Table.mem_of_find? hbranch.parted.find?_fields)
      obtain ⟨below', hmember, hbranch'⟩ := ih hbranch.holds hrest
        (hover.mono (List.Subset.trans hsub (List.subset_cons_self object inner)))
      obtain ⟨objects', hmembers, hlength⟩ := hbranch.parted.refill
        (fun entry hentry _ => hself.peek entry hentry)
        (fun other hother hnot => hover.others other (List.mem_cons_of_mem _ hother)
          fun heq => hnot (heq ▸ htarget)) (hpeek.symm ▸ hmember)
      refine ⟨object :: objects', ?_, ?_⟩
      · rw [List.cons_append, Json.replaceAt_cons hbranch.parted.find?_members]
        exact .object hself.there (hself.table.symm ▸ hmembers)
      · simp only [List.length_cons]
        omega

end HoldsTree

end Store

end LiveTemplate
