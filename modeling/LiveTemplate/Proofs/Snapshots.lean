import LiveTemplate.Json.Reader
import LiveTemplate.Proofs.Collector
import LiveTemplate.Proofs.Reactive.Slots
import LiveTemplate.Reactive.Snapshot

/-!
# Data and its objects

Making data reactive builds an object for each object of the data outside arrays, in the order of
the document, and a field for each member.  The values mirror the data, so a snapshot of them is the
data again.  Neither the way there nor the way back asks who is collecting.
-/

namespace LiveTemplate

variable {σ : Type}

/-! ## Data -/

namespace Json

/-- No object has a key twice.  Objects inside arrays are not asked, since they stay as they are. -/
def Keyed : Json → Prop
  | .object members => (members.map Prod.fst).Nodup ∧ keyedMembers members
  | _ => True
where
  /-- Each member is keyed. -/
  keyedMembers : List (String × Json) → Prop
    | [] => True
    | (_, json) :: rest => json.Keyed ∧ keyedMembers rest

theorem Keyed.keyedMembers_iff {members : List (String × Json)} :
    keyedMembers members ↔ ∀ member ∈ members, member.2.Keyed := by
  induction members with
  | nil => exact ⟨fun _ _ hmember => absurd hmember List.not_mem_nil, fun _ => trivial⟩
  | cons member rest ih => rw [keyedMembers, ih, List.forall_mem_cons]

/-- Collecting members in a table leaves one under each key. -/
theorem keyed_ofEntries {members : List (String × Json)} (h : Keyed.keyedMembers members) :
    (Json.object (Table.ofEntries members)).Keyed := by
  have hfold : ∀ table : Table Json, (Table.keys table).Nodup → Keyed.keyedMembers table →
      (Json.object (members.foldl (fun table entry => Table.insert table entry.1 entry.2)
        table)).Keyed := by
    induction members with
    | nil => exact fun table hkeys htable => ⟨hkeys, htable⟩
    | cons member rest ih =>
        intro table hkeys htable
        refine ih h.2 _ (Table.nodup_keys_insert hkeys member.1 member.2) ?_
        refine Keyed.keyedMembers_iff.2 fun entry hentry => ?_
        rcases Table.mem_insert hentry with hold | rfl
        · exact Keyed.keyedMembers_iff.1 htable entry hold
        · exact h.1
  exact hfold [] List.nodup_nil trivial

/-- Data that is read is keyed.  Induction on the steps that the readers may take. -/
theorem keyed_of_value? (fuel : Nat) :
    (∀ depth tokens json rest, value? fuel depth tokens = some (json, rest) → json.Keyed) ∧
      ∀ depth tokens members rest, members? fuel depth tokens = some (members, rest) →
        Keyed.keyedMembers members := by
  induction fuel with
  | zero => exact ⟨fun _ _ _ _ h => (nomatch h), fun _ _ _ _ h => (nomatch h)⟩
  | succ fuel ih =>
      obtain ⟨ihvalue, ihmembers⟩ := ih
      constructor
      · intro depth tokens json rest h
        unfold value? at h
        split at h <;> simp only [Option.some.injEq, Prod.mk.injEq, Option.map_eq_some_iff,
          Prod.exists, reduceCtorEq] at h
        -- Numbers, arrays, empty objects and other objects; the rest has nothing inside.
        case h_3 =>
          obtain ⟨n, -, rfl, -⟩ := h
          trivial
        case h_6 =>
          obtain ⟨items, _, -, rfl, -⟩ := h
          trivial
        case h_7 =>
          obtain ⟨rfl, -⟩ := h
          exact ⟨List.nodup_nil, trivial⟩
        case h_8 =>
          obtain ⟨members, _, hmembers, rfl, -⟩ := h
          exact keyed_ofEntries (ihmembers _ _ _ _ hmembers)
        all_goals
          obtain ⟨rfl, -⟩ := h
          trivial
      · intro depth tokens members rest h
        unfold members? at h
        split at h
        · split at h
          · next hvalue =>
              obtain ⟨rfl, -⟩ := Prod.mk.inj (Option.some.inj h)
              exact ⟨ihvalue _ _ _ _ hvalue, trivial⟩
          · next hvalue =>
              simp only [Option.map_eq_some_iff, Prod.exists, Prod.mk.injEq] at h
              obtain ⟨later, _, hlater, rfl, -⟩ := h
              exact ⟨ihvalue _ _ _ _ hvalue, ihmembers _ _ _ _ hlater⟩
          · cases h
        · cases h

theorem keyed_of_parse? {depth : Nat} {text : String} {json : Json}
    (h : parse? depth text = some json) : json.Keyed := by
  simp only [parse?] at h
  split at h
  · next hvalue =>
      obtain rfl := Option.some.inj h
      exact (keyed_of_value? _).1 _ _ _ _ hvalue
  · cases h

/-- The data in inspection output, as values show it. -/
def inspectReactive : Json → String
  | .null => "Null"
  | .bool b => "Bool(" ++ toString b ++ ")"
  | .number n => "Number(" ++ (Json.number n).inspect ++ ")"
  | .string text => "String(" ++ Text.quoted text ++ ")"
  | .array items => "Array([" ++ ", ".intercalate (items.map Json.inspect) ++ "])"
  | .object members => "Object(" ++ Store.inspectEntries (inspectMembers members) ++ ")"
where
  /-- Each member in inspection output. -/
  inspectMembers : List (String × Json) → List (String × String)
    | [] => []
    | (key, json) :: rest => (key, json.inspectReactive) :: inspectMembers rest

end Json

namespace Store

/-! ## Values that mirror data -/

mutual

/-- The value holds the data in objects of a policy, each with a field of that policy and without
subscribers for each member, under its key.  An array holds its items as they are.  The objects are
listed in the order of the document. -/
inductive Mirrors (s : Store σ) (policy : NotifyPolicy) : Json → Value → List ObjectId → Prop
  | null : Mirrors s policy .null .null []
  | bool (b : Bool) : Mirrors s policy (.bool b) (.bool b) []
  | number (n : Number) : Mirrors s policy (.number n) (.number n) []
  | string (text : String) : Mirrors s policy (.string text) (.string text) []
  | array (identity : Nat) (items : List Json) :
    Mirrors s policy (.array items) (.array identity items) []
  | object {members : List (String × Json)} {object : ObjectId} {fields : Table FieldId}
      {inner : List ObjectId} (hobject : s.objects[object]? = some ⟨policy, fields⟩)
      (hfields : MirrorsMembers s policy members fields inner) :
    Mirrors s policy (.object members) (.object object) (object :: inner)

/-- The fields hold the members, one by one. -/
inductive MirrorsMembers (s : Store σ) (policy : NotifyPolicy) :
    List (String × Json) → Table FieldId → List ObjectId → Prop
  | nil : MirrorsMembers s policy [] [] []
  | cons {key : String} {json : Json} {value : Value} {field : FieldId}
      {inner later : List ObjectId} {rest : List (String × Json)} {fields : Table FieldId}
      (hfield : s.fields[field]? = some { key, value, policy, registrations := [] })
      (hvalue : Mirrors s policy json value inner)
      (hrest : MirrorsMembers s policy rest fields later) :
    MirrorsMembers s policy ((key, json) :: rest) ((key, field) :: fields) (inner ++ later)

end

variable {s t u : Store σ} {policy : NotifyPolicy}

mutual

/-- Data is mirrored as long as its objects and the fields stay as they are. -/
theorem Mirrors.of_same {json : Json} {value : Value} {made : List ObjectId}
    (h : s.Mirrors policy json value made)
    (hobjects : ∀ object ∈ made, t.objects[object]? = s.objects[object]?)
    (hfields : ∀ field < s.fields.size, t.fields[field]? = s.fields[field]?) :
    t.Mirrors policy json value made := by
  cases h with
  | null => exact .null
  | bool b => exact .bool b
  | number n => exact .number n
  | string text => exact .string text
  | array identity items => exact .array identity items
  | object hobject hmembers =>
      refine .object ((hobjects _ List.mem_cons_self).trans hobject) ?_
      exact hmembers.of_same (fun other h => hobjects other (List.mem_cons_of_mem _ h)) hfields

theorem MirrorsMembers.of_same {members : List (String × Json)} {fields : Table FieldId}
    {made : List ObjectId} (h : s.MirrorsMembers policy members fields made)
    (hobjects : ∀ object ∈ made, t.objects[object]? = s.objects[object]?)
    (hfields : ∀ field < s.fields.size, t.fields[field]? = s.fields[field]?) :
    t.MirrorsMembers policy members fields made := by
  cases h with
  | nil => exact .nil
  | cons hfield hvalue hrest =>
      have hlt := (Array.getElem?_eq_some_iff.1 hfield).1
      refine .cons ((hfields _ hlt).trans hfield) ?_ ?_
      · exact hvalue.of_same (fun other h => hobjects other (List.mem_append_left _ h)) hfields
      · exact hrest.of_same (fun other h => hobjects other (List.mem_append_right _ h)) hfields

end

/-! ## Values that hold data -/

mutual

/-- The value holds the data, by an object for each object of the data outside arrays.  The objects
are listed in the order of the document.  Nothing is said of policies and subscribers, so writes keep
what is said as long as they keep the values. -/
inductive Unfolds (s : Store σ) : Json → Value → List ObjectId → Prop
  | null : Unfolds s .null .null []
  | bool (b : Bool) : Unfolds s (.bool b) (.bool b) []
  | number (n : Number) : Unfolds s (.number n) (.number n) []
  | string (text : String) : Unfolds s (.string text) (.string text) []
  | array (identity : Nat) (items : List Json) :
    Unfolds s (.array items) (.array identity items) []
  | object {members : List (String × Json)} {object : ObjectId} {inner : List ObjectId}
      (hthere : object < s.objects.size)
      (hmembers : UnfoldsMembers s members (s.fieldsOf object) inner) :
    Unfolds s (.object members) (.object object) (object :: inner)

/-- The fields hold the members, one by one. -/
inductive UnfoldsMembers (s : Store σ) :
    List (String × Json) → Table FieldId → List ObjectId → Prop
  | nil : UnfoldsMembers s [] [] []
  | cons {key : String} {json : Json} {field : FieldId} {inner later : List ObjectId}
      {rest : List (String × Json)} {fields : Table FieldId}
      (hvalue : Unfolds s json (s.peek field) inner)
      (hrest : UnfoldsMembers s rest fields later) :
    UnfoldsMembers s ((key, json) :: rest) ((key, field) :: fields) (inner ++ later)

end

mutual

/-- A value that mirrors data holds it. -/
theorem Mirrors.unfolds {json : Json} {value : Value} {made : List ObjectId}
    (h : s.Mirrors policy json value made) : s.Unfolds json value made := by
  cases h with
  | null => exact .null
  | bool b => exact .bool b
  | number n => exact .number n
  | string text => exact .string text
  | array identity items => exact .array identity items
  | object hobject hmembers =>
      refine .object (Array.getElem?_eq_some_iff.1 hobject).1 ?_
      rw [fieldsOf_of_getElem? hobject]
      exact hmembers.unfolds

theorem MirrorsMembers.unfolds {members : List (String × Json)} {fields : Table FieldId}
    {made : List ObjectId} (h : s.MirrorsMembers policy members fields made) :
    s.UnfoldsMembers members fields made := by
  cases h with
  | nil => exact .nil
  | cons hfield hvalue hrest =>
      refine .cons ?_ hrest.unfolds
      rw [peek_of_getElem? hfield]
      exact hvalue.unfolds

end

/-! ## Reading mirrored data -/

/-- A way to read values that takes scalars and arrays for the data they hold, and puts an object
together from what it reads in the fields. -/
structure Reading {α : Type} (s : Store σ) (read : Nat → Value → Option α) (spell : Json → α)
    (join : List (String × α) → α) : Prop where
  null (depth : Nat) : read depth .null = some (spell .null)
  bool (depth : Nat) (b : Bool) : read depth (.bool b) = some (spell (.bool b))
  number (depth : Nat) (n : Number) : read depth (.number n) = some (spell (.number n))
  string (depth : Nat) (text : String) : read depth (.string text) = some (spell (.string text))
  array (depth identity : Nat) (items : List Json) :
    read depth (.array identity items) = some (spell (.array items))
  object (depth : Nat) (object : ObjectId) :
    read (depth + 1) (.object object) = ((s.fieldsOf object).mapM fun entry =>
      (read depth (s.peek entry.2)).map (entry.1, ·)).map join
  join_members (members : List (String × Json)) :
    join (members.map fun member => (member.1, spell member.2)) = spell (.object members)

namespace Reading

variable {α : Type} {read : Nat → Value → Option α} {spell : Json → α}
  {join : List (String × α) → α}

mutual

/-- Data is read that a value holds, if the reading may pass all of its objects. -/
theorem of_unfolds (hread : s.Reading read spell join) {json : Json} {value : Value}
    {objects : List ObjectId} (h : s.Unfolds json value objects) {depth : Nat}
    (hdepth : objects.length ≤ depth) : read depth value = some (spell json) := by
  cases h with
  | null => exact hread.null depth
  | bool b => exact hread.bool depth b
  | number n => exact hread.number depth n
  | string text => exact hread.string depth text
  | array identity items => exact hread.array depth identity items
  | object hthere hmembers =>
      obtain _ | depth := depth
      · exact absurd hdepth (Nat.not_succ_le_zero _)
      · rw [hread.object, hread.of_unfoldsMembers hmembers (Nat.le_of_succ_le_succ hdepth),
          Option.map_some, hread.join_members]

theorem of_unfoldsMembers (hread : s.Reading read spell join) {members : List (String × Json)}
    {fields : Table FieldId} {objects : List ObjectId}
    (h : s.UnfoldsMembers members fields objects) {depth : Nat}
    (hdepth : objects.length ≤ depth) :
    (fields.mapM fun entry => (read depth (s.peek entry.2)).map (entry.1, ·)) =
      some (members.map fun member => (member.1, spell member.2)) := by
  cases h with
  | nil => rfl
  | cons hvalue hrest =>
      rw [List.length_append] at hdepth
      have hfirst := hread.of_unfolds hvalue (Nat.le_trans (Nat.le_add_right _ _) hdepth)
      have hothers := hread.of_unfoldsMembers hrest (Nat.le_trans (Nat.le_add_left _ _) hdepth)
      rw [List.mapM_cons, hfirst, hothers]
      rfl

end

/-- Mirrored data is read, if the reading may pass all of its objects. -/
theorem of_mirrors (hread : s.Reading read spell join) {json : Json} {value : Value}
    {made : List ObjectId} (h : s.Mirrors policy json value made) {depth : Nat}
    (hdepth : made.length ≤ depth) : read depth value = some (spell json) :=
  hread.of_unfolds h.unfolds hdepth

/-- A snapshot reads data as it is. -/
theorem json (s : Store σ) : s.Reading s.jsonWithin? id .object where
  null _ := by unfold jsonWithin?; rfl
  bool _ _ := by unfold jsonWithin?; rfl
  number _ _ := by unfold jsonWithin?; rfl
  string _ _ := by unfold jsonWithin?; rfl
  array _ _ _ := by unfold jsonWithin?; rfl
  object _ _ := rfl
  join_members members := congrArg Json.object (List.map_id members)

/-- Inspection shows data. -/
theorem inspect (s : Store σ) : s.Reading s.inspectWithin? Json.inspectReactive
    fun entries => "Object(" ++ inspectEntries entries ++ ")" where
  null _ := by unfold inspectWithin?; rfl
  bool _ _ := by unfold inspectWithin?; rfl
  number _ _ := by unfold inspectWithin?; rfl
  string _ _ := by unfold inspectWithin?; rfl
  array _ _ _ := by unfold inspectWithin?; rfl
  object _ _ := rfl
  join_members members := by
    have hmembers : Json.inspectReactive.inspectMembers members =
        members.map fun member => (member.1, member.2.inspectReactive) := by
      induction members with
      | nil => rfl
      | cons member rest ih => rw [Json.inspectReactive.inspectMembers, ih, List.map_cons]
    rw [Json.inspectReactive, hmembers]

end Reading

/-! ## Making data reactive -/

/-- The objects made from one store to a later one, in order. -/
def made (s t : Store σ) : List ObjectId :=
  List.range' s.objects.size (t.objects.size - s.objects.size)

theorem made_self (s : Store σ) : made s s = [] := by
  unfold made
  rw [Nat.sub_self]
  rfl

theorem made_append (hst : s.objects.size ≤ t.objects.size)
    (htu : t.objects.size ≤ u.objects.size) : made s t ++ made t u = made s u := by
  unfold made
  have hsize : s.objects.size + (t.objects.size - s.objects.size) = t.objects.size := by omega
  have hjoined := @List.range'_append_1 s.objects.size (t.objects.size - s.objects.size)
    (u.objects.size - t.objects.size)
  rw [hsize] at hjoined
  rw [hjoined]
  congr 1
  omega

theorem le_and_lt_of_mem_made {object : ObjectId} (h : object ∈ made s t) :
    s.objects.size ≤ object ∧ object < t.objects.size := by
  obtain ⟨hge, hlt⟩ := List.mem_range'_1.1 h
  refine ⟨hge, Nat.lt_of_not_le fun (hle : t.objects.size ≤ object) => ?_⟩
  omega

theorem size_objects_define (s : Store σ) (object : ObjectId) (key : String) (value : Value) :
    (s.define object key value).1.objects.size = s.objects.size :=
  Array.size_modify

/-- A definition gives its field the policy of the object. -/
theorem getElem?_fields_define_self {object : ObjectId} {fields : Table FieldId}
    (h : s.objects[object]? = some ⟨policy, fields⟩) (key : String) (value : Value) :
    (s.define object key value).1.fields[s.fields.size]? =
      some { key, value, policy, registrations := [] } := by
  have hpolicy : s.policyOf object = policy := by
    unfold policyOf
    rw [h]
    rfl
  simp only [Store.define, report, record, Array.getElem?_push_size, hpolicy]

/-- An object comes before those of its members. -/
theorem made_newObject (policy : NotifyPolicy)
    (h : (s.newObject policy).1.objects.size ≤ t.objects.size) :
    made s t = s.objects.size :: made (s.newObject policy).1 t := by
  have hsize : (s.newObject policy).1.objects.size = s.objects.size + 1 := Array.size_push _
  have hfirst : made s (s.newObject policy).1 = [s.objects.size] := by
    unfold made
    rw [hsize, Nat.add_sub_cancel_left]
    rfl
  rw [← made_append (hsize ▸ Nat.le_succ _) h, hfirst]
  rfl

/-- The members are put into an object, behind those that it has by then. -/
def TakesIn (s t : Store σ) (policy : NotifyPolicy) (object : ObjectId)
    (members : List (String × Json)) : Prop :=
  ∀ filled : Table FieldId, s.objects[object]? = some ⟨policy, filled⟩ →
    (Table.keys filled ++ members.map Prod.fst).Nodup →
    ∃ fields, t.objects[object]? = some ⟨policy, filled ++ fields⟩ ∧
      t.MirrorsMembers policy members fields (made s t)

namespace TakesIn

variable {object : ObjectId}

theorem nil (s : Store σ) (policy : NotifyPolicy) (object : ObjectId) :
    s.TakesIn s policy object [] := by
  intro filled hobject _
  refine ⟨[], ?_, made_self s ▸ .nil⟩
  rw [List.append_nil]
  exact hobject

/-- The value of a member is made, then its field is defined, and then come the other members. -/
theorem cons {key : String} {json : Json} {value : Value} {rest : List (String × Json)}
    (hobserved : s.Extended t) (hvalue : t.Mirrors policy json value (made s t))
    (hlater : Filled object (t.define object key value).1 u)
    (hrest : (t.define object key value).1.TakesIn u policy object rest) :
    s.TakesIn u policy object ((key, json) :: rest) := by
  intro filled hobject hnodup
  have hlt : object < s.objects.size := (Array.getElem?_eq_some_iff.1 hobject).1
  have hobject' : t.objects[object]? = some ⟨policy, filled⟩ :=
    (hobserved.objects object hlt).trans hobject
  -- The key is new, so its field comes behind those of the members before it.
  have hnew : key ∉ Table.keys filled := fun hmem =>
    (List.nodup_append.1 hnodup).2.2 key hmem key List.mem_cons_self rfl
  have hdefined : (t.define object key value).1.objects[object]? =
      some ⟨policy, filled ++ [(key, t.fields.size)]⟩ := by
    rw [getElem?_objects_define, if_pos rfl, hobject', Option.map_some,
      Table.insert_of_not_mem hnew]
  have hkeys : (Table.keys (filled ++ [(key, t.fields.size)]) ++ rest.map Prod.fst).Nodup := by
    simpa [Table.keys] using hnodup
  obtain ⟨fields, hfields, hmirrors⟩ := hrest _ hdefined hkeys
  -- The later members leave this field and the objects of its value.
  have hfilled := (Filled.define t object key value).trans hlater
  have hfield : u.fields[t.fields.size]? = some { key, value, policy, registrations := [] } := by
    rw [hlater.fields _ (size_fields_define t object key value ▸ Nat.lt_succ_self _)]
    exact getElem?_fields_define_self hobject' key value
  have hkept : ∀ other ∈ made s t, u.objects[other]? = t.objects[other]? := by
    intro other hother
    obtain ⟨hge, hlt'⟩ := le_and_lt_of_mem_made hother
    exact hfilled.objects other hlt' (Nat.ne_of_gt (Nat.lt_of_lt_of_le hlt hge))
  have hmade : made s t ++ made (t.define object key value).1 u = made s u := by
    have hsame : made (t.define object key value).1 u = made t u := by
      unfold made
      rw [size_objects_define]
    rw [hsame]
    exact made_append hobserved.size_objects hfilled.size_objects
  refine ⟨(key, t.fields.size) :: fields, ?_, ?_⟩
  · rw [hfields, List.append_assoc]
    rfl
  · rw [← hmade]
    exact .cons hfield (hvalue.of_same hkept hfilled.fields) hmirrors

end TakesIn

/-- What has been made reactive mirrors the data.  While an object is filled, it has the fields of
the members so far; the other objects of each member are complete. -/
theorem observe_and_observeMembers_mirror (policy : NotifyPolicy) :
    (∀ (s : Store σ) (json : Json), json.Keyed →
      (s.observe policy json).1.Mirrors policy json (s.observe policy json).2
        (made s (s.observe policy json).1)) ∧
    ∀ (s : Store σ) (object : ObjectId) (members : List (String × Json)),
      Json.Keyed.keyedMembers members →
        s.TakesIn (s.observeMembers policy object members) policy object members := by
  refine Store.observe.mutual_induct policy _ _
    ?null ?bool ?number ?string ?array ?object ?nil ?cons
  case null =>
    intro s _
    exact made_self s ▸ .null
  case bool =>
    intro s b _
    exact made_self s ▸ .bool b
  case number =>
    intro s n _
    exact made_self s ▸ .number n
  case string =>
    intro s text _
    exact made_self s ▸ .string text
  case array =>
    intro s items _
    exact made_self s ▸ .array s.arrays items
  case object =>
    intro s members s₁ object hnew ih hkeyed
    obtain ⟨hkeys, hmembers⟩ := hkeyed
    obtain ⟨rfl, rfl⟩ := Prod.mk.inj hnew
    obtain ⟨fields, hobject, hmirrors⟩ := ih hmembers [] Array.getElem?_push_size hkeys
    have hmade := made_newObject policy
      (Filled.observeMembers (s.newObject policy).1 policy s.objects.size members).size_objects
    exact hmade ▸ .object hobject hmirrors
  case nil => exact fun s object _ => .nil s policy object
  case cons =>
    intro s object key json rest s₁ value hobserve s₂ field hdefine ihjson ihrest hkeyed
    obtain ⟨hjson, hrest⟩ := hkeyed
    obtain rfl : (s₁.define object key value).1 = s₂ := by rw [hdefine]
    have hrun : s.observeMembers policy object ((key, json) :: rest) =
        (s₁.define object key value).1.observeMembers policy object rest := by
      simp only [Store.observeMembers, hobserve]
    have hobserved := Extended.observe policy s json
    have hvalue := ihjson hjson
    simp only [hobserve] at hobserved hvalue
    rw [hrun]
    exact .cons hobserved hvalue (Filled.observeMembers _ policy object rest) (ihrest hrest)

/-- Data that has been made reactive is mirrored, by objects that are new, one for each object of
the data outside arrays.  A snapshot of it is the data, and inspection shows the data; both look at
the store only, and it does not matter who is collecting.  Nobody has been registered. -/
theorem observe_mirrors {s t : Store σ} {policy : NotifyPolicy} {json : Json} {value : Value}
    (hkeyed : json.Keyed) (hobserve : s.observe policy json = (t, value)) :
    t.Mirrors policy json value (made s t) ∧
      (∀ collector, (t.withActive collector).toJson? value = some json ∧
        (t.withActive collector).inspect? value = some json.inspectReactive) ∧
      (∀ field, t.registrations field = s.registrations field) ∧ t.active = s.active ∧
        t.subscribers = s.subscribers := by
  obtain rfl : (s.observe policy json).1 = t := by rw [hobserve]
  obtain rfl : (s.observe policy json).2 = value := by rw [hobserve]
  have hmirrors := (observe_and_observeMembers_mirror policy).1 s json hkeyed
  refine ⟨hmirrors, fun collector => ?_, registrations_progress.observe policy s json,
    Progress.sameActive.observe policy s json,
    RequestProgress.sameSubscribers.observe policy s json⟩
  -- There are as many objects to pass as have been made, and that is no more than there are.
  have hsame : ((s.observe policy json).1.withActive collector).Mirrors policy json
      (s.observe policy json).2 (made s (s.observe policy json).1) :=
    hmirrors.of_same (fun _ _ => rfl) fun _ _ => rfl
  have hdepth : (made s (s.observe policy json).1).length ≤
      ((s.observe policy json).1.withActive collector).objects.size := by
    unfold made
    rw [List.length_range']
    exact Nat.sub_le _ _
  exact ⟨(Reading.json _).of_mirrors hsame hdepth, (Reading.inspect _).of_mirrors hsame hdepth⟩

/-- An object within an object, an array with an object in it, and numbers of both kinds. -/
def nested : Json :=
  .object [("title", .string "a"),
    ("inner", .object [("size", .number .zero), ("none", .object [])]),
    ("items", .array [.object [("x", .null), ("x", .null)], .bool true]),
    ("ratio", .number (.float ⟨0x3FE0000000000000⟩ (by decide +kernel)))]

/-- A subscriber is collecting while the data is made reactive. -/
def collectingOne : Store Unit where
  objects := #[{ policy := .failFast, fields := [("old", 0)] }]
  fields := #[{ key := "old", value := .null, policy := .failFast, registrations := [0] }]
  subscribers := #[⟨"old", .ofObject 0, fun _ => .nothing⟩]
  active := some 0
  shared := ()

theorem observe_mirrors_nested :
    ∃ t, collectingOne.observe .isolate nested = (t, .object 1) ∧
      t.Mirrors .isolate nested (.object 1) [1, 2, 3] ∧
      (∀ collector, (t.withActive collector).toJson? (.object 1) = some nested) ∧
      t.active = some 0 ∧ t.registrations 0 = [0] := by
  have hkeyed : nested.Keyed := by
    refine ⟨by decide, trivial, ⟨by decide, trivial, ⟨by decide, trivial⟩, trivial⟩, trivial,
      trivial, trivial⟩
  obtain ⟨t, ht⟩ : ∃ t, (collectingOne.observe .isolate nested).1 = t := ⟨_, rfl⟩
  have hobserve : collectingOne.observe .isolate nested = (t, .object 1) := Prod.ext ht rfl
  have hmade : made collectingOne t = [1, 2, 3] := by
    rw [← ht]
    decide +kernel
  obtain ⟨hmirrors, hread, hregistrations, hactive, -⟩ := observe_mirrors hkeyed hobserve
  rw [hmade] at hmirrors
  exact ⟨t, hobserve, hmirrors, fun collector => (hread collector).1, hactive, hregistrations 0⟩

end Store

end LiveTemplate
