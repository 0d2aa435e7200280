import LiveTemplate.Proofs.Acyclic
import LiveTemplate.Proofs.NestedWrites
import LiveTemplate.Proofs.Reactive.Recent
import LiveTemplate.Proofs.Reactive.Steps

/-!
# Graphs of objects

Nothing stops a program from storing an object in a field of its own, or of one that it leads to,
and then neither a snapshot nor inspection of it comes to an end.  That is the only way: the objects
that are made from data hold newer ones only.  As long as no write does it, every snapshot ends, and
it is the data that the fields hold at the time.
-/

namespace LiveTemplate

open Relation

variable {σ : Type}

namespace Store

variable {s t : Store σ} {history : List Definition}

/-- An object names another one as the value of a field. -/
def Names (s : Store σ) (outer inner : ObjectId) : Prop :=
  ∃ entry ∈ s.fieldsOf outer, s.peek entry.2 = .object inner

/-- An object leads to another one that it names, or that objects name to which it leads, and to
itself. -/
def LeadsTo (s : Store σ) (outer inner : ObjectId) : Prop := ReflTransGen s.Names outer inner

/-! ## Snapshots that end -/

/-- A value other than an object holds data by itself. -/
theorem exists_unfolds_of_flat {value : Value} (h : value.asObject? = none) :
    ∃ json, s.Unfolds json value [] := by
  cases value with
  | null => exact ⟨_, .null⟩
  | bool b => exact ⟨_, .bool b⟩
  | number n => exact ⟨_, .number n⟩
  | string text => exact ⟨_, .string text⟩
  | array identity items => exact ⟨_, .array identity items⟩
  | object object => cases h

theorem eq_object_of_asObject? {value : Value} {object : ObjectId}
    (h : value.asObject? = some object) : value = .object object := by
  cases value with
  | object other => rw [Option.some.inj h]
  | _ => cases h

theorem unfolds_of_flat {depth : Nat} {value : Value} {json : Json} (hflat : value.asObject? = none)
    (h : s.jsonWithin? depth value = some json) : s.Unfolds json value [] := by
  obtain ⟨other, hother⟩ := s.exists_unfolds_of_flat hflat
  have hsame := (Reading.json s).of_unfolds hother (Nat.zero_le depth)
  obtain rfl := Option.some.inj (h.symm.trans hsame)
  exact hother

/-- Where a snapshot does not come to an end on so many levels, objects hold one another on as
many. -/
theorem exists_way (hthere : ∀ outer inner, s.Names outer inner → inner < s.objects.size)
    {depth : Nat} {object : ObjectId} (hlt : object < s.objects.size)
    (hnone : s.jsonWithin? depth (.object object) = none) :
    ∃ way : List ObjectId, way.length = depth ∧ (object :: way).IsChain s.Names ∧
      ∀ m ∈ object :: way, m < s.objects.size := by
  induction depth generalizing object with
  | zero => exact ⟨[], rfl, .singleton object, fun m hm => List.mem_singleton.1 hm ▸ hlt⟩
  | succ depth ih =>
      rw [(Reading.json s).object, Option.map_eq_none_iff] at hnone
      obtain ⟨entry, hentry, hmissing⟩ := Dom.exists_of_mapM_eq_none hnone
      rw [Option.map_eq_none_iff] at hmissing
      cases hvalue : (s.peek entry.2).asObject? with
      | none =>
          obtain ⟨json, hflat⟩ := s.exists_unfolds_of_flat hvalue
          cases hmissing.symm.trans ((Reading.json s).of_unfolds hflat (Nat.zero_le depth))
      | some inner =>
          have hinner := eq_object_of_asObject? hvalue
          rw [hinner] at hmissing
          obtain ⟨way, hlength, hway, hall⟩ := ih (hthere _ _ ⟨entry, hentry, hinner⟩) hmissing
          refine ⟨inner :: way, ?_, .cons_cons ⟨entry, hentry, hinner⟩ hway,
            List.forall_mem_cons.2 ⟨hlt, hall⟩⟩
          rw [List.length_cons, hlength]

/-- What is found for all fields is the data of all fields, in their order. -/
theorem exists_unfoldsMembers {fields : Table FieldId} {members : List (String × Json)}
    {read : Value → Option Json}
    (hread : ∀ entry ∈ fields, ∀ json, read (s.peek entry.2) = some json →
      ∃ objects, s.Unfolds json (s.peek entry.2) objects)
    (h : (fields.mapM fun entry => (read (s.peek entry.2)).map (entry.1, ·)) = some members) :
    ∃ objects, s.UnfoldsMembers members fields objects := by
  induction fields generalizing members with
  | nil =>
      obtain rfl := Option.some.inj h
      exact ⟨[], .nil⟩
  | cons entry rest ih =>
      obtain ⟨member, later, hmember, hlater, rfl⟩ := Dom.mapM_cons_eq_some.1 h
      obtain ⟨json, hjson, rfl⟩ := Option.map_eq_some_iff.1 hmember
      obtain ⟨hfirst, hothers⟩ := List.forall_mem_cons.1 hread
      obtain ⟨inner, hvalue⟩ := hfirst json hjson
      obtain ⟨others, hrest⟩ := ih hothers hlater
      exact ⟨inner ++ others, .cons hvalue hrest⟩

/-- A snapshot is the data that the value holds. -/
theorem exists_unfolds
    (hthere : ∀ outer inner, s.Names outer inner → inner < s.objects.size) {depth : Nat}
    {value : Value} {json : Json}
    (hvalue : ∀ object, value = .object object → object < s.objects.size)
    (h : s.jsonWithin? depth value = some json) : ∃ objects, s.Unfolds json value objects := by
  induction depth generalizing value json with
  | zero =>
      cases hobject : value.asObject? with
      | none => exact ⟨[], unfolds_of_flat hobject h⟩
      | some object =>
          rw [eq_object_of_asObject? hobject] at h
          cases h
  | succ depth ih =>
      cases hobject : value.asObject? with
      | none => exact ⟨[], unfolds_of_flat hobject h⟩
      | some object =>
          obtain rfl := eq_object_of_asObject? hobject
          rw [(Reading.json s).object] at h
          obtain ⟨members, hmembers, rfl⟩ := Option.map_eq_some_iff.1 h
          obtain ⟨inner, hunfolds⟩ := exists_unfoldsMembers
            (fun entry hentry json hjson =>
              ih (fun inner hinner => hthere object inner ⟨entry, hentry, hinner⟩) hjson) hmembers
          exact ⟨object :: inner, .object (hvalue object rfl) hunfolds⟩

section Reading

variable {α : Type} {read : Nat → Value → Option α} {spell : Json → α}
  {join : List (String × α) → α}

/-- Fields are read as they are taken for data. -/
theorem readEach_of_jsonEach {depth depth' : Nat}
    (hstep : ∀ value json, s.jsonWithin? depth value = some json →
      read depth' value = some (spell json)) {fields : Table FieldId}
    {members : List (String × Json)}
    (h : (fields.mapM fun entry => (s.jsonWithin? depth (s.peek entry.2)).map (entry.1, ·)) =
      some members) :
    (fields.mapM fun entry => (read depth' (s.peek entry.2)).map (entry.1, ·)) =
      some (members.map fun member => (member.1, spell member.2)) := by
  induction fields generalizing members with
  | nil =>
      obtain rfl := Option.some.inj h
      rfl
  | cons entry rest ih =>
      obtain ⟨member, later, hmember, hlater, rfl⟩ := Dom.mapM_cons_eq_some.1 h
      obtain ⟨json, hjson, rfl⟩ := Option.map_eq_some_iff.1 hmember
      exact Dom.mapM_cons_eq_some.2
        ⟨_, _, by rw [hstep _ _ hjson, Option.map_some], ih hlater, rfl⟩

/-- What a snapshot takes for data is read on as many levels, and on more. -/
theorem Reading.of_json (hread : s.Reading read spell join) {depth depth' : Nat} {value : Value}
    {json : Json} (h : s.jsonWithin? depth value = some json) (hle : depth ≤ depth') :
    read depth' value = some (spell json) := by
  induction depth generalizing value json depth' with
  | zero =>
      cases hobject : value.asObject? with
      | none => exact hread.of_unfolds (unfolds_of_flat hobject h) (Nat.zero_le depth')
      | some object =>
          rw [eq_object_of_asObject? hobject] at h
          cases h
  | succ depth ih =>
      cases hobject : value.asObject? with
      | none => exact hread.of_unfolds (unfolds_of_flat hobject h) (Nat.zero_le depth')
      | some object =>
          obtain rfl := eq_object_of_asObject? hobject
          obtain ⟨deeper, rfl⟩ : ∃ deeper, depth' = deeper + 1 := ⟨depth' - 1, by omega⟩
          rw [(Reading.json s).object] at h
          obtain ⟨members, hmembers, rfl⟩ := Option.map_eq_some_iff.1 h
          have hall :=
            readEach_of_jsonEach (fun _ _ hjson => ih hjson (Nat.le_of_succ_le_succ hle)) hmembers
          rw [hread.object, hall, Option.map_some, hread.join_members]

end Reading

/-! ## Who holds whom -/

theorem names_of_same (hobjects : t.objects = s.objects) (hfields : t.fields = s.fields)
    {outer inner : ObjectId} (h : t.Names outer inner) : s.Names outer inner := by
  unfold Names fieldsOf peek at h ⊢
  rwa [hobjects, hfields] at h

theorem HasHistory.getElem?_of_mem (h : s.HasHistory history) {object : ObjectId}
    {entry : String × FieldId} (hentry : entry ∈ s.fieldsOf object) :
    history[entry.2]? = some ⟨some object, entry.1⟩ := by
  rw [h.tables] at hentry
  exact mem_definitionsIn.1 (Table.mem_of_mem_ofEntries hentry)

theorem HasHistory.lt_of_mem (h : s.HasHistory history) {object : ObjectId}
    {entry : String × FieldId} (hentry : entry ∈ s.fieldsOf object) :
    entry.2 < s.fields.size := by
  rw [← h.length_eq]
  exact (List.getElem?_eq_some_iff.1 (h.getElem?_of_mem hentry)).1

/-- A definition makes its object hold the value. -/
theorem names_define (h : s.HasHistory history) {object : ObjectId} {key : String} {value : Value}
    {outer inner : ObjectId} (hnames : (s.define object key value).1.Names outer inner) :
    s.Names outer inner ∨ outer = object ∧ value = .object inner := by
  obtain ⟨entry, hentry, hvalue⟩ := hnames
  rw [peek_define] at hvalue
  rcases mem_fieldsOf_define hentry with hold | ⟨houter, rfl⟩
  · rw [if_neg (Nat.ne_of_lt (h.lt_of_mem hold))] at hvalue
    exact .inl ⟨entry, hold, hvalue⟩
  · rw [if_pos rfl] at hvalue
    exact .inr ⟨houter, hvalue⟩

/-- A write makes the object of its field hold the value, unless the field has it already. -/
theorem names_assign (h : s.HasHistory history) {object : ObjectId} {key : String}
    {field : FieldId} (hfield : s.field? object key = some field) {value : Value}
    {outer inner : ObjectId} (hnames : (s.assign field value).Names outer inner) :
    s.Names outer inner ∨ outer = object ∧ value = .object inner := by
  obtain ⟨entry, hentry, hvalue⟩ := hnames
  have htable : (s.assign field value).fieldsOf outer = s.fieldsOf outer := by
    unfold fieldsOf
    rw [assign_objects]
  rw [htable] at hentry
  obtain ⟨cell, hcell, -⟩ := h.slotted.key hfield
  rw [peek_assign hcell] at hvalue
  by_cases hat : entry.2 = field
  · -- No other object has the field.
    have howner := h.getElem?_of_mem hentry
    rw [hat, h.getElem?_of_field? hfield] at howner
    obtain ⟨rfl, -⟩ : object = outer ∧ key = entry.1 := by simpa using howner
    rw [hat, Function.update_self] at hvalue
    split at hvalue
    · exact .inl ⟨entry, hentry, hat ▸ hvalue⟩
    · exact .inr ⟨rfl, hvalue⟩
  · rw [Function.update_of_ne hat] at hvalue
    exact .inl ⟨entry, hentry, hvalue⟩

/-- What is made of data is a new object, or no object. -/
theorem new_of_observe_eq_object {policy : NotifyPolicy} {json : Json} {object : ObjectId}
    (h : (s.observe policy json).2 = .object object) :
    s.objects.size ≤ object ∧ object < (s.observe policy json).1.objects.size := by
  cases json with
  | object members =>
      obtain rfl := Value.object.inj h
      have hsize : (s.newObject policy).1.objects.size = s.objects.size + 1 := Array.size_push _
      refine ⟨Nat.le_refl _, Nat.lt_of_succ_le (hsize.symm.trans_le ?_)⟩
      exact (Filled.observeMembers (s.newObject policy).1 policy s.objects.size
        members).size_objects
  | _ => cases h

/-- Making data reactive makes new objects name newer ones.  While an object is filled, the values
of its members are newer than it. -/
theorem names_observe_and_observeMembers (policy : NotifyPolicy) :
    (∀ (s : Store σ) (json : Json), (∃ history, s.HasHistory history) → ∀ outer inner,
      (s.observe policy json).1.Names outer inner → s.Names outer inner ∨
        s.objects.size ≤ outer ∧ outer < inner ∧ inner < (s.observe policy json).1.objects.size) ∧
    ∀ (s : Store σ) (object : ObjectId) (members : List (String × Json)),
      (∃ history, s.HasHistory history) → ∀ first, first ≤ object → object < s.objects.size →
        ∀ outer inner, (s.observeMembers policy object members).Names outer inner →
          s.Names outer inner ∨ first ≤ outer ∧ outer < inner ∧
            inner < (s.observeMembers policy object members).objects.size := by
  refine Store.observe.mutual_induct policy
    (fun s json => (∃ history, s.HasHistory history) → ∀ outer inner,
      (s.observe policy json).1.Names outer inner → s.Names outer inner ∨
        s.objects.size ≤ outer ∧ outer < inner ∧ inner < (s.observe policy json).1.objects.size)
    (fun s object members =>
      (∃ history, s.HasHistory history) → ∀ first, first ≤ object → object < s.objects.size →
        ∀ outer inner, (s.observeMembers policy object members).Names outer inner →
          s.Names outer inner ∨ first ≤ outer ∧ outer < inner ∧
            inner < (s.observeMembers policy object members).objects.size)
    ?null ?bool ?number ?string ?array ?object ?nil ?cons
  case null => exact fun s _ outer inner h => .inl h
  case bool => exact fun s _ _ outer inner h => .inl h
  case number => exact fun s _ _ outer inner h => .inl h
  case string => exact fun s _ _ outer inner h => .inl h
  case array => exact fun s _ _ outer inner h => .inl h
  case object =>
    intro s members s₁ object hnew ih hhistory outer inner hnames
    obtain ⟨history, hhistory⟩ := hhistory
    obtain ⟨rfl, rfl⟩ := Prod.mk.inj hnew
    -- The new object names nothing before its members are put in.
    have hsize : (s.newObject policy).1.objects.size = s.objects.size + 1 := Array.size_push _
    rcases ih ⟨history, hhistory.newObject policy⟩ _ (Nat.le_refl _) (hsize ▸ Nat.lt_succ_self _)
      outer inner hnames with hold | hlater
    · obtain ⟨entry, hentry, hvalue⟩ := hold
      exact .inl ⟨entry, fieldsOf_newObject s policy outer ▸ hentry, hvalue⟩
    · exact .inr hlater
  case nil => exact fun s object _ _ _ _ outer inner h => .inl h
  case cons =>
    intro s object key json rest s₁ value hobserve s₂ field hdefine ihjson ihrest hhistory first
      hfirst hlt outer inner hnames
    obtain ⟨history, hhistory⟩ := hhistory
    obtain rfl : (s.observe policy json).1 = s₁ := by rw [hobserve]
    obtain rfl : (s.observe policy json).2 = value := by rw [hobserve]
    obtain rfl :
        ((s.observe policy json).1.define object key (s.observe policy json).2).1 = s₂ := by
      rw [hdefine]
    obtain ⟨later, hlater⟩ := HasHistory.progress.observe policy s json history hhistory
    have hlt' : object < (s.observe policy json).1.objects.size :=
      Nat.lt_of_lt_of_le hlt (Extended.observe policy s json).size_objects
    have hgrown := (Filled.observeMembers
      ((s.observe policy json).1.define object key (s.observe policy json).2).1 policy object
      rest).size_objects
    rw [size_objects_define] at hgrown
    simp only [Store.observeMembers] at hnames ⊢
    -- What names what in the end did so before, or by the value, its definition or the rest.
    rcases ihrest ⟨_, hlater.define object key _⟩ first hfirst
      ((size_objects_define _ object key _).symm ▸ hlt') outer inner hnames with hdefined | hafter
    · rcases names_define hlater hdefined with hold | ⟨rfl, hvalue⟩
      · rcases ihjson ⟨history, hhistory⟩ outer inner hold with hbefore | ⟨hge, hnewer, hthere⟩
        · exact .inl hbefore
        · exact .inr ⟨Nat.le_trans hfirst (Nat.le_trans (Nat.le_of_lt hlt) hge), hnewer,
            Nat.lt_of_lt_of_le hthere hgrown⟩
      · obtain ⟨hge, hthere⟩ := new_of_observe_eq_object hvalue
        exact .inr ⟨hfirst, Nat.lt_of_lt_of_le hlt hge, Nat.lt_of_lt_of_le hthere hgrown⟩
    · exact .inr hafter

theorem names_observe (h : s.HasHistory history) {policy : NotifyPolicy} {json : Json}
    {outer inner : ObjectId} (hnames : (s.observe policy json).1.Names outer inner) :
    s.Names outer inner ∨
      s.objects.size ≤ outer ∧ outer < inner ∧ inner < (s.observe policy json).1.objects.size :=
  (names_observe_and_observeMembers policy).1 s json ⟨history, h⟩ outer inner hnames

theorem lt_of_names {outer inner : ObjectId} (h : s.Names outer inner) :
    outer < s.objects.size := by
  obtain ⟨entry, hentry, -⟩ := h
  refine Nat.lt_of_not_le fun hle => ?_
  rw [fieldsOf_of_size_le hle] at hentry
  exact absurd hentry List.not_mem_nil

/-- No new object leads to one from before. -/
theorem le_of_leads_observe (h : s.HasHistory history) {policy : NotifyPolicy} {json : Json}
    {outer inner : ObjectId} (hnew : s.objects.size ≤ outer)
    (hleads : (s.observe policy json).1.LeadsTo outer inner) : s.objects.size ≤ inner := by
  induction hleads with
  | refl => exact hnew
  | tail _ hnames ih =>
      rcases names_observe h hnames with hold | ⟨-, hnewer, -⟩
      · exact absurd (lt_of_names hold) (Nat.not_lt.2 ih)
      · exact Nat.le_trans ih (Nat.le_of_lt hnewer)

/-! ## Stores without cycles -/

/-- Every object that is named is there, no object leads back to itself, and nobody has subscribed
to a field. -/
structure Grounded (s : Store σ) (history : List Definition) : Prop where
  history : s.HasHistory history
  there : ∀ outer inner, s.Names outer inner → inner < s.objects.size
  acyclic : Acyclic s.Names
  unwatched : ∀ field, s.registrations field = []

namespace Grounded

theorem empty (hobjects : s.objects = #[]) (hfields : s.fields = #[]) : s.Grounded [] where
  history := .empty hobjects hfields
  there outer inner h := absurd (lt_of_names h) (by simp [hobjects])
  acyclic place h := by
    obtain ⟨inner, hnames, -⟩ := TransGen.head'_iff.1 h
    exact absurd (lt_of_names hnames) (by simp [hobjects])
  unwatched field := by simp [registrations, hfields]

theorem of_same (h : s.Grounded history) (hobjects : t.objects = s.objects)
    (hfields : t.fields = s.fields) : t.Grounded history := by
  refine ⟨h.history.of_same hobjects fun field => by rw [hfields], fun outer inner hinner => ?_,
    h.acyclic.mono fun _ _ => names_of_same hobjects hfields, ?_⟩
  · rw [hobjects]
    exact h.there outer inner (names_of_same hobjects hfields hinner)
  · unfold registrations
    rw [hfields]
    exact h.unwatched

/-- A definition may put an object into one that it does not lead to. -/
theorem define (h : s.Grounded history) {object : ObjectId} (hlt : object < s.objects.size)
    (key : String) {value : Value} (hvalue : ∀ inner, value = .object inner →
      inner < s.objects.size ∧ ¬ s.LeadsTo inner object) :
    (s.define object key value).1.Grounded (history ++ [⟨some object, key⟩]) where
  history := by simpa only [if_pos hlt] using h.history.define object key value
  there outer inner hnames := by
    rw [size_objects_define]
    rcases names_define h.history hnames with hold | ⟨-, hnew⟩
    · exact h.there outer inner hold
    · exact (hvalue inner hnew).1
  acyclic := h.acyclic.of_target object fun outer inner hnames =>
    (names_define h.history hnames).imp_right fun hnew => ⟨hnew.1, (hvalue inner hnew.2).2⟩
  unwatched field :=
    (registrations_progress.define s object key value field).trans (h.unwatched field)

/-- A write may put an object into one that it does not lead to. -/
theorem assign (h : s.Grounded history) {object : ObjectId} {key : String} {field : FieldId}
    (hfield : s.field? object key = some field) {value : Value}
    (hvalue : ∀ inner, value = .object inner → inner < s.objects.size ∧ ¬ s.LeadsTo inner object) :
    (s.assign field value).Grounded history where
  history := h.history.assign field value
  there outer inner hnames := by
    rw [assign_objects]
    rcases names_assign h.history hfield hnames with hold | ⟨-, hnew⟩
    · exact h.there outer inner hold
    · exact (hvalue inner hnew).1
  acyclic := h.acyclic.of_target object fun outer inner hnames =>
    (names_assign h.history hfield hnames).imp_right fun hnew => ⟨hnew.1, (hvalue inner hnew.2).2⟩
  unwatched other := (registrations_assign s field value other).trans (h.unwatched other)

/-- Making data reactive closes no cycle. -/
theorem observe (h : s.Grounded history) (policy : NotifyPolicy) (json : Json) :
    ∃ later, (s.observe policy json).1.Grounded (history ++ later) := by
  obtain ⟨later, hlater⟩ := HasHistory.progress.observe policy s json history h.history
  refine ⟨later, hlater, fun outer inner hnames => ?_, ?_, fun field => ?_⟩
  · rcases names_observe h.history hnames with hold | ⟨-, -, hthere⟩
    · exact Nat.lt_of_lt_of_le (h.there outer inner hold)
        (Extended.observe policy s json).size_objects
    · exact hthere
  · refine h.acyclic.of_newer
      (fun outer inner hnames => ⟨lt_of_names hnames, h.there _ _ hnames⟩) ?_
    exact fun outer inner hnames => (names_observe h.history hnames).imp_right fun hnew =>
      ⟨hnew.1, hnew.2.1⟩
  · exact (registrations_progress.observe policy s json field).trans (h.unwatched field)

/-- A snapshot of an object is the data that it holds, under its keys, and inspection shows it. -/
theorem exists_snapshot (h : s.Grounded history) {object : ObjectId}
    (hlt : object < s.objects.size) :
    ∃ members objects, s.toJson? (.object object) = some (.object members) ∧
      s.Unfolds (.object members) (.object object) objects ∧
      Table.keys members = ((definitionsIn history object).map Prod.fst).eraseDups ∧
      s.inspectObject? object =
        some (inspectEntries (members.map fun member => (member.1, member.2.inspectReactive))) := by
  obtain ⟨json, hjson⟩ : ∃ json, s.toJson? (.object object) = some json := by
    -- Without a snapshot there would be a way longer than there are objects.
    refine Option.ne_none_iff_exists'.1 fun hnone => ?_
    obtain ⟨way, hlength, hway, hthere⟩ := exists_way h.there hlt hnone
    have hle := h.acyclic.length_le hway hthere
    rw [List.length_cons, hlength] at hle
    exact Nat.not_succ_le_self _ hle
  obtain ⟨objects, hunfolds⟩ := exists_unfolds h.there
    (fun inner hinner => Value.object.inj hinner ▸ hlt) hjson
  obtain ⟨more, hdepth⟩ := Nat.exists_eq_add_of_lt hlt
  rw [toJson?, hdepth, (Reading.json s).object] at hjson
  obtain ⟨members, hmembers, rfl⟩ := Option.map_eq_some_iff.1 hjson
  refine ⟨members, objects, ?_, hunfolds, ?_, ?_⟩
  · rw [toJson?, hdepth, (Reading.json s).object, hmembers, Option.map_some]
  · cases hunfolds with
    | object _ hfields => rw [← hfields.keys, h.history.keys_fieldsOf]
  · have hread := readEach_of_jsonEach (fun value json hvalue =>
      (Reading.inspect s).of_json hvalue (Nat.le_succ _)) hmembers
    rw [inspectObject?]
    unfold inspect?
    rw [hdepth, hread, Option.map_some]

end Grounded

end Store

/-! ## Operations on objects -/

/-- What a program gives to a field: data, or an object that is there. -/
inductive Written
  | data (json : Json)
  | handle (object : ObjectId)

namespace Written

/-- The routine that ends with the value. -/
def routine : Written → Routine σ
  | data json => .ofJson json
  | handle object => .done (.object object)

/-- The store in which there is the value, and the value. -/
def put (s : Store σ) : Written → Store σ × Value
  | data json => s.observe .failFast json
  | handle object => (s, .object object)

/-- The objects that are given by their names. -/
def operands : Written → List ObjectId
  | data _ => []
  | handle object => [object]

theorem runWith_routine_bind (written : Written)
    (recompute : SubscriberId → Engine.ReactiveSession σ Value) (next : Value → Routine σ)
    (s : Store σ) : Engine.runWith recompute (written.routine.bind next) s =
      Engine.runWith recompute (next (written.put s).2) (written.put s).1 := by
  cases written <;> rfl

end Written

/-- What a program does with objects. -/
inductive ObjectOperation
  /-- Make data reactive. -/
  | observe (policy : NotifyPolicy) (json : Json)
  /-- Define a key of an object, in place of a field that it has. -/
  | define (object : ObjectId) (key : String) (written : Written)
  /-- Write a key of an object, as it is or through a table of forwarded keys. -/
  | set (forwarded : Option (List String)) (object : ObjectId) (key : String) (written : Written)

namespace ObjectOperation

/-- The routine that an operation runs. -/
def routine : ObjectOperation → Routine σ
  | observe policy json => .request (.observe json policy) .done
  | define object key written => written.routine.bind (Routine.define object key)
  | set forwarded object key written =>
    written.routine.bind ((Source.over forwarded object).write key)

/-- The objects that an operation is given. -/
def operands : ObjectOperation → List ObjectId
  | observe _ _ => []
  | define object _ written => object :: written.operands
  | set _ object _ written => object :: written.operands

/-- An object would be stored in a field of one that it leads to, itself among them. -/
def ClosesCycle (s : Store σ) : ObjectOperation → Prop
  | define object _ (.handle inner) => s.LeadsTo inner object
  | set _ object key (.handle inner) =>
    (∃ field, s.field? object key = some field) ∧ s.LeadsTo inner object
  | _ => False

end ObjectOperation

namespace Store

/-- The stores that a program gets by operations on objects that are there, all of them permitted at
their time. -/
inductive Built (permitted : Store σ → ObjectOperation → Prop) (start : Store σ) : Store σ → Prop
  | start : Built permitted start start
  | step {s t : Store σ} {operation : ObjectOperation} {limit : Nat}
      {outcome : Except ReactiveError Value} (h : Built permitted start s)
      (hthere : ∀ object ∈ operation.operands, object < s.objects.size)
      (hpermitted : permitted s operation)
      (hrun : Engine.run limit operation.routine s = some (outcome, t)) : Built permitted start t

variable {s t : Store σ} {history : List Definition}

/-- A notification that nobody waits for changes nothing. -/
theorem notify_of_unwatched {field : FieldId} (h : s.registrations field = [])
    (recompute : SubscriberId → Engine.ReactiveSession σ Value) :
    ∃ t, Engine.notify recompute field s = some (.ok .null, t) ∧ t.objects = s.objects ∧
      t.fields = s.fields := by
  cases hcell : s.fields[field]? with
  | none => exact ⟨s, Engine.notify_of_none hcell, rfl, rfl⟩
  | some cell =>
      rw [registrations_of_getElem? hcell] at h
      refine ⟨s.report (.notified 0), ?_, rfl, rfl⟩
      cases hpolicy : cell.policy with
      | failFast => rw [Engine.notify_of_failFast hcell hpolicy, h]; rfl
      | isolate => rw [Engine.notify_of_isolate hcell hpolicy, h]; rfl

namespace Grounded

/-- A value that is put may be stored in an object, unless it is an object that leads there. -/
theorem put (h : s.Grounded history) (written : Written) {object : ObjectId}
    (hlt : object < s.objects.size) (hthere : ∀ inner ∈ written.operands, inner < s.objects.size) :
    ∃ later, (written.put s).1.Grounded (history ++ later) ∧
      object < (written.put s).1.objects.size ∧
      (∀ key, (written.put s).1.field? object key = s.field? object key) ∧
      ((∀ inner, written = .handle inner → ¬ s.LeadsTo inner object) →
        ∀ inner, (written.put s).2 = .object inner → inner < (written.put s).1.objects.size ∧
          ¬ (written.put s).1.LeadsTo inner object) := by
  cases written with
  | data json =>
      obtain ⟨later, hlater⟩ := h.observe .failFast json
      have hextended := Extended.observe .failFast s json
      refine ⟨later, hlater, Nat.lt_of_lt_of_le hlt hextended.size_objects,
        fun key => hextended.field? hlt key, fun _ inner hinner => ?_⟩
      obtain ⟨hnew, hmade⟩ := new_of_observe_eq_object hinner
      exact ⟨hmade, fun hleads => Nat.not_lt.2 (le_of_leads_observe h.history hnew hleads) hlt⟩
  | handle other =>
      refine ⟨[], (List.append_nil history).symm ▸ h, hlt, fun _ => rfl,
        fun hopen inner hinner => ?_⟩
      obtain rfl := Value.object.inj hinner
      exact ⟨hthere other (List.mem_singleton_self other), hopen other rfl⟩

/-- Every operation returns, and one that does not close a cycle leaves none. -/
theorem run (h : s.Grounded history) {operation : ObjectOperation}
    (hthere : ∀ object ∈ operation.operands, object < s.objects.size)
    (hopen : ¬ operation.ClosesCycle s) (limit : Nat) :
    ∃ outcome t later, Engine.run limit operation.routine s = some (outcome, t) ∧
      t.Grounded (history ++ later) := by
  cases operation with
  | observe policy json =>
      obtain ⟨later, hlater⟩ := h.observe policy json
      exact ⟨_, _, later, rfl, hlater⟩
  | define object key written =>
      obtain ⟨hlt, hwritten⟩ := List.forall_mem_cons.1 hthere
      obtain ⟨later, hput, hlt', -, hvalue⟩ := h.put written hlt hwritten
      have hdefined := hput.define hlt' key (hvalue fun inner hinner hleads =>
        hopen (by subst hinner; exact hleads))
      refine ⟨.ok .null, _, later ++ [⟨some object, key⟩], ?_,
        List.append_assoc history later _ ▸ hdefined⟩
      exact written.runWith_routine_bind _ _ s
  | set forwarded object key written =>
      obtain ⟨hlt, hwritten⟩ := List.forall_mem_cons.1 hthere
      obtain ⟨later, hput, hlt', hslot, hvalue⟩ := h.put written hlt hwritten
      have hrun : Engine.run limit (ObjectOperation.set forwarded object key written).routine s =
          Engine.runWith (Engine.recompute limit)
            ((Source.over forwarded object).write key (written.put s).2) (written.put s).1 :=
        written.runWith_routine_bind _ _ s
      rw [hrun]
      cases hfield : s.field? object key with
      | none =>
          refine ⟨_, _, later,
            Engine.runWith_write_over_of_none forwarded ((hslot key).trans hfield) _, ?_⟩
          exact hput.of_same (Engine.heard_objects _ _ _) (Engine.heard_fields _ _ _)
      | some field =>
          have hobjects := Engine.heard_objects forwarded key (written.put s).1
          have hfields := Engine.heard_fields forwarded key (written.put s).1
          have hslot' : (Engine.heard forwarded key (written.put s).1).field? object key =
              some field :=
            (field?_congr hobjects object key).trans ((hslot key).trans hfield)
          have hassigned := (hput.of_same hobjects hfields).assign hslot' fun inner hinner => by
            obtain ⟨hmade, hfar⟩ := hvalue (fun other hother hleads =>
              hopen (by subst hother; exact ⟨⟨field, hfield⟩, hleads⟩)) inner hinner
            refine ⟨hobjects ▸ hmade, fun hleads => hfar ?_⟩
            exact ReflTransGen.mono (fun _ _ => names_of_same hobjects hfields) _ _ hleads
          -- Nobody has subscribed, so there is nobody to fail.
          obtain ⟨t, hnotify, hsame, hsame'⟩ :=
            notify_of_unwatched (hassigned.unwatched field) (Engine.recompute limit)
          refine ⟨.ok .null, t, later, ?_, hassigned.of_same hsame hsame'⟩
          rw [Engine.runWith_write_over forwarded ((hslot key).trans hfield),
            Engine.runWith_setField, Engine.set, hnotify]

end Grounded

/-- Start without objects, and let no operation store an object in a field of one that it leads to.
Then a snapshot of any object ends, and so does inspection.  The snapshot is the data that the
values of the fields hold by now, under the keys in the order in which they were defined first. -/
theorem snapshots_end {start s : Store σ} (hobjects : start.objects = #[])
    (hfields : start.fields = #[])
    (h : start.Built (fun s operation => ¬ operation.ClosesCycle s) s) :
    ∃ made, start.Steps made s ∧ ∀ object < s.objects.size, ∃ members objects,
      s.toJson? (.object object) = some (.object members) ∧
      s.Unfolds (.object members) (.object object) objects ∧
      Table.keys members = ((definitionsIn made object).map Prod.fst).eraseDups ∧
      s.inspectObject? object =
        some (inspectEntries (members.map fun member => (member.1, member.2.inspectReactive))) := by
  obtain ⟨made, hsteps, hgrounded⟩ : ∃ made, start.Steps made s ∧ s.Grounded made := by
    induction h with
    | start => exact ⟨[], .refl, .empty hobjects hfields⟩
    | @step s t operation limit outcome _ hthere hopen hrun ih =>
        obtain ⟨made, hsteps, hgrounded⟩ := ih
        obtain ⟨more, hmore⟩ := Engine.run_keeps Steps.progress limit _ s outcome t hrun
        obtain ⟨_, _, later, hrun', hleft⟩ := hgrounded.run hthere hopen limit
        obtain ⟨rfl, rfl⟩ := Prod.mk.inj (Option.some.inj (hrun'.symm.trans hrun))
        -- The steps of the run tell what it has defined.
        exact ⟨made ++ more, hsteps.trans hmore,
          { hleft with history := hmore.hasHistory hgrounded.history }⟩
  exact ⟨made, hsteps, fun object hlt => hgrounded.exists_snapshot hlt⟩

/-- A program without nodes, objects and subscribers. -/
def blank : Store Unit := { shared := () }

/-- An object with one key. -/
def oneObject (key : String) : Store Unit := (blank.observe .failFast (.object [(key, .null)])).1

/-- One more object. -/
def twoObjects : Store Unit :=
  ((oneObject "first").observe .isolate (.object [("x", .bool true)])).1

/-- The second object stands in two fields of the first one. -/
def sharedObject : Store Unit :=
  (((twoObjects.assign 0 (.object 1)).report (.notified 0)).define 0 "second" (.object 1)).1

theorem snapshots_end_sharedObject :
    ∃ made members, blank.Steps made sharedObject ∧
      sharedObject.toJson? (.object 0) = some (.object members) ∧
      Table.keys members = ((definitionsIn made 0).map Prod.fst).eraseDups ∧
      sharedObject.inspectObject? 0 = some
        "\x7b\"first\": Object(\x7b\"x\": Bool(true)\x7d), \"second\": Object(\x7b\"x\": Bool(true)\x7d)\x7d" := by
  -- The second object has no object in its only field, so it leads nowhere else.
  have hopen {s : Store Unit} (htable : s.fieldsOf 1 = [("x", 1)])
      (hvalue : s.peek 1 = .bool true) : ¬ s.LeadsTo 1 0 := by
    intro hleads
    rcases hleads.cases_head with heq | ⟨inner, ⟨entry, hentry, hinner⟩, -⟩
    · exact absurd heq (by decide)
    · rw [htable, List.mem_singleton] at hentry
      rw [hentry, hvalue] at hinner
      cases hinner
  have hfirst : Engine.run 0 (ObjectOperation.observe .failFast
      (.object [("first", .null)])).routine blank = some (.ok (.object 0), oneObject "first") := rfl
  have hsecond : Engine.run 0 (ObjectOperation.observe .isolate
      (.object [("x", .bool true)])).routine (oneObject "first") =
        some (.ok (.object 1), twoObjects) := rfl
  have hset : Engine.run 0 (ObjectOperation.set none 0 "first" (.handle 1)).routine twoObjects =
      some (.ok .null, (twoObjects.assign 0 (.object 1)).report (.notified 0)) := rfl
  have hdefine : Engine.run 0 (ObjectOperation.define 0 "second" (.handle 1)).routine
      ((twoObjects.assign 0 (.object 1)).report (.notified 0)) =
        some (.ok .null, sharedObject) := rfl
  have hbuilt : blank.Built (fun s operation => ¬ operation.ClosesCycle s) sharedObject := by
    refine .step (.step (.step (.step .start ?_ id hfirst) ?_ id hsecond) ?_ ?_ hset) ?_ ?_ hdefine
    · exact fun _ h => absurd h List.not_mem_nil
    · exact fun _ h => absurd h List.not_mem_nil
    · decide +kernel
    · exact fun hcloses => hopen rfl rfl hcloses.2
    · decide +kernel
    · exact hopen rfl rfl
  obtain ⟨made, hsteps, hall⟩ := snapshots_end rfl rfl hbuilt
  obtain ⟨members, objects, hjson, -, hkeys, -⟩ := hall 0 (by decide +kernel)
  exact ⟨made, members, hsteps, hjson, hkeys, by decide +kernel⟩

/-- An object that has been stored in a field of its own. -/
def selfHolder : Store Unit := ((oneObject "self").assign 0 (.object 0)).report (.notified 0)

/-- Storing an object in a field of its own makes it lead to itself.  Then no snapshot of it ends,
on however many levels, and no inspection of it either. -/
theorem snapshots_of_selfHolder :
    blank.Built (fun _ _ => True) selfHolder ∧ selfHolder.Names 0 0 ∧
      ∀ depth, selfHolder.jsonWithin? depth (.object 0) = none ∧
        selfHolder.inspectWithin? depth (.object 0) = none := by
  have hmade : Engine.run 0 (ObjectOperation.observe .failFast
      (.object [("self", .null)])).routine blank = some (.ok (.object 0), oneObject "self") := rfl
  have hset : Engine.run 0 (ObjectOperation.set none 0 "self" (.handle 0)).routine
      (oneObject "self") = some (.ok .null, selfHolder) := rfl
  have hbuilt : blank.Built (fun _ _ => True) selfHolder := by
    refine .step (.step .start ?_ trivial hmade) ?_ trivial hset
    · exact fun _ h => absurd h List.not_mem_nil
    · decide +kernel
  have htable : selfHolder.fieldsOf 0 = [("self", 0)] := rfl
  have hvalue : selfHolder.peek 0 = .object 0 := rfl
  refine ⟨hbuilt, ⟨("self", 0), htable ▸ List.mem_singleton_self _, hvalue⟩, fun depth => ?_⟩
  induction depth with
  | zero => exact ⟨rfl, rfl⟩
  | succ depth ih =>
      rw [(Reading.json _).object, (Reading.inspect _).object, htable]
      simp [hvalue, ih]

end Store

end LiveTemplate
