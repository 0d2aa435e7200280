import LiveTemplate.Proofs.Mounting
import LiveTemplate.Proofs.Reactive.Recent

/-!
# Policies in an object graph

A graph of objects is made from data under a policy, and filled with more data later.  Data is
converted under the default policy then, whichever object it goes to.  So two policies are met on
the way from the root: the configured one in the objects that were made with the root, and the
default one in those that were converted later.  Fields that are added to an object follow the
object.
-/

namespace LiveTemplate

variable {σ : Type}

/-! ## Graphs of objects -/

/-- The object is reached from another one through fields that have objects for values. -/
inductive Store.Reaches (s : Store σ) (root : ObjectId) : ObjectId → Prop
  | root : Reaches s root root
  | through {object inner : ObjectId} {key : String} {field : FieldId}
      (hobject : Reaches s root object) (hfield : s.field? object key = some field)
      (hvalue : s.peek field = .object inner) : Reaches s root inner

theorem Store.Reaches.of_asObject? {s : Store σ} {root object inner : ObjectId} {key : String}
    {field : FieldId} (h : s.Reaches root object) (hfield : s.field? object key = some field)
    (hvalue : (s.peek field).asObject? = some inner) : s.Reaches root inner := by
  refine h.through hfield ?_
  cases hpeek : s.peek field with
  | object named =>
      rw [hpeek] at hvalue
      rw [Option.some.inj hvalue]
  | _ =>
      rw [hpeek] at hvalue
      cases hvalue

/-- An object has been made under a policy: from data, without fields, or as the data of a mount. -/
inductive Founded (policy : NotifyPolicy) (s : Store σ) : ObjectId → Store σ → Prop
  | observed {json : Json} {root : ObjectId} (hroot : (s.observe policy json).2 = .object root) :
    Founded policy s root (s.observe policy json).1
  | empty : Founded policy s s.objects.size (s.newObject policy).1
  | mounted {limit : Nat} {options : Options} {document : NodeId} {mount : Mount} {t : Store σ}
      (hpolicy : options.notifyPolicy = policy)
      (hmount : Mount.create limit options document id s = some (.ok mount, t)) :
    Founded policy s mount.data t

/-- What a program does with objects and data. -/
inductive Deed (σ : Type)
  /-- Write data under a key of an object, read as it is or through a table of forwarded keys. -/
  | set (forwarded : Option (List String)) (object : ObjectId) (key : String) (json : Json)
  /-- Write data to a field. -/
  | setField (field : FieldId) (json : Json)
  /-- Define a field of an object from data. -/
  | define (object : ObjectId) (key : String) (json : Json)
  /-- Construct a subscriber on a key of an object. -/
  | watch (forwarded : Option (List String)) (object : ObjectId) (key : String)
      (callback : Value → Routine σ)

namespace Deed

/-- The routine that a deed runs. -/
def routine : Deed σ → Routine σ
  | set forwarded object key json => (Source.over forwarded object).writeJson key json
  | setField field json => (Routine.ofJson json).bind (Routine.setField field)
  | define object key json => Routine.defineJson object key json
  | watch forwarded object key callback =>
    (Source.over forwarded object).watch key callback fun _ => .nothing

/-- Do one thing after another, whatever the outcomes. -/
def performAll (limit : Nat) : List (Deed σ) → Store σ → Option (Store σ)
  | [], s => some s
  | deed :: rest, s =>
    match Engine.run limit deed.routine s with
    | some (_, t) => performAll limit rest t
    | none => none

/-- The callbacks that are registered store no object older than the given one. -/
def Recent (first : ObjectId) : Deed σ → Prop
  | watch _ _ _ callback => ∀ value, (callback value).Recent first
  | _ => True

theorem recent_routine {first : ObjectId} {deed : Deed σ} (h : deed.Recent first) :
    deed.routine.Recent first := by
  cases deed with
  | set forwarded object key json =>
      exact Routine.recent_ofJson_bind json fun value hvalue =>
        Source.recent_write_over forwarded object key hvalue
  | setField field json =>
      exact Routine.recent_ofJson_bind json fun value hvalue =>
        Routine.recent_setField hvalue field
  | define object key json =>
      exact Routine.recent_ofJson_bind json fun value hvalue => ⟨hvalue, fun _ _ => trivial⟩
  | watch forwarded object key callback =>
      refine ⟨⟨Source.recent_read_over forwarded object key, h⟩, fun outcome => ?_⟩
      cases outcome <;> trivial

/-- Induction on the deeds: each of them runs a recent routine. -/
theorem performAll_governs {limit : Nat} {first : ObjectId} {rule : ObjectId → NotifyPolicy}
    {deeds : List (Deed σ)} {s t : Store σ} (hdeeds : ∀ deed ∈ deeds, deed.Recent first)
    (h : s.Governed first rule .failFast) (hrun : performAll limit deeds s = some t) :
    t.Governed first rule .failFast := by
  induction deeds generalizing s with
  | nil =>
      obtain rfl := Option.some.inj hrun
      exact h
  | cons deed rest ih =>
      obtain ⟨hdeed, hrest⟩ := List.forall_mem_cons.1 hdeeds
      unfold performAll at hrun
      cases hfirst : Engine.run limit deed.routine s with
      | none => simp [hfirst] at hrun
      | some first =>
          obtain ⟨outcome, u⟩ := first
          simp only [hfirst] at hrun
          exact ih hrest (Engine.run_governs limit (recent_routine hdeed) s outcome u hfirst h) hrun

end Deed

/-! ## Making a graph -/

namespace Store.Governed

variable {first : ObjectId} {rule : ObjectId → NotifyPolicy} {policy later : NotifyPolicy}
  {s t : Store σ}

/-- Where nothing is recent yet, any one policy is the rule. -/
theorem fresh (policy : NotifyPolicy)
    (hsubscribers : ∀ cell ∈ s.subscribers, cell.Recent s.objects.size) :
    s.Governed s.objects.size (fun _ => policy) policy where
  first_le := Nat.le_refl _
  rule_later _ _ := rfl
  uniform _ hfirst hlt := absurd hlt (Nat.not_lt.2 hfirst)
  inside _ _ _ hfirst hfield := absurd (lt_of_field?_eq_some hfield) (Nat.not_lt.2 hfirst)
  subscribers := hsubscribers

/-- From here on objects are made under another policy. -/
theorem turn (h : s.Governed first (fun _ => policy) policy) (later : NotifyPolicy) :
    s.Governed first (fun object => if object < s.objects.size then policy else later) later where
  first_le := h.first_le
  rule_later object hobject := if_neg (Nat.not_lt.2 hobject)
  uniform object hfirst hlt := by
    rw [if_pos hlt]
    exact h.uniform object hfirst hlt
  inside := h.inside
  subscribers := h.subscribers

theorem enrolled (h : s.Governed first rule later) {ledger : List Registration}
    {built : List (Subscriber σ)} (hst : s.Enrolled t ledger built)
    (hbuilt : ∀ cell ∈ built, cell.Recent first) : t.Governed first rule later := by
  refine h.of_values hst.objects (fun object policy => Uniform.of_policies hst.objects ?_)
    (fun field => .inl (hst.peek field)) fun cell hcell => ?_
  · intro field cell hcell
    rw [hst.fields, getElem?_enroll, hcell]
    exact ⟨_, rfl, rfl⟩
  · rw [← Array.mem_toList_iff, hst.subscribers, List.mem_append, Array.mem_toList_iff] at hcell
    exact hcell.imp_right (hbuilt cell)

/-- Binding places makes no objects, and painters store none. -/
theorem binds {forwarded : Option (List String)} {data : ObjectId} {places : List Place}
    {outcome : Except CompileError (List Binding)}
    (hbinds : Binds (.over forwarded data) data places s outcome t)
    (h : s.Governed first rule later) : t.Governed first rule later := by
  induction hbinds with
  | nil henrolled => exact h.enrolled henrolled fun _ hcell => absurd hcell List.not_mem_nil
  | fails _ henrolled => exact h.enrolled henrolled fun _ hcell => absurd hcell List.not_mem_nil
  | @binds place _ _ _ _ _ _ _ henrolled _ _ ih =>
      refine ih (h.enrolled henrolled fun cell hcell => ?_)
      rw [List.mem_singleton.1 hcell]
      exact ⟨Source.recent_read_over forwarded data _, fun _ => ⟨trivial, fun _ _ => trivial⟩⟩

end Store.Governed

/-- All objects that are made with the root have its policy. -/
theorem Founded.governed {policy : NotifyPolicy} {s s₁ : Store σ} {root : ObjectId}
    (h : Founded policy s root s₁)
    (hsubscribers : ∀ cell ∈ s.subscribers, cell.Recent s.objects.size) :
    s₁.Governed s.objects.size (fun _ => policy) policy ∧ s.objects.size ≤ root := by
  have hfresh := Store.Governed.fresh policy hsubscribers
  cases h with
  | @observed json root hroot =>
      obtain ⟨hgoverned, hrecent⟩ := hfresh.observe json
      rw [hroot] at hrecent
      exact ⟨hgoverned, hrecent⟩
  | empty => exact ⟨hfresh.newObject, Nat.le_refl _⟩
  | @mounted limit options document mount t hpolicy hmount =>
      obtain rfl := hpolicy
      obtain ⟨u, places, hprepare, hbinds, -⟩ := Mount.create_binds hmount
      -- The data is made first, and then painters are bound to it.
      obtain ⟨hgoverned, hrecent⟩ := hfresh.observe options.data
      rw [(Mount.prepare_observed hprepare).1] at hgoverned hrecent
      exact ⟨Store.Governed.binds hbinds hgoverned, hrecent⟩

/-! ## Policies behind deeds -/

/-- No older object is reached from a recent one. -/
theorem Store.Reaches.recent {first : ObjectId} {rule : ObjectId → NotifyPolicy}
    {later : NotifyPolicy} {s : Store σ} {root object : ObjectId} (h : s.Reaches root object)
    (hgoverned : s.Governed first rule later) (hroot : first ≤ root) : first ≤ object := by
  induction h with
  | root => exact hroot
  | through _ hfield hvalue ih =>
      have hinside := hgoverned.inside _ _ _ ih hfield
      rw [hvalue] at hinside
      exact hinside

/-- Data that is written or defined anywhere in a graph is converted under the default policy.  In
every state that is reached so, the fields of an object that is reached from the root have the
policy of the root if the object was made with the root, and the default policy if it was made
later. -/
theorem fields_follow_conversion {policy : NotifyPolicy} {limit : Nat} {s s₁ t : Store σ}
    {root object : ObjectId} {deeds : List (Deed σ)} {key : String} {field : FieldId}
    (hfounded : Founded policy s root s₁)
    (hsubscribers : ∀ cell ∈ s.subscribers, cell.Recent s.objects.size)
    (hdeeds : ∀ deed ∈ deeds, deed.Recent s.objects.size)
    (hrun : Deed.performAll limit deeds s₁ = some t) (hreaches : t.Reaches root object)
    (hfield : t.field? object key = some field) :
    s.objects.size ≤ object ∧ ∃ cell, t.fields[field]? = some cell ∧
      cell.policy = if object < s₁.objects.size then policy else .failFast := by
  obtain ⟨hgoverned, hroot⟩ := hfounded.governed hsubscribers
  -- Where the graph is complete, the rule turns to the policy of conversions.
  have hlast := Deed.performAll_governs hdeeds (hgoverned.turn .failFast) hrun
  have hrecent := hreaches.recent hlast hroot
  exact ⟨hrecent,
    (hlast.uniform object hrecent (Store.lt_of_field?_eq_some hfield)).fields key field hfield⟩

/-- An isolating root with an object in one of its fields. -/
def isolatingRoot : Store Unit :=
  (Store.observe { shared := () } .isolate
    (.object [("kept", .object [("x", .null)]), ("late", .null)])).1

theorem founded_isolatingRoot : Founded .isolate { shared := () } 0 isolatingRoot :=
  .observed rfl

/-- An object is written into the root and gets one more field.  This field fails fast, and the
field of the object that was there from the beginning isolates. -/
theorem fields_follow_conversion_isolatingRoot :
    ∃ (t : Store Unit) (kept added : FieldCell),
      Deed.performAll 1 [.set none 0 "late" (.object [("x", .null)]),
        .define 2 "y" (.bool true)] isolatingRoot = some t ∧
      t.fields[0]? = some kept ∧ kept.policy = .isolate ∧
      t.fields[4]? = some added ∧ added.policy = .failFast := by
  have hall : (Deed.performAll 1 [.set none 0 "late" (.object [("x", .null)]),
      .define 2 "y" (.bool true)] isolatingRoot).map (fun t =>
        decide (t.field? 0 "kept" = some 1 ∧ (t.peek 1).asObject? = some 1 ∧
          t.field? 0 "late" = some 2 ∧ (t.peek 2).asObject? = some 2 ∧
          t.field? 1 "x" = some 0 ∧ t.field? 2 "y" = some 4)) = some true := by decide +kernel
  obtain ⟨t, hrun, hfields⟩ := Option.map_eq_some_iff.1 hall
  obtain ⟨hkept, hkept', hlate, hlate', hx, hy⟩ := of_decide_eq_true hfields
  have hdeeds : ∀ deed ∈ [(.set none 0 "late" (.object [("x", .null)]) : Deed Unit),
      .define 2 "y" (.bool true)], deed.Recent 0 := by
    intro deed hdeed
    rcases List.mem_cons.1 hdeed with rfl | hdeed
    · trivial
    · rw [List.mem_singleton.1 hdeed]
      trivial
  have hnobody : ∀ cell ∈ (#[] : Array (Subscriber Unit)), cell.Recent 0 :=
    fun cell hcell => absurd hcell (Array.not_mem_empty cell)
  obtain ⟨-, kept, hkeptCell, hisolate⟩ := fields_follow_conversion founded_isolatingRoot hnobody
    hdeeds hrun (Store.Reaches.root.of_asObject? hkept hkept') hx
  obtain ⟨-, added, haddedCell, hfails⟩ := fields_follow_conversion founded_isolatingRoot hnobody
    hdeeds hrun (Store.Reaches.root.of_asObject? hlate hlate') hy
  exact ⟨t, kept, added, hrun, hkeptCell, hisolate, haddedCell, hfails⟩

/-- The policy of the root does not govern what is written into it. -/
theorem configured_policy_not_inherited :
    ∃ (t : Store Unit) (cell : FieldCell),
      Founded .isolate { shared := () } 0 isolatingRoot ∧
      Deed.performAll 1 [.set none 0 "late" (.object [("x", .null)])] isolatingRoot = some t ∧
      t.Reaches 0 2 ∧ t.field? 2 "x" = some 3 ∧ t.fields[3]? = some cell ∧
      cell.policy ≠ .isolate := by
  have hall : (Deed.performAll 1 [.set none 0 "late" (.object [("x", .null)])]
      isolatingRoot).bind (fun t => t.fields[3]?.map fun cell =>
        decide (t.field? 0 "late" = some 2 ∧ (t.peek 2).asObject? = some 2 ∧
          t.field? 2 "x" = some 3 ∧ cell.policy ≠ .isolate)) = some true := by decide +kernel
  obtain ⟨t, hrun, hall⟩ := Option.bind_eq_some_iff.1 hall
  obtain ⟨cell, hcell, hall⟩ := Option.map_eq_some_iff.1 hall
  obtain ⟨hlate, hlate', hx, hpolicy⟩ := of_decide_eq_true hall
  exact ⟨t, cell, founded_isolatingRoot, hrun,
    Store.Reaches.root.of_asObject? hlate hlate', hx, hcell, hpolicy⟩

end LiveTemplate
