import LiveTemplate.Proofs.Reactive.Slots
import LiveTemplate.Proofs.Reactive.Sources

/-!
# Recent objects

Objects are numbered in the order in which they are made.  As long as nothing older is stored, the
objects from some number on refer to each other only, and so do those that are made from data
later.  Each of them keeps the policy that it was made with, and so do its fields: a rule for the
policies of objects by number, once it holds, holds for good.
-/

namespace LiveTemplate

variable {σ : Type}

/-! ## Routines that store recent objects -/

/-- If the value is an object, then it is not older than the given one. -/
def Value.Recent (first : ObjectId) : Value → Prop
  | .object named => first ≤ named
  | _ => True

/-- The operation stores no older object, and makes objects under the default policy. -/
def Request.Recent (first : ObjectId) : Request σ → Prop
  | .define _ _ value => value.Recent first
  | .observe _ policy => policy = .failFast
  | _ => True

/-- What is known of the answer: an object that has just been made is recent. -/
def Request.Told (first : ObjectId) : (r : Request σ) → r.Answer → Prop
  | .observe _ _, value => Value.Recent first value
  | _, _ => True

/-- The routine, and every routine it registers, stores no older object, and makes objects under the
default policy. -/
def Routine.Recent (first : ObjectId) : Routine σ → Prop
  | .done _ => True
  | .fail _ => True
  | .request r next =>
    r.Recent first ∧ ∀ answer, r.Told first answer → (next answer).Recent first
  | .untracked body next => body.Recent first ∧ ∀ outcome, (next outcome).Recent first
  | .watch read _ key callback next =>
    ((read key).Recent first ∧ ∀ value, (callback value).Recent first) ∧
      ∀ outcome, (next outcome).Recent first
  | .set _ value next => value.Recent first ∧ ∀ outcome, (next outcome).Recent first
  | .notify _ next => ∀ outcome, (next outcome).Recent first
  | .recompute _ next => ∀ outcome, (next outcome).Recent first

/-- So does a recomputation of the subscriber. -/
def Subscriber.Recent (first : ObjectId) (cell : Subscriber σ) : Prop :=
  (cell.source.read cell.key).Recent first ∧ ∀ value, (cell.callback value).Recent first

variable {first : ObjectId}

namespace Routine

theorem Recent.followedBy {routine : Routine σ} {next : Except ReactiveError Value → Routine σ}
    (hroutine : routine.Recent first) (hnext : ∀ outcome, (next outcome).Recent first) :
    (routine.followedBy next).Recent first := by
  induction routine with
  | done value => exact hnext (.ok value)
  | fail error => exact hnext (.error error)
  | request r k ih => exact ⟨hroutine.1, fun answer h => ih answer (hroutine.2 answer h)⟩
  | untracked body k _ ih => exact ⟨hroutine.1, fun outcome => ih outcome (hroutine.2 outcome)⟩
  | watch read write key callback k _ _ _ ih =>
      exact ⟨hroutine.1, fun outcome => ih outcome (hroutine.2 outcome)⟩
  | set field value k ih => exact ⟨hroutine.1, fun outcome => ih outcome (hroutine.2 outcome)⟩
  | notify field k ih => exact fun outcome => ih outcome (hroutine outcome)
  | recompute subscriber k ih => exact fun outcome => ih outcome (hroutine outcome)

theorem Recent.bind {routine : Routine σ} {next : Value → Routine σ}
    (hroutine : routine.Recent first) (hnext : ∀ value, (next value).Recent first) :
    (routine.bind next).Recent first := by
  refine hroutine.followedBy fun outcome => ?_
  cases outcome with
  | ok value => exact hnext value
  | error e => trivial

theorem recent_ofExcept (outcome : Except ReactiveError Value) :
    (ofExcept outcome : Routine σ).Recent first := by
  cases outcome <;> trivial

theorem recent_setField {value : Value} (h : value.Recent first) (field : FieldId) :
    (setField field value : Routine σ).Recent first :=
  ⟨h, recent_ofExcept⟩

/-- Data is new when it is used. -/
theorem recent_ofJson_bind (json : Json) {next : Value → Routine σ}
    (hnext : ∀ value, value.Recent first → (next value).Recent first) :
    ((ofJson json).bind next).Recent first :=
  ⟨rfl, hnext⟩

end Routine

namespace Source

variable (forwarded : Option (List String)) (object : ObjectId) (key : String)

theorem recent_reportMiss (keys : List String) :
    (reportMiss keys key : Routine σ).Recent first := by
  unfold reportMiss
  split
  · trivial
  · exact ⟨trivial, fun _ _ => trivial⟩

theorem recent_withField {use : FieldId → Routine σ} (huse : ∀ field, (use field).Recent first) :
    (withField object key use).Recent first := by
  refine ⟨trivial, fun field? _ => ?_⟩
  cases field? with
  | none => trivial
  | some field => exact huse field

theorem recent_read_over : ((Source.over forwarded object).read key : Routine σ).Recent first := by
  have hread : ((ofObject object).read key : Routine σ).Recent first :=
    recent_withField object key fun _ => ⟨trivial, fun _ _ => trivial⟩
  cases forwarded with
  | none => exact hread
  | some keys => exact (recent_reportMiss key keys).bind fun _ => hread

theorem recent_write_over {value : Value} (h : value.Recent first) :
    ((Source.over forwarded object).write key value : Routine σ).Recent first := by
  have hwrite : ((ofObject object).write key value : Routine σ).Recent first :=
    recent_withField object key fun field => Routine.recent_setField h field
  cases forwarded with
  | none => exact hwrite
  | some keys => exact (recent_reportMiss key keys).bind fun _ => hwrite

end Source

/-! ## Governed stores -/

namespace Store

/-- The recent objects have the policies of a rule, which gives all that are made later the same
one, and hold no older object.  The subscribers store none. -/
structure Governed (first : ObjectId) (rule : ObjectId → NotifyPolicy) (later : NotifyPolicy)
    (s : Store σ) : Prop where
  first_le : first ≤ s.objects.size
  rule_later : ∀ object, s.objects.size ≤ object → rule object = later
  uniform : ∀ object, first ≤ object → object < s.objects.size → s.Uniform object (rule object)
  inside : ∀ object key field, first ≤ object → s.field? object key = some field →
    (s.peek field).Recent first
  subscribers : ∀ cell ∈ s.subscribers, cell.Recent first

theorem peek_define (s : Store σ) (object : ObjectId) (key : String) (value : Value)
    (field : FieldId) :
    (s.define object key value).1.peek field =
      if field = s.fields.size then value else s.peek field := by
  simp only [peek, define, report, record, Array.getElem?_push]
  split <;> rfl

/-- A write leaves a field its value, or gives it the new one. -/
theorem peek_assign_cases (s : Store σ) (field : FieldId) (value : Value) (other : FieldId) :
    (s.assign field value).peek other = s.peek other ∨
      (s.assign field value).peek other = value := by
  unfold assign
  split
  · exact .inl rfl
  · simp only [peek, report, record, Array.getElem?_modify]
    split
    · cases s.fields[other]? with
      | none => exact .inl rfl
      | some cell => exact .inr rfl
    · exact .inl rfl

theorem peek_register (s : Store σ) (field : FieldId) (subscriber : SubscriberId) :
    (s.register field subscriber).peek = s.peek := by
  funext other
  simp only [peek, register, report, record, Array.getElem?_modify]
  split
  · cases s.fields[other]? <;> rfl
  · rfl

namespace Governed

variable {rule : ObjectId → NotifyPolicy} {later : NotifyPolicy} {s t : Store σ}

/-- What leaves the objects, and stores recent values only, keeps the store governed. -/
theorem of_values (h : s.Governed first rule later) (hobjects : t.objects = s.objects)
    (huniform : ∀ object policy, s.Uniform object policy → t.Uniform object policy)
    (hvalues : ∀ field, t.peek field = s.peek field ∨ (t.peek field).Recent first)
    (hsubscribers : ∀ cell ∈ t.subscribers, cell ∈ s.subscribers ∨ cell.Recent first) :
    t.Governed first rule later where
  first_le := hobjects ▸ h.first_le
  rule_later := hobjects ▸ h.rule_later
  uniform object hfirst hlt := huniform object _ (h.uniform object hfirst (hobjects ▸ hlt))
  inside object key field hfirst hfield := by
    rw [field?_congr hobjects] at hfield
    rcases hvalues field with hsame | hrecent
    · rw [hsame]
      exact h.inside object key field hfirst hfield
    · exact hrecent
  subscribers cell hcell := (hsubscribers cell hcell).elim (h.subscribers cell) id

theorem register (h : s.Governed first rule later) (field : FieldId) (subscriber : SubscriberId) :
    (s.register field subscriber).Governed first rule later :=
  h.of_values rfl
    (fun object policy => (Uniform.progress object policy).register s field subscriber)
    (fun other => .inl (congrFun (peek_register s field subscriber) other)) fun _ => .inl

theorem assign (h : s.Governed first rule later) (field : FieldId) {value : Value}
    (hvalue : value.Recent first) : (s.assign field value).Governed first rule later := by
  refine h.of_values (assign_objects s field value)
    (fun object policy => (Uniform.progress object policy).assign s field value)
    (fun other => ?_) fun cell hcell => .inl (assign_subscribers s field value ▸ hcell)
  rcases peek_assign_cases s field value other with hsame | hnew
  · exact .inl hsame
  · rw [hnew]
    exact .inr hvalue

theorem push (h : s.Governed first rule later) {cell : Subscriber σ} (hcell : cell.Recent first) :
    Governed first rule later { s with subscribers := s.subscribers.push cell } := by
  refine h.of_values rfl (fun object policy => (Uniform.progress object policy).push s cell)
    (fun _ => .inl rfl) fun other hother => ?_
  rcases Array.mem_push.1 hother with hother | rfl
  · exact .inl hother
  · exact .inr hcell

theorem define (h : s.Governed first rule later) (object : ObjectId) (key : String) {value : Value}
    (hvalue : value.Recent first) : (s.define object key value).1.Governed first rule later := by
  have hsize : (s.define object key value).1.objects.size = s.objects.size := Array.size_modify
  refine ⟨hsize ▸ h.first_le, hsize ▸ h.rule_later, fun other hfirst hlt => ?_,
    fun other key' field hfirst hfield => ?_, h.subscribers⟩
  -- The new field takes the policy of its object, whatever the rule is.
  · exact (Uniform.progress other _).define s object key value
      (h.uniform other hfirst (hsize ▸ hlt))
  · rw [peek_define]
    split
    · exact hvalue
    · next hold =>
        rw [field?_define] at hfield
        split at hfield
        · exact absurd (Option.some.inj hfield).symm hold
        · exact h.inside other key' field hfirst hfield

theorem newObject (h : s.Governed first rule later) :
    (s.newObject later).1.Governed first rule later := by
  have hsize : (s.newObject later).1.objects.size = s.objects.size + 1 := Array.size_push _
  refine ⟨hsize ▸ Nat.le_succ_of_le h.first_le, fun object hobject => ?_,
    fun object hfirst hlt => ?_, fun object key field hfirst hfield => ?_, h.subscribers⟩
  · rw [hsize] at hobject
    exact h.rule_later object (Nat.le_of_succ_le hobject)
  · rcases Nat.lt_succ_iff_lt_or_eq.1 (hsize ▸ hlt) with hold | rfl
    · exact (Uniform.progress object _).newObject s later (h.uniform object hfirst hold)
    · rw [h.rule_later _ (Nat.le_refl _)]
      exact Uniform.newObject s later
  · exact h.inside object key field hfirst (field?_newObject s later object key ▸ hfield)

/-- Data that is made reactive under the policy of the rule is governed by it. -/
theorem observe_and_observeMembers (first : ObjectId) (rule : ObjectId → NotifyPolicy)
    (later : NotifyPolicy) :
    (∀ (s : Store σ) (json : Json), s.Governed first rule later →
        (s.observe later json).1.Governed first rule later ∧
          (s.observe later json).2.Recent first) ∧
      ∀ (s : Store σ) (object : ObjectId) (members : List (String × Json)),
        s.Governed first rule later →
          (s.observeMembers later object members).Governed first rule later := by
  refine Store.observe.mutual_induct later
    (fun s json => s.Governed first rule later →
      (s.observe later json).1.Governed first rule later ∧ (s.observe later json).2.Recent first)
    (fun s object members => s.Governed first rule later →
      (s.observeMembers later object members).Governed first rule later)
    ?null ?bool ?number ?string ?array ?object ?nil ?cons
  case null => exact fun s h => ⟨h, trivial⟩
  case bool => exact fun s _ h => ⟨h, trivial⟩
  case number => exact fun s _ h => ⟨h, trivial⟩
  case string => exact fun s _ h => ⟨h, trivial⟩
  case array =>
    exact fun s items h => ⟨h.of_values rfl
      (fun object policy => (Uniform.progress object policy).newArray s items)
      (fun _ => .inl rfl) fun _ => .inl, trivial⟩
  case object =>
    intro s members s₁ object hnew ih h
    obtain ⟨rfl, rfl⟩ := Prod.mk.inj hnew
    exact ⟨ih h.newObject, h.first_le⟩
  case nil => exact fun s object h => h
  case cons =>
    intro s object key json rest s₁ value hobserve s₂ field hdefine ihjson ihrest h
    have hfirst : s₁.Governed first rule later ∧ value.Recent first := by
      simpa only [hobserve] using ihjson h
    have hsecond : s₂.Governed first rule later := by
      simpa only [hdefine] using hfirst.1.define object key hfirst.2
    simpa only [Store.observeMembers, hobserve, hdefine] using ihrest hsecond

theorem observe (h : s.Governed first rule later) (json : Json) :
    (s.observe later json).1.Governed first rule later ∧ (s.observe later json).2.Recent first :=
  (observe_and_observeMembers first rule later).1 s json h

theorem passage (first : ObjectId) (rule : ObjectId → NotifyPolicy) (later : NotifyPolicy) :
    Passage fun s t : Store σ => s.Governed first rule later → t.Governed first rule later where
  refl _ h := h
  trans hst htu h := htu (hst h)
  record s entry h := h.of_values rfl
    (fun object policy => (Uniform.progress object policy).record s entry) (fun _ => .inl rfl)
    fun _ => .inl
  collecting {s t} subscriber hrun h := by
    have hentered : (s.withActive subscriber).Governed first rule later :=
      h.of_values rfl (fun _ _ hobject => ⟨hobject.isObject, hobject.fields⟩) (fun _ => .inl rfl)
        fun _ => .inl
    exact (hrun hentered).of_values rfl (fun _ _ hobject => ⟨hobject.isObject, hobject.fields⟩)
      (fun _ => .inl rfl) fun _ => .inl

/-- Recent operations keep the store governed. -/
theorem perform (h : s.Governed first rule .failFast) {r : Request σ} (hr : r.Recent first) :
    (s.perform r).1.Governed first rule .failFast ∧ r.Told first (s.perform r).2 := by
  have hrecord (entry : Entry) := (passage first rule .failFast).record s entry h
  cases r with
  | get field =>
      have hgotten := hrecord (.event (.gotten (s.fieldKey field)))
      refine ⟨?_, trivial⟩
      simp only [Store.perform, get, track]
      split
      · exact hgotten.register field _
      · exact hgotten
  | define object key value => exact ⟨h.define object key hr, trivial⟩
  | observe json policy =>
      obtain rfl : policy = .failFast := hr
      exact h.observe json
  | register field subscriber => exact ⟨h.register field subscriber, trivial⟩
  | report event => exact ⟨hrecord (.event event), trivial⟩
  | log text => exact ⟨hrecord (.line text), trivial⟩
  | edit change =>
      exact ⟨h.of_values rfl (fun object policy => (Uniform.progress object policy).edit s change)
        (fun _ => .inl rfl) fun _ => .inl, trivial⟩
  | share change =>
      exact ⟨h.of_values rfl (fun object policy => (Uniform.progress object policy).share s change)
        (fun _ => .inl rfl) fun _ => .inl, trivial⟩
  | _ => exact ⟨h, trivial⟩

end Governed

end Store

/-! ## Runs of recent routines -/

namespace Engine

open Session

variable {rule : ObjectId → NotifyPolicy} {recompute : SubscriberId → ReactiveSession σ Value}

/-- Going from one store to the other keeps the recent objects governed. -/
def Governs (first : ObjectId) (rule : ObjectId → NotifyPolicy) (s t : Store σ) : Prop :=
  s.Governed first rule .failFast → t.Governed first rule .failFast

theorem runWith_governs (hrecompute : ∀ i, Keeps (Governs first rule) (recompute i))
    {routine : Routine σ} (hroutine : routine.Recent first) :
    Keeps (Governs first rule) (runWith recompute routine) := by
  have hpass : Passage (Governs (σ := σ) first rule) := Store.Governed.passage first rule .failFast
  induction routine with
  | done value => exact Keeps.pure hpass value
  | fail error => exact Keeps.throw hpass error
  | request r next ih =>
      intro s outcome t hrun h
      obtain ⟨hperformed, htold⟩ := h.perform hroutine.1
      exact ih _ (hroutine.2 _ htold) _ _ _ hrun hperformed
  | untracked body next ihbody ih =>
      exact Keeps.followedBy hpass (Keeps.collecting hpass none (ihbody hroutine.1))
        fun outcome => ih outcome (hroutine.2 outcome)
  | watch read write key callback next ihread _ _ ih =>
      obtain ⟨hparts, hnext⟩ := hroutine
      -- The new subscriber must be recent too, since a later notification may run it.
      have hcell : (⟨key, ⟨read, write⟩, callback⟩ : Subscriber σ).Recent first := hparts
      exact Keeps.followedBy hpass (hpass.construct (fun _ h => h.push hcell) (ihread key hparts.1))
        fun outcome => ih outcome (hnext outcome)
  | set field value next ih =>
      exact Keeps.followedBy hpass
        (hpass.set hrecompute field fun _ h => h.assign field hroutine.1)
        fun outcome => ih outcome (hroutine.2 outcome)
  | notify field next ih =>
      exact Keeps.followedBy hpass (hpass.notify hrecompute field)
        fun outcome => ih outcome (hroutine outcome)
  | recompute subscriber next ih =>
      exact Keeps.followedBy hpass (hrecompute subscriber)
        fun outcome => ih outcome (hroutine outcome)

/-- Induction on the nesting: a subscriber of a governed store is recent. -/
theorem recompute_governs (fuel : Nat) (subscriber : SubscriberId) :
    Keeps (Governs (σ := σ) first rule) (Engine.recompute fuel subscriber) := by
  induction fuel generalizing subscriber with
  | zero =>
      intro s outcome t hrun
      cases hrun
  | succ fuel ih =>
      intro s outcome t hrun h
      cases hcell : s.subscribers[subscriber]? with
      | none =>
          rw [recompute_succ_of_none hcell] at hrun
          obtain ⟨-, rfl⟩ := Prod.mk.inj (Option.some.inj hrun)
          exact h
      | some cell =>
          obtain ⟨hread, hcallback⟩ := h.subscribers cell (Array.mem_of_getElem? hcell)
          rw [recompute_succ_of_some hcell] at hrun
          exact runWith_governs ih (hread.bind hcallback) _ _ _ hrun h

theorem run_governs (fuel : Nat) {routine : Routine σ} (hroutine : routine.Recent first) :
    Keeps (Governs first rule) (run fuel routine) :=
  runWith_governs (recompute_governs fuel) hroutine

end Engine

end LiveTemplate
