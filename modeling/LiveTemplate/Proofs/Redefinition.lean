import LiveTemplate.Proofs.Interface
import LiveTemplate.Proofs.Reactive.Causes
import LiveTemplate.Proofs.Reactive.Definitions
import LiveTemplate.Proofs.Reactive.Sources

/-!
# Redefined fields

A definition under a key that is there puts another field, without subscribers, into the slot.  The
field that was there stays as it is: whoever has it can go on to read and write it, and its
subscribers stay registered with it.  But no slot leads to it, then or ever after.  So a write
through an object passes it by, and a write of it passes the object by, as long as callbacks do not
bring the two together.
-/

namespace LiveTemplate

variable {σ : Type}

namespace Engine

/-! ## What a run does itself -/

/-- What a run does itself: its trace without what is done within recomputations. -/
def ownTrace (fuel : Nat) (routine : Routine σ) (s : Store σ) : List (Act σ) :=
  runTraceWith (recompute fuel) (fun _ _ => []) routine s

/-- The notifications and recomputations that a run starts itself: its chronicle without what is
within recomputations. -/
def ownMarks (fuel : Nat) (routine : Routine σ) (s : Store σ) : List Mark :=
  runMarksWith (recompute fuel) (fun _ _ => []) routine s

variable {recompute : SubscriberId → ReactiveSession σ Value}
  {trace : SubscriberId → Store σ → List (Act σ)} {inside : SubscriberId → Store σ → List Mark}

theorem failFastTrace_own (subscribers : List SubscriberId) (s : Store σ) :
    failFastTrace recompute (fun _ _ => []) subscribers s = [] := by
  induction subscribers generalizing s with
  | nil => rfl
  | cons subscriber rest ih =>
      unfold failFastTrace traceBehind
      split
      · next outcome t _ =>
          cases outcome with
          | ok value => exact ih t
          | error e => rfl
      · rfl

theorem isolatedTrace_own (subscribers : List SubscriberId) (s : Store σ) :
    isolatedTrace recompute (fun _ _ => []) subscribers s = [] := by
  induction subscribers generalizing s with
  | nil => rfl
  | cons subscriber rest ih =>
      unfold isolatedTrace traceBehind
      split
      · next outcome t _ =>
          cases outcome with
          | ok value => exact ih t
          | error e => exact ih _
      · rfl

theorem notifyTrace_own (field : FieldId) (s : Store σ) :
    notifyTrace recompute (fun _ _ => []) field s = [] := by
  unfold notifyTrace
  split
  · rfl
  · split
    · exact failFastTrace_own _ _
    · exact isolatedTrace_own _ _

theorem runTraceWith_setField (field : FieldId) (value : Value) (s : Store σ) :
    runTraceWith recompute trace (.setField field value) s =
      .wrote field value :: notifyTrace recompute trace field (s.assign field value) := by
  have hlast : traceBehind (set recompute field value)
      (fun outcome => runTraceWith recompute trace (.ofExcept outcome)) s = [] := by
    unfold traceBehind
    split
    · next outcome t _ => cases outcome <;> rfl
    · rfl
  rw [Routine.setField, runTraceWith, hlast, List.append_nil]

/-- A write by key looks for the field, maybe with a report before, and writes it. -/
theorem mem_runTraceWith_write_over {forwarded : Option (List String)} {object : ObjectId}
    {key : String} {value : Value} {s : Store σ} {act : Act σ}
    (h : act ∈ runTraceWith recompute trace ((Source.over forwarded object).write key value) s) :
    (∃ event answer, act = .performed (.report event) answer) ∨
      (∃ answer, act = .performed (.field object key) answer) ∨
      ∃ field, s.field? object key = some field ∧
        act ∈ runTraceWith recompute trace (.setField field value) (heard forwarded key s) := by
  have hwrite {t : Store σ} (ht : t.field? object key = s.field? object key)
      (h : act ∈ runTraceWith recompute trace ((Source.ofObject object).write key value) t) :
      (∃ answer, act = .performed (.field object key) answer) ∨
        ∃ field, s.field? object key = some field ∧
          act ∈ runTraceWith recompute trace (.setField field value) t := by
    rw [← ht]
    simp only [Source.ofObject, Source.withField, runTraceWith, Store.perform] at h
    rcases List.mem_cons.1 h with hlook | hwritten
    · exact .inl ⟨_, hlook⟩
    · cases hfield : t.field? object key with
      | none =>
          rw [hfield] at hwritten
          exact absurd hwritten List.not_mem_nil
      | some field =>
          rw [hfield] at hwritten
          exact .inr ⟨field, rfl, hwritten⟩
  rcases write_over_cases forwarded object key value s with ⟨hrun, hheard⟩ | ⟨hrun, hheard⟩
  · rw [hrun] at h
    rw [hheard]
    exact .inr (hwrite rfl h)
  · rw [hrun] at h
    rw [hheard]
    rcases List.mem_cons.1 h with hreport | hbehind
    · exact .inl ⟨_, _, hreport⟩
    · exact .inr (hwrite rfl hbehind)

theorem mem_recomputationMarks_own {byHand : Bool} {subscriber : SubscriberId} {s : Store σ}
    {mark : Mark} (h : mark ∈ recomputationMarks recompute (fun _ _ => []) byHand subscriber s) :
    mark = .began byHand subscriber ∨ ∃ outcome, mark = .ended byHand subscriber outcome := by
  unfold recomputationMarks marksBehind at h
  rw [List.cons_append, List.nil_append] at h
  rcases List.mem_cons.1 h with hbegan | hended
  · exact .inl hbegan
  · split at hended
    · exact .inr ⟨_, List.mem_singleton.1 hended⟩
    · exact absurd hended List.not_mem_nil

/-- A mark of a recomputation by a notification that has found the subscribers. -/
def ServesOneOf (subscribers : List SubscriberId) (mark : Mark) : Prop :=
  ∃ subscriber ∈ subscribers,
    mark = .began false subscriber ∨ ∃ outcome, mark = .ended false subscriber outcome

theorem mem_failFastMarks_own {subscribers : List SubscriberId} {s : Store σ} {mark : Mark}
    (h : mark ∈ failFastMarks recompute (fun _ _ => []) subscribers s) :
    ServesOneOf subscribers mark := by
  induction subscribers generalizing s with
  | nil => exact absurd h List.not_mem_nil
  | cons subscriber rest ih =>
      unfold failFastMarks at h
      rcases List.mem_append.1 h with hfirst | hbehind
      · exact ⟨subscriber, List.mem_cons_self, mem_recomputationMarks_own hfirst⟩
      · unfold marksBehind at hbehind
        split at hbehind
        · next outcome t _ =>
            cases outcome with
            | ok value =>
                obtain ⟨other, hother, hmark⟩ := ih hbehind
                exact ⟨other, List.mem_cons_of_mem _ hother, hmark⟩
            | error e => exact absurd hbehind List.not_mem_nil
        · exact absurd hbehind List.not_mem_nil

theorem mem_isolatedMarks_own {subscribers : List SubscriberId} {s : Store σ} {mark : Mark}
    (h : mark ∈ isolatedMarks recompute (fun _ _ => []) subscribers s) :
    ServesOneOf subscribers mark := by
  induction subscribers generalizing s with
  | nil => exact absurd h List.not_mem_nil
  | cons subscriber rest ih =>
      have hrest {t : Store σ} (h : mark ∈ isolatedMarks recompute (fun _ _ => []) rest t) :
          ServesOneOf (subscriber :: rest) mark := by
        obtain ⟨other, hother, hmark⟩ := ih h
        exact ⟨other, List.mem_cons_of_mem _ hother, hmark⟩
      unfold isolatedMarks at h
      rcases List.mem_append.1 h with hfirst | hbehind
      · exact ⟨subscriber, List.mem_cons_self, mem_recomputationMarks_own hfirst⟩
      · unfold marksBehind at hbehind
        split at hbehind
        · next outcome t _ => cases outcome <;> exact hrest hbehind
        · exact absurd hbehind List.not_mem_nil

/-- A notification marks itself, and recomputations of those that it has found. -/
theorem mem_notifyMarks_own {field : FieldId} {s : Store σ} {mark : Mark}
    (h : mark ∈ notifyMarks recompute (fun _ _ => []) field s) :
    (∃ policy registrations, mark = .opened field policy registrations) ∨
      ServesOneOf (s.registrations field) mark ∨ ∃ registrations, mark = .closed registrations := by
  unfold notifyMarks at h
  split at h
  · exact absurd h List.not_mem_nil
  · next cell hcell =>
      rw [Store.registrations_of_getElem? hcell]
      rcases List.mem_append.1 h with hserved | hclosed
      · rcases List.mem_cons.1 hserved with hopened | hwithin
        · exact .inl ⟨_, _, hopened⟩
        · refine .inr (.inl ?_)
          split at hwithin
          · exact mem_failFastMarks_own hwithin
          · exact mem_isolatedMarks_own hwithin
      · unfold marksBehind at hclosed
        split at hclosed
        · exact .inr (.inr ⟨_, List.mem_singleton.1 hclosed⟩)
        · exact absurd hclosed List.not_mem_nil

/-- A write by key leaves the marks of the notification, or of its failure. -/
theorem mem_runMarksWith_write_over {forwarded : Option (List String)} {object : ObjectId}
    {key : String} {value : Value} {s : Store σ} {mark : Mark}
    (h : mark ∈ runMarksWith recompute inside ((Source.over forwarded object).write key value) s) :
    (∃ error, mark = .raised error) ∨ ∃ field, s.field? object key = some field ∧
      mark ∈ notifyMarks recompute inside field ((heard forwarded key s).assign field value) := by
  have hwrite {t : Store σ} (ht : t.field? object key = s.field? object key)
      (h : mark ∈ runMarksWith recompute inside ((Source.ofObject object).write key value) t) :
      (∃ error, mark = .raised error) ∨ ∃ field, s.field? object key = some field ∧
        mark ∈ notifyMarks recompute inside field (t.assign field value) := by
    rw [← ht]
    simp only [Source.ofObject, Source.withField, runMarksWith, Store.perform] at h
    cases hfield : t.field? object key with
    | none =>
        rw [hfield] at h
        exact .inl ⟨_, List.mem_singleton.1 h⟩
    | some field =>
        simp only [hfield, runMarksWith_setField] at h
        exact .inr ⟨field, rfl, h⟩
  rcases write_over_cases forwarded object key value s with ⟨hrun, hheard⟩ | ⟨hrun, hheard⟩
  · rw [hrun] at h
    rw [hheard]
    exact hwrite rfl h
  · rw [hrun] at h
    rw [hheard]
    exact hwrite rfl h

end Engine

/-! ## What is seen through a field -/

namespace Store

/-- The field is there and holds the value. -/
def Holds (field : FieldId) (value : Value) (s : Store σ) : Prop :=
  ∃ cell, s.fields[field]? = some cell ∧ cell.value = value

/-- No operation but a write changes what a field holds. -/
theorem Holds.progress (field : FieldId) (value : Value) :
    RequestProgress fun s t : Store σ => s.Holds field value → t.Holds field value where
  refl _ h := h
  trans hst htu h := htu (hst h)
  record _ _ h := h
  newObject _ _ h := h
  newArray _ _ h := h
  define s object key other h := by
    obtain ⟨cell, hcell, hvalue⟩ := h
    refine ⟨cell, ?_, hvalue⟩
    rw [getElem?_fields_define s object key other (Array.getElem?_eq_some_iff.1 hcell).1]
    exact hcell
  register s other subscriber h := by
    obtain ⟨cell, hcell, hvalue⟩ := h
    obtain ⟨later, hlater, hsame, -⟩ := register_field s other subscriber hcell
    exact ⟨later, hlater, hsame.trans hvalue⟩
  edit _ _ h := h
  share _ _ h := h

theorem Holds.assign {s : Store σ} {field other : FieldId} {value : Value} (h : s.Holds field value)
    (hother : other ≠ field) (written : Value) : (s.assign other written).Holds field value := by
  obtain ⟨cell, hcell, hvalue⟩ := h
  obtain ⟨later, hlater, -, -, hsame⟩ := assign_field s other written hcell
  exact ⟨later, hlater, (hsame hother).trans hvalue⟩

theorem Holds.peek_eq {s : Store σ} {field : FieldId} {value : Value} (h : s.Holds field value) :
    s.peek field = value := by
  obtain ⟨cell, hcell, hvalue⟩ := h
  exact (peek_of_getElem? hcell).trans hvalue

theorem holds_peek {s : Store σ} {field : FieldId} (h : field < s.fields.size) :
    s.Holds field (s.peek field) :=
  ⟨_, Array.getElem?_eq_getElem h, (peek_of_getElem? (Array.getElem?_eq_getElem h)).symm⟩

end Store

namespace Engine

/-- What a field holds changes only where the field is written. -/
theorem Spared.holds (field : FieldId) (value : Value) :
    Spared (fun s t : Store σ => s.Holds field value → t.Holds field value)
      fun act => ∀ written, act ≠ .wrote field written where
  refl _ h := h
  trans hst htu h := htu (hst h)
  record _ _ h := h
  collecting _ hrun h := hrun h
  perform s r _ := (Store.Holds.progress field value).perform s r
  assign _ _ written hother h := h.assign (fun heq => hother written (heq ▸ rfl)) written
  push _ _ h := h

end Engine

/-! ## What is seen through a slot -/

namespace Store

/-- The object is there and has the field under the key, or none. -/
structure Leads (object : ObjectId) (key : String) (slot : Option FieldId) (s : Store σ) :
    Prop where
  there : object < s.objects.size
  slot : s.field? object key = slot

variable {object : ObjectId} {key : String} {slot : Option FieldId} {s t : Store σ}

theorem Leads.of_objects (h : s.Leads object key slot) (hobjects : t.objects = s.objects) :
    t.Leads object key slot :=
  ⟨hobjects ▸ h.there, (field?_congr hobjects object key).trans h.slot⟩

theorem Leads.define (h : s.Leads object key slot) {other : ObjectId} {key' : String}
    (hother : other = object → key' ≠ key) (value : Value) :
    (s.define other key' value).1.Leads object key slot where
  there := by
    rw [show (s.define other key' value).1.objects.size = s.objects.size from Array.size_modify]
    exact h.there
  slot := (field?_define_of_ne s value hother).trans h.slot

theorem Leads.observe (h : s.Leads object key slot) (policy : NotifyPolicy) (json : Json) :
    (s.observe policy json).1.Leads object key slot :=
  have hextended := Extended.observe policy s json
  ⟨Nat.lt_of_lt_of_le h.there hextended.size_objects,
    (hextended.field? h.there key).trans h.slot⟩

end Store

namespace Engine

/-- What a slot leads to changes only where the key is defined. -/
theorem Spared.leads (object : ObjectId) (key : String) (slot : Option FieldId) :
    Spared (fun s t : Store σ => s.Leads object key slot → t.Leads object key slot)
      fun act => ∀ value answer, act ≠ .performed (.define object key value) answer where
  refl _ h := h
  trans hst htu h := htu (hst h)
  record _ _ h := h.of_objects rfl
  collecting _ hrun h := (hrun (h.of_objects rfl)).of_objects rfl
  perform s r hr h := by
    cases r with
    | define other key' value =>
        refine h.define (fun hobject hkey => ?_) value
        subst hobject hkey
        exact hr value _ rfl
    | observe json policy => exact h.observe policy json
    | get field =>
        refine h.of_objects ?_
        simp only [Store.perform, Store.get, Store.track]
        split <;> rfl
    | _ => exact h.of_objects rfl
  assign s field value _ h := h.of_objects (Store.assign_objects s field value)
  push _ _ h := h.of_objects rfl

variable {s t : Store σ} {fuel : Nat} {routine : Routine σ} {outcome : Except ReactiveError Value}

/-- A run leaves what a field holds, or writes the field. -/
theorem peek_eq_or_wrote {field : FieldId} (hfield : field < s.fields.size)
    (hrun : run fuel routine s = some (outcome, t)) :
    t.peek field = s.peek field ∨ ∃ value, .wrote field value ∈ runTrace fuel routine s := by
  by_cases hwrote : ∃ value, .wrote field value ∈ runTrace fuel routine s
  · exact .inr hwrote
  · have hholds := run_explains (Spared.holds field (s.peek field)) hrun
      (fun act hact value heq => hwrote ⟨value, heq ▸ hact⟩) (Store.holds_peek hfield)
    exact .inl hholds.peek_eq

/-- A run leaves what an object has under a key, or writes the field there, or defines the key. -/
theorem valueOf?_eq_or_changed (hslotted : s.Slotted) {object : ObjectId}
    (hobject : object < s.objects.size) (key : String)
    (hrun : run fuel routine s = some (outcome, t)) :
    t.valueOf? object key = s.valueOf? object key ∨
      (∃ field value, s.field? object key = some field ∧
        .wrote field value ∈ runTrace fuel routine s) ∨
      ∃ value answer, .performed (.define object key value) answer ∈ runTrace fuel routine s := by
  by_cases hdefined : ∃ value answer, .performed (.define object key value) answer ∈
      runTrace fuel routine s
  · exact .inr (.inr hdefined)
  · have hleads : t.Leads object key (s.field? object key) := by
      refine run_explains (Spared.leads object key _) hrun ?_ ⟨hobject, rfl⟩
      exact fun act hact value answer heq => hdefined ⟨value, answer, heq ▸ hact⟩
    unfold Store.valueOf?
    rw [hleads.slot]
    cases hfield : s.field? object key with
    | none => exact .inl rfl
    | some field =>
        obtain ⟨cell, hcell, -⟩ := hslotted.key hfield
        rcases peek_eq_or_wrote (Array.getElem?_eq_some_iff.1 hcell).1 hrun with
          hsame | ⟨value, hwrote⟩
        · exact .inl (congrArg some hsame)
        · exact .inr (.inl ⟨field, value, rfl, hwrote⟩)

end Engine

/-! ## Detached fields -/

/-- The field is there, and no slot leads to it. -/
structure Store.Detached (s : Store σ) (field : FieldId) : Prop where
  there : field < s.fields.size
  nowhere : ∀ object key, s.field? object key ≠ some field

namespace Store.Detached

variable {s t : Store σ} {old : FieldId}

/-- Slots take new fields only. -/
theorem of_renewed (h : s.Detached old) (hst : s.Renewed t) : t.Detached old where
  there := Nat.lt_of_lt_of_le h.there hst.size_fields
  nowhere object key hfield := h.nowhere object key (hst.slot object key old hfield h.there)

/-- A definition under a key that is there detaches the field of the key. -/
theorem define (hslotted : s.Slotted) {object : ObjectId} {key : String}
    (hfield : s.field? object key = some old) (value : Value) :
    (s.define object key value).1.Detached old where
  there := by
    obtain ⟨cell, hcell, -⟩ := hslotted.key hfield
    rw [Store.size_fields_define]
    exact Nat.lt_succ_of_lt (Array.getElem?_eq_some_iff.1 hcell).1
  nowhere other key' hother := by
    obtain ⟨cell, hcell, -⟩ := hslotted.key hfield
    have hlt := (Array.getElem?_eq_some_iff.1 hcell).1
    rw [Store.field?_define] at hother
    split at hother
    · exact absurd (Option.some.inj hother) (Nat.ne_of_gt hlt)
    · next hslot =>
        obtain ⟨rfl, rfl⟩ := hslotted.apart hfield hother
        exact hslot ⟨rfl, rfl, Store.lt_of_field?_eq_some hfield⟩

end Store.Detached

namespace Engine

/-- The run writes the field, and recomputes subscribers that have only it, in callbacks at most. -/
structure PassesBy (old : FieldId) (fuel : Nat) (routine : Routine σ) (s t : Store σ) : Prop where
  not_written (value : Value) : .wrote old value ∉ ownTrace fuel routine s
  not_notified (policy : NotifyPolicy) (registrations : List SubscriberId) :
    .opened old policy registrations ∉ ownMarks fuel routine s
  not_recomputed (subscriber : SubscriberId)
    (honly : ∀ field, subscriber ∈ s.registrations field → field = old) (byHand : Bool) :
    .began byHand subscriber ∉ ownMarks fuel routine s
  /-- If the field has another value, then it has been written. -/
  peek : t.peek old = s.peek old ∨ ∃ value, .wrote old value ∈ runTrace fuel routine s
  /-- If a subscriber has been recomputed, then the field has been notified, or the subscriber has
  another field now, or it has been recomputed by hand. -/
  recomputed (subscriber : SubscriberId)
    (honly : ∀ field, subscriber ∈ t.registrations field → field = old) :
    .began false subscriber ∈ runMarks fuel routine s →
      ∃ policy registrations, .opened old policy registrations ∈ runMarks fuel routine s

/-- The run writes or defines what the object has under the key in callbacks at most. -/
structure LeavesSlot (object : ObjectId) (key : String) (fuel : Nat) (routine : Routine σ)
    (s t : Store σ) : Prop where
  not_written (field : FieldId) (hfield : s.field? object key = some field) (value : Value) :
    .wrote field value ∉ ownTrace fuel routine s
  not_defined (value : Value) (answer : FieldId) :
    .performed (.define object key value) answer ∉ ownTrace fuel routine s
  /-- If the object has another value there, then the field has been written or replaced. -/
  valueOf? : t.valueOf? object key = s.valueOf? object key ∨
    (∃ field value, s.field? object key = some field ∧
      .wrote field value ∈ runTrace fuel routine s) ∨
    ∃ value answer, .performed (.define object key value) answer ∈ runTrace fuel routine s

variable {s t : Store σ} {old : FieldId} {fuel : Nat} {outcome : Except ReactiveError Value}

/-- A write through an object passes a detached field by: the slot leads to another field, whose
subscribers are others. -/
theorem passesBy_of_detached (h : s.Detached old) {forwarded : Option (List String)}
    {object : ObjectId} {key : String} {value : Value}
    (hrun : run fuel ((Source.over forwarded object).write key value) s = some (outcome, t)) :
    PassesBy old fuel ((Source.over forwarded object).write key value) s t where
  not_written written hwrote := by
    rcases mem_runTraceWith_write_over hwrote with ⟨_, _, hact⟩ | ⟨_, hact⟩ | ⟨field, hfield, hact⟩
    · cases hact
    · cases hact
    · rw [runTraceWith_setField, notifyTrace_own, List.mem_singleton] at hact
      obtain ⟨rfl, -⟩ := Act.wrote.inj hact
      exact h.nowhere object key hfield
  not_notified policy registrations hopened := by
    rcases mem_runMarksWith_write_over hopened with ⟨_, hmark⟩ | ⟨field, hfield, hmark⟩
    · cases hmark
    · rcases mem_notifyMarks_own hmark with ⟨_, _, hself⟩ | ⟨_, -, hserved⟩ | ⟨_, hclosed⟩
      · obtain ⟨rfl, -⟩ := Mark.opened.inj hself
        exact h.nowhere object key hfield
      · rcases hserved with hbegan | ⟨_, hended⟩
        · cases hbegan
        · cases hended
      · cases hclosed
  not_recomputed subscriber honly byHand hbegan := by
    rcases mem_runMarksWith_write_over hbegan with ⟨_, hmark⟩ | ⟨field, hfield, hmark⟩
    · cases hmark
    · rcases mem_notifyMarks_own hmark with
        ⟨_, _, hopened⟩ | ⟨other, hother, hserved⟩ | ⟨_, hclosed⟩
      · cases hopened
      · have hsame : other = subscriber := by
          rcases hserved with hbegan | ⟨_, hended⟩
          · exact (Mark.began.inj hbegan).2.symm
          · cases hended
        have hregistered : subscriber ∈ s.registrations field := by
          rw [Store.registrations_assign, hsame] at hother
          simpa only [Store.registrations, heard_fields] using hother
        exact h.nowhere object key (honly field hregistered ▸ hfield)
      · cases hclosed
  peek := peek_eq_or_wrote h.there hrun
  recomputed subscriber honly hbegan := by
    obtain ⟨field, policy, registrations, hopened, hmem, hsubset⟩ :=
      (run_heralded fuel _).called s outcome t hrun subscriber hbegan
    obtain rfl := honly field (hsubset hmem)
    exact ⟨policy, registrations, hopened⟩

/-- A write of a detached field leaves what objects have under their keys. -/
theorem leavesSlot_of_detached (h : s.Detached old) (hslotted : s.Slotted) {object : ObjectId}
    (hobject : object < s.objects.size) (key : String) {value : Value}
    (hrun : run fuel (.setField old value) s = some (outcome, t)) :
    LeavesSlot object key fuel (.setField old value) s t where
  not_written field hfield written hwrote := by
    unfold ownTrace at hwrote
    rw [runTraceWith_setField, notifyTrace_own, List.mem_singleton] at hwrote
    obtain ⟨rfl, -⟩ := Act.wrote.inj hwrote
    exact h.nowhere object key hfield
  not_defined written answer hdefined := by
    unfold ownTrace at hdefined
    rw [runTraceWith_setField, notifyTrace_own, List.mem_singleton] at hdefined
    cases hdefined
  valueOf? := valueOf?_eq_or_changed hslotted hobject key hrun

/-- Whatever operations follow, the field stays detached.  Writes through objects pass it by then,
and writes of it leave what objects have under their keys. -/
def DetachedForGood (s : Store σ) (old : FieldId) : Prop :=
  ∀ limit later t, (∀ operation ∈ later, operation.Composed) →
    Operation.performAll limit later s = some t →
      t.Detached old ∧
      (∀ fuel forwarded object key value outcome u,
        run fuel ((Source.over forwarded object).write key value) t = some (outcome, u) →
          PassesBy old fuel ((Source.over forwarded object).write key value) t u) ∧
      ∀ fuel object key value outcome u, object < t.objects.size →
        run fuel (.setField old value) t = some (outcome, u) →
          LeavesSlot object key fuel (.setField old value) t u

theorem forGood_of_detached (h : s.Detached old) {history : List Definition}
    (hhistory : s.HasHistory history) : DetachedForGood s old := by
  intro limit later t hlater hrun
  have hdetached := h.of_renewed (Operation.performAll_keeps Store.Renewed.progress hlater hrun)
  obtain ⟨_, hhistory'⟩ :=
    Operation.performAll_keeps Store.HasHistory.progress hlater hrun history hhistory
  exact ⟨hdetached, fun _ _ _ _ _ _ _ hwrite => passesBy_of_detached hdetached hwrite,
    fun _ _ key _ _ _ hobject hset =>
      leavesSlot_of_detached hdetached hhistory'.slotted hobject key hset⟩

/-- In every state that operations reach from nothing, the keys of each object are those that were
defined in it, in the order of their first definitions; a later definition comes last in the
history, and operations only add to it.  Each field has the key of its slot, and different slots
have different fields, each with a dependency of its own.  If a key is defined once more, its new
field has no subscribers, and the old one is left as it is and detached for good; and so is every
field without a slot, wherever it lost it. -/
theorem redefinition_detaches {init : σ} {limit : Nat} {operations : List (Operation σ)}
    {s : Store σ} (hoperations : ∀ operation ∈ operations, operation.Composed)
    (hreached : Operation.performAll limit operations { shared := init } = some s) :
    (∃ history, s.HasHistory history ∧
      (∀ object, Table.keys (s.fieldsOf object) =
        ((definitionsIn history object).map Prod.fst).eraseDups) ∧
      (∀ object key value, object < s.objects.size →
        (s.define object key value).1.HasHistory (history ++ [⟨some object, key⟩])) ∧
      ∀ limit' later t, (∀ operation ∈ later, operation.Composed) →
        Operation.performAll limit' later s = some t →
          ∃ more, t.HasHistory (history ++ more)) ∧
    s.Slotted ∧
    (∀ object key old value, s.field? object key = some old →
      (s.define object key value).1.field? object key = some s.fields.size ∧
      (s.define object key value).1.registrations s.fields.size = [] ∧
      (s.define object key value).1.fields[old]? = s.fields[old]? ∧
      DetachedForGood (s.define object key value).1 old) ∧
    ∀ old, s.Detached old → DetachedForGood s old := by
  obtain ⟨history, hhistory⟩ := Operation.performAll_keeps Store.HasHistory.progress hoperations
    hreached [] (.empty rfl rfl)
  rw [List.nil_append] at hhistory
  refine ⟨⟨history, hhistory, hhistory.keys_fieldsOf, ?_, ?_⟩, hhistory.slotted, ?_, ?_⟩
  · intro object key value hobject
    have hdefined := hhistory.define object key value
    rw [if_pos hobject] at hdefined
    exact hdefined
  · intro limit' later t hlater hrun
    exact Operation.performAll_keeps Store.HasHistory.progress hlater hrun history hhistory
  · intro object key old value hfield
    obtain ⟨cell, hcell, -⟩ := hhistory.slotted.key hfield
    have hdetached := Store.Detached.define hhistory.slotted hfield value
    refine ⟨?_, ?_, ?_, forGood_of_detached hdetached (hhistory.define object key value)⟩
    · rw [Store.field?_define, if_pos ⟨rfl, rfl, Store.lt_of_field?_eq_some hfield⟩]
    · rw [Store.registrations_progress.define s object key value]
      exact Store.registrations_of_size_le (Nat.le_refl _)
    · exact Store.getElem?_fields_define s object key value
        (Array.getElem?_eq_some_iff.1 hcell).1
  · exact fun old hdetached => forGood_of_detached hdetached hhistory

/-- A watched key, and another one. -/
def watchedKey : List (Operation Unit) :=
  [.observe (.object [("kept", .null), ("other", .bool true)]) .failFast,
    .watch (.ofObject 0) "kept" fun _ => .log "seen"]

/-- The watched key is defined once more and written.  The subscriber of its old field is not
recomputed, and the old field keeps its value. -/
theorem redefinition_detaches_watchedKey :
    ∃ s t u outcome, Operation.performAll 1 watchedKey { shared := () } = some s ∧
      s.field? 0 "kept" = some 0 ∧ s.registrations 0 = [0] ∧
      t = (s.define 0 "kept" (.bool false)).1 ∧ t.registrations 2 = [] ∧
      run 1 ((Source.ofObject 0).write "kept" (.string "new")) t = some (outcome, u) ∧
      PassesBy 0 1 ((Source.ofObject 0).write "kept" (.string "new")) t u := by
  have hall : (Operation.performAll 1 watchedKey { shared := () }).bind (fun s =>
      (run 1 ((Source.over none 0).write "kept" (.string "new"))
        (s.define 0 "kept" (.bool false)).1).map fun _ =>
          decide (s.field? 0 "kept" = some 0 ∧ s.registrations 0 = [0] ∧ s.fields.size = 2)) =
        some true := by decide +kernel
  obtain ⟨s, hreached, hwritten⟩ := Option.bind_eq_some_iff.1 hall
  obtain ⟨⟨outcome, u⟩, hrun, hs⟩ := Option.map_eq_some_iff.1 hwritten
  obtain ⟨hfield, hregistrations, hsize⟩ := of_decide_eq_true hs
  have hcomposed : ∀ operation ∈ watchedKey, operation.Composed := by
    intro operation hoperation
    rcases List.mem_cons.1 hoperation with rfl | hoperation
    · trivial
    · rw [List.mem_singleton.1 hoperation]
      trivial
  obtain ⟨-, -, hredefined, -⟩ := redefinition_detaches hcomposed hreached
  obtain ⟨-, hempty, -, hforGood⟩ := hredefined 0 "kept" 0 (.bool false) hfield
  rw [hsize] at hempty
  obtain ⟨-, hpasses, -⟩ := hforGood 0 [] _ (fun _ h => absurd h List.not_mem_nil) rfl
  exact ⟨s, _, u, outcome, hreached, hfield, hregistrations, rfl, hempty, hrun,
    hpasses _ _ _ _ _ _ _ hrun⟩

end Engine

end LiveTemplate
