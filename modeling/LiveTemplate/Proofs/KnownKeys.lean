import LiveTemplate.Proofs.Interface
import LiveTemplate.Proofs.Reactive.Chronicle
import LiveTemplate.Proofs.Reactive.Steps
import LiveTemplate.Proofs.Template.Places

/-!
# Known keys

An object knows a key from the first definition on, and for good, since nothing takes a field out of
a table.  Until then a read, a write and a construction fail at the lookup, before they have done
anything: the construction has let its subscriber collect by then, and puts back who was collecting
before.
-/

namespace LiveTemplate

variable {σ : Type}

/-- The same values and registrations, the same objects, nodes and shared state, and the same
subscriber is collecting. -/
structure Store.SameState (s t : Store σ) : Prop where
  fields : t.fields = s.fields
  objects : t.objects = s.objects
  dom : t.dom = s.dom
  active : t.active = s.active
  shared : t.shared = s.shared

theorem Store.subscribe_shared (s : Store σ) (cell : Subscriber σ) :
    (s.subscribe cell).shared = s.shared := by
  unfold subscribe
  simp only
  split <;> rfl

namespace Engine

variable {forwarded : Option (List String)} {object : ObjectId} {key : String} {s : Store σ}

theorem sameState_heard (forwarded : Option (List String)) (key : String) (s : Store σ) :
    s.SameState (heard forwarded key s) :=
  heard_induct (motive := fun t => s.SameState t) ⟨rfl, rfl, rfl, rfl, rfl⟩
    ⟨rfl, rfl, rfl, rfl, rfl⟩

/-! ## Unknown keys -/

/-- The routine fails, at every depth, before it has changed anything or recomputed anybody. -/
def FailsCleanly (routine : Routine σ) (s : Store σ) (error : ReactiveError) : Prop :=
  ∀ limit, ∃ t, run limit routine s = some (.error error, t) ∧ s.SameState t ∧
    runMarks limit routine s = [.raised error]

section

variable (recompute : SubscriberId → ReactiveSession σ Value)
  (inside : SubscriberId → Store σ → List Mark)

/-- The failure of a lookup is all there is. -/
theorem runMarksWith_withField_of_none (hfield : s.field? object key = none)
    (use : FieldId → Routine σ) :
    runMarksWith recompute inside (Source.withField object key use) s =
      [.raised (.unknownProperty key)] := by
  simp only [Source.withField, runMarksWith, Store.perform]
  rw [hfield]
  rfl

theorem runMarksWith_missed_of_none (hfield : s.field? object key = none) (keys : List String)
    (use : FieldId → Routine σ) :
    runMarksWith recompute inside
        ((Source.reportMiss keys key).andThen (Source.withField object key use)) s =
      [.raised (.unknownProperty key)] := by
  unfold Source.reportMiss
  split
  · exact runMarksWith_withField_of_none recompute inside hfield use
  · have hreported : (s.report (.forwardMiss key)).field? object key = none := hfield
    exact runMarksWith_withField_of_none recompute inside hreported use

theorem runMarksWith_read_over_of_none (hfield : s.field? object key = none) :
    runMarksWith recompute inside ((Source.over forwarded object).read key) s =
      [.raised (.unknownProperty key)] := by
  cases forwarded with
  | none => exact runMarksWith_withField_of_none recompute inside hfield _
  | some keys => exact runMarksWith_missed_of_none recompute inside hfield keys _

theorem runMarksWith_write_over_of_none (hfield : s.field? object key = none) (value : Value) :
    runMarksWith recompute inside ((Source.over forwarded object).write key value) s =
      [.raised (.unknownProperty key)] := by
  cases forwarded with
  | none => exact runMarksWith_withField_of_none recompute inside hfield _
  | some keys => exact runMarksWith_missed_of_none recompute inside hfield keys _

end

theorem failsCleanly_read (hfield : s.field? object key = none) :
    FailsCleanly ((Source.over forwarded object).read key) s (.unknownProperty key) := by
  intro limit
  have hread : run limit ((Source.over forwarded object).read key) s = _ :=
    runWith_read_over forwarded object key s
  rw [hfield] at hread
  exact ⟨_, hread, sameState_heard forwarded key s,
    runMarksWith_read_over_of_none _ (recomputeMarks limit) hfield⟩

theorem failsCleanly_write (hfield : s.field? object key = none) (value : Value) :
    FailsCleanly ((Source.over forwarded object).write key value) s (.unknownProperty key) :=
  fun limit => ⟨_, runWith_write_over_of_none forwarded hfield value,
    sameState_heard forwarded key s,
    runMarksWith_write_over_of_none _ (recomputeMarks limit) hfield value⟩

/-- By the time its read fails, a construction has taken the slot.  It gives it back. -/
theorem construct_of_none (hfield : s.field? object key = none)
    (recompute : SubscriberId → ReactiveSession σ Value) (callback : Value → Routine σ) :
    ∃ t, construct (.over forwarded object) key callback
        (runWith recompute ((Source.over forwarded object).read key)) s =
      some (.error (.unknownProperty key), t) ∧ s.SameState t := by
  let cell : Subscriber σ := ⟨key, .over forwarded object, callback⟩
  let collecting := (s.subscribe cell).withActive (some s.subscribers.size)
  have hcollecting : collecting.field? object key = none :=
    (Store.field?_congr (s.subscribe_objects cell) object key).trans hfield
  have hread : runWith recompute ((Source.over forwarded object).read key) collecting = _ :=
    runWith_read_over forwarded object key collecting
  rw [hcollecting] at hread
  refine ⟨_, construct_eq_some.2 ⟨_, _, hread, .inr ⟨_, rfl, rfl, rfl⟩⟩, ?_⟩
  have hheard := sameState_heard forwarded key collecting
  exact ⟨hheard.fields.trans (s.subscribe_fields cell),
    hheard.objects.trans (s.subscribe_objects cell), hheard.dom.trans (s.subscribe_dom cell), rfl,
    hheard.shared.trans (s.subscribe_shared cell)⟩

theorem failsCleanly_watch (hfield : s.field? object key = none) (callback : Value → Routine σ)
    (next : SubscriberId → Routine σ) :
    FailsCleanly ((Source.over forwarded object).watch key callback next) s
      (.unknownProperty key) := by
  intro limit
  obtain ⟨t, hconstruct, hsame⟩ := construct_of_none hfield (recompute limit) callback
  refine ⟨t, Session.followedBy_eq_some.2 ⟨_, t, hconstruct, rfl⟩, hsame, ?_⟩
  let cell : Subscriber σ := ⟨key, .over forwarded object, callback⟩
  have hcollecting : ((s.subscribe cell).withActive (some s.subscribers.size)).field? object key =
      none :=
    (Store.field?_congr (s.subscribe_objects cell) object key).trans hfield
  rw [runMarks, Source.watch, runMarksWith, marksBehind_of_eq_some _ hconstruct,
    runMarksWith_read_over_of_none _ _ hcollecting]
  rfl

/-! ## Known keys -/

/-- Whoever looks the key up finds a field: a read has its value, a write goes to it, and a
subscriber on the key is constructed. -/
structure FindsKey (forwarded : Option (List String)) (object : ObjectId) (key : String)
    (field : FieldId) (s : Store σ) : Prop where
  read (limit : Nat) :
    ∃ t, run limit ((Source.over forwarded object).read key) s = some (.ok (s.peek field), t)
  write (limit : Nat) (value : Value) :
    run limit ((Source.over forwarded object).write key value) s =
      run limit (.setField field value) (heard forwarded key s)
  watch (limit : Nat) (callback : Value → Routine σ) :
    ∃ t, watch limit (.over forwarded object) key callback s = some (.ok s.subscribers.size, t)

theorem findsKey {field : FieldId} (hfield : s.field? object key = some field) :
    FindsKey forwarded object key field s where
  read limit := by
    obtain ⟨t, hread, -⟩ := run_read_over forwarded limit hfield
    exact ⟨t, hread⟩
  write limit value := runWith_write_over forwarded hfield value
  watch limit callback := by
    obtain ⟨t, hwatch, -⟩ := watch_over forwarded limit callback hfield
    exact ⟨t, hwatch⟩

/-- A subscriber that has been constructed on a key is there, and the object knows the key. -/
theorem watch_over_ok {limit : Nat} {callback : Value → Routine σ} {subscriber : SubscriberId}
    {t : Store σ}
    (hwatch : watch limit (.over forwarded object) key callback s = some (.ok subscriber, t)) :
    t.subscribers[subscriber]? = some ⟨key, .over forwarded object, callback⟩ ∧
      ∃ field, s.field? object key = some field := by
  cases hfield : s.field? object key with
  | none =>
      obtain ⟨u, hfails, -⟩ := construct_of_none hfield (recompute limit) callback
      cases hwatch.symm.trans hfails
  | some field =>
      obtain ⟨u, hmade, henrolled, -⟩ := watch_over forwarded limit callback hfield
      obtain ⟨hok, rfl⟩ := Prod.mk.inj (Option.some.inj (hwatch.symm.trans hmade))
      obtain rfl := Except.ok.inj hok
      refine ⟨?_, field, rfl⟩
      rw [← Array.getElem?_toList, henrolled.subscribers, ← Array.length_toList,
        List.getElem?_concat_length]

/-- Let primitive steps, those of any run, lead from a store without objects to another one.  An
object does not know a key there if and only if none of the steps has defined it: then reads, writes
and constructions fail, and nothing else comes of them.  No step takes a known key away, so later on
they find it, and a subscriber that has been constructed on a key never fails in its own read. -/
theorem known_iff_defined {dom : Dom} {init : σ} {made : List Definition} {s : Store σ}
    (hsteps : ({ dom, shared := init } : Store σ).Steps made s)
    (forwarded : Option (List String)) (object : ObjectId) (key : String) :
    (⟨some object, key⟩ ∉ made →
      FailsCleanly ((Source.over forwarded object).read key) s (.unknownProperty key) ∧
      (∀ value,
        FailsCleanly ((Source.over forwarded object).write key value) s (.unknownProperty key)) ∧
      ∀ callback next, FailsCleanly ((Source.over forwarded object).watch key callback next) s
        (.unknownProperty key)) ∧
    (⟨some object, key⟩ ∈ made → ∀ more t, s.Steps more t →
      ∃ field, t.field? object key = some field ∧ FindsKey forwarded object key field t) ∧
    (∀ limit callback subscriber t,
      watch limit (.over forwarded object) key callback s = some (.ok subscriber, t) →
        ∀ more u, t.Steps more u → ∃ cell, u.subscribers[subscriber]? = some cell ∧
          ∀ limit, ∃ value v, run limit (cell.source.read cell.key) u = some (.ok value, v)) ∧
    ∀ limit operations t, (∀ operation ∈ operations, operation.Composed) →
      Operation.performAll limit operations s = some t → ∃ more, s.Steps more t := by
  -- The definitions of the steps are the history of the store, and that tells which keys it has.
  have hhistory : s.HasHistory made := hsteps.hasHistory (.empty rfl rfl)
  have hfinds {more : List Definition} {t : Store σ} (hmore : s.Steps more t)
      (hmem : ⟨some object, key⟩ ∈ made) :
      ∃ field, t.field? object key = some field ∧ FindsKey forwarded object key field t := by
    obtain ⟨field, hfield⟩ :=
      (hmore.hasHistory hhistory).mem_iff.1 (List.mem_append_left more hmem)
    exact ⟨field, hfield, findsKey hfield⟩
  refine ⟨fun hnever => ?_, fun hmem more t hmore => hfinds hmore hmem, ?_, ?_⟩
  · have hfield : s.field? object key = none := by
      rw [← Option.not_isSome_iff_eq_none, Option.isSome_iff_exists, ← hhistory.mem_iff]
      exact hnever
    exact ⟨failsCleanly_read hfield, failsCleanly_write hfield, failsCleanly_watch hfield⟩
  · intro limit callback subscriber t hwatch more u hmore
    obtain ⟨hcell, hfield⟩ := watch_over_ok hwatch
    obtain ⟨between, hbetween⟩ := watch_keeps Store.Steps.progress limit _ key callback _ _ _ hwatch
    obtain ⟨field, -, hfound⟩ := hfinds (hbetween.trans hmore) (hhistory.mem_iff.2 hfield)
    refine ⟨_, Store.getElem?_subscribers_of_isPrefix hmore.subscribers_isPrefix hcell,
      fun limit => ?_⟩
    obtain ⟨v, hread⟩ := hfound.read limit
    exact ⟨_, v, hread⟩
  · exact fun limit operations t hoperations hrun =>
      Operation.performAll_keeps Store.Steps.progress hoperations hrun

/-- An object with one key. -/
def kept : Store Unit :=
  ((({ shared := () } : Store Unit).newObject .failFast).1.define 0 "kept" .null).1

theorem known_iff_defined_kept :
    ({ dom := {}, shared := () } : Store Unit).Steps [⟨some 0, "kept"⟩] kept ∧
    FailsCleanly ((Source.over (some ["kept"]) 0).read "lost") kept (.unknownProperty "lost") ∧
    ∃ field, kept.field? 0 "kept" = some field ∧ FindsKey (some ["kept"]) 0 "kept" field kept := by
  have hsteps : ({ dom := {}, shared := () } : Store Unit).Steps [⟨some 0, "kept"⟩] kept :=
    .tail (.tail .refl (.newObject _ .failFast)) (.define _ 0 "kept" .null)
  refine ⟨hsteps, ((known_iff_defined hsteps (some ["kept"]) 0 "lost").1 ?_).1,
    (known_iff_defined hsteps (some ["kept"]) 0 "kept").2.1 ?_ [] kept .refl⟩
  · intro hmem
    exact absurd (congrArg Definition.key (List.mem_singleton.1 hmem)) (by decide)
  · exact List.mem_singleton_self _

end Engine

end LiveTemplate
