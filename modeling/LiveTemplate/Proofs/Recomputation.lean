import LiveTemplate.Proofs.Reactive.Passive
import LiveTemplate.Proofs.Template.Places

/-!
# What a recomputation registers

A recomputation reads its key as a construction does, and the read registers whoever is collecting.
Between runs nobody is, and then a recomputation registers nobody.  But the source of a subscriber
under construction may write a field while it is read: then the subscriber that is collecting gets
registered with every field that the notification reads, though it has not read it itself.
-/

namespace LiveTemplate

variable {σ : Type}

/-- A subscriber that reads a key of an object, as it is or through a table of forwarded keys, and
does nothing with the value. -/
structure Subscriber.Idle (cell : Subscriber σ) (object : ObjectId) : Prop where
  source : ∃ forwarded, cell.source = .over forwarded object
  callback (value : Value) : cell.callback value = .nothing

theorem Subscriber.Idle.passive {cell : Subscriber σ} {object : ObjectId} (h : cell.Idle object) :
    cell.Passive := by
  obtain ⟨forwarded, hsource⟩ := h.source
  refine ⟨?_, fun value => ?_⟩
  · rw [hsource]
    exact Source.passive_read_over forwarded object cell.key
  · rw [h.callback value]
    trivial

namespace Store

/-- Each of the subscribers is idle. -/
def Idles (s : Store σ) (subscribers : List SubscriberId) : Prop :=
  ∀ subscriber ∈ subscribers, ∃ cell object,
    s.subscribers[subscriber]? = some cell ∧ cell.Idle object

/-- The registrations that a read of a key makes. -/
def readingOf (s : Store σ) (object : ObjectId) (key : String) : List Registration :=
  match s.field? object key with
  | some field => s.tracked field
  | none => []

/-- Whoever is collecting may have been registered with some fields, and nothing else is different
that a run is about. -/
def RegistersCollector (s t : Store σ) : Prop :=
  ∃ ledger, s.Enrolled t ledger [] ∧ ∀ entry ∈ ledger, s.active = some entry.2

variable {s t u : Store σ}

namespace RegistersCollector

theorem refl (s : Store σ) : s.RegistersCollector s :=
  ⟨[], .refl s, fun _ hentry => (nomatch hentry)⟩

theorem trans (hst : s.RegistersCollector t) (htu : t.RegistersCollector u) :
    s.RegistersCollector u := by
  obtain ⟨first, hfirst, hcollector⟩ := hst
  obtain ⟨second, hsecond, hcollector'⟩ := htu
  refine ⟨first ++ second, hfirst.trans hsecond, fun entry hentry => ?_⟩
  rcases List.mem_append.1 hentry with hmem | hmem
  · exact hcollector entry hmem
  · exact hfirst.active ▸ hcollector' entry hmem

theorem report (s : Store σ) (event : Event) : s.RegistersCollector (s.report event) :=
  ⟨[], .report s event, fun _ hentry => (nomatch hentry)⟩

theorem of_reading {object : ObjectId} {key : String}
    (h : s.Enrolled t (s.readingOf object key) []) : s.RegistersCollector t := by
  refine ⟨_, h, fun entry hentry => ?_⟩
  unfold readingOf at hentry
  split at hentry
  · obtain ⟨subscriber, hactive, rfl⟩ := List.mem_map.1 hentry
    exact Option.mem_toList.1 hactive
  · cases hentry

/-- Without a collector nobody is registered. -/
theorem registrations (h : s.RegistersCollector t) (hidle : s.active = none) (field : FieldId) :
    t.registrations field = s.registrations field := by
  obtain ⟨ledger, henrolled, hcollector⟩ := h
  obtain rfl : ledger = [] := List.eq_nil_iff_forall_not_mem.2 fun entry hentry =>
    Option.some_ne_none _ ((hcollector entry hentry).symm.trans hidle)
  exact henrolled.registrations_of_nil field

theorem idles (h : s.RegistersCollector t) {subscribers : List SubscriberId}
    (hidles : s.Idles subscribers) : t.Idles subscribers := by
  obtain ⟨ledger, henrolled, -⟩ := h
  intro subscriber hmem
  obtain ⟨cell, object, hcell, hidle⟩ := hidles subscriber hmem
  exact ⟨cell, object, henrolled.getElem?_subscribers hcell, hidle⟩

end RegistersCollector

end Store

namespace Engine

open Session

variable {s : Store σ}

/-- A recomputation of an idle subscriber ends, and registers whoever is collecting with the field
that it reads, once. -/
theorem endsAlone_of_idle {subscriber : SubscriberId} {cell : Subscriber σ} {object : ObjectId}
    (hcell : s.subscribers[subscriber]? = some cell) (hidle : cell.Idle object) :
    ∃ outcome t, EndsAlone subscriber s outcome t ∧
      s.Enrolled t (s.readingOf object cell.key) [] := by
  obtain ⟨outcome, t, hends, -⟩ := endsAlone_of_passive hcell hidle.passive
  refine ⟨outcome, t, hends, ?_⟩
  obtain ⟨forwarded, hsource⟩ := hidle.source
  -- The run that ends is known: it is the lookup, and the callback does nothing behind it.
  have hrun := hends.run 0
  rw [recompute_succ_of_some hcell, runWith_bind, hsource] at hrun
  unfold Store.readingOf
  cases hfield : s.field? object cell.key with
  | none =>
      have hread : run 0 ((Source.over forwarded object).read cell.key) s = _ :=
        runWith_read_over forwarded object cell.key s
      rw [hfield] at hread
      rcases bind_eq_some.1 hrun with ⟨value, u, hok, -⟩ | ⟨e, herror, -⟩
      · cases hread.symm.trans hok
      · obtain ⟨-, rfl⟩ := Prod.mk.inj (Option.some.inj (hread.symm.trans herror))
        exact enrolled_heard forwarded cell.key s
  | some field =>
      obtain ⟨u, hread, henrolled, -⟩ := run_read_over forwarded 0 hfield
      rcases bind_eq_some.1 hrun with ⟨value, v, hok, hlast⟩ | ⟨e, herror, -⟩
      · obtain ⟨-, rfl⟩ := Prod.mk.inj (Option.some.inj (hread.symm.trans hok))
        rw [hidle.callback value] at hlast
        obtain ⟨-, rfl⟩ := Prod.mk.inj (pure_eq_some.1 hlast)
        exact henrolled
      · cases hread.symm.trans herror

/-- A notification of idle subscribers registers nobody but whoever is collecting. -/
theorem notify_idle {field : FieldId} (hidles : s.Idles (s.registrations field)) :
    ∃ outcome t, s.RegistersCollector t ∧ ∀ fuel,
      notify (recompute (fuel + 1)) field s = some (outcome, t) := by
  cases hcell : s.fields[field]? with
  | none => exact ⟨.ok .null, s, .refl s, fun _ => notify_of_none hcell⟩
  | some cell =>
      rw [Store.registrations_of_getElem? hcell] at hidles
      obtain ⟨_, outcome, t, -, ht, hruns⟩ :=
        notify_carries (I := fun _ u => s.RegistersCollector u) hcell
          ⟨fun hu subscriber hmem => by
            obtain ⟨own, object, hown, hidle⟩ := hu.idles hidles subscriber hmem
            obtain ⟨outcome, v, hends, hreading⟩ := endsAlone_of_idle hown hidle
            exact ⟨outcome, v, hends, hu.trans (.of_reading hreading)⟩,
          fun hu event => hu.trans (.report _ event)⟩ (.refl s)
      exact ⟨outcome, t, ht, fun fuel => (hruns fuel).1⟩

/-- Whatever the slot holds, a recomputation of an idle subscriber registers the subscriber that is
collecting with the field that it reads, and nobody else with anything; a notification or a write
that reaches idle subscribers only registers nobody but that subscriber.  If nobody is collecting,
all registrations are as they were. -/
theorem recomputation_registers_collector (s : Store σ) :
    (∀ subscriber cell object, s.subscribers[subscriber]? = some cell → cell.Idle object →
      ∃ outcome t, (∀ limit, 0 < limit →
        run limit (.recompute subscriber .ofExcept) s = some (outcome, t)) ∧
        s.Enrolled t (s.readingOf object cell.key) [] ∧
        (s.active = none → ∀ other, t.registrations other = s.registrations other)) ∧
    (∀ field, s.Idles (s.registrations field) → ∃ outcome t, (∀ limit, 0 < limit →
        run limit (.notify field .ofExcept) s = some (outcome, t)) ∧ s.RegistersCollector t ∧
        (s.active = none → ∀ other, t.registrations other = s.registrations other)) ∧
    ∀ field value, s.Idles (s.registrations field) → ∃ outcome t, (∀ limit, 0 < limit →
        run limit (.setField field value) s = some (outcome, t)) ∧
        (s.assign field value).RegistersCollector t ∧
        (s.active = none → ∀ other, t.registrations other = s.registrations other) := by
  have hsucc {limit : Nat} (hlimit : 0 < limit) : ∃ fuel, limit = fuel + 1 :=
    Nat.exists_eq_succ_of_ne_zero (Nat.pos_iff_ne_zero.1 hlimit)
  refine ⟨fun subscriber cell object hcell hidle => ?_, fun field hidles => ?_,
    fun field value hidles => ?_⟩
  · obtain ⟨outcome, t, hends, hreading⟩ := endsAlone_of_idle hcell hidle
    refine ⟨outcome, t, fun limit hlimit => ?_, hreading,
      fun hactive => (Store.RegistersCollector.of_reading hreading).registrations hactive⟩
    obtain ⟨fuel, rfl⟩ := hsucc hlimit
    exact (congrFun (followedBy_ofExcept _) s).trans (hends.run fuel)
  · obtain ⟨outcome, t, ht, hruns⟩ := notify_idle hidles
    refine ⟨outcome, t, fun limit hlimit => ?_, ht, ht.registrations⟩
    obtain ⟨fuel, rfl⟩ := hsucc hlimit
    rw [run, runWith_notify]
    exact hruns fuel
  · have hassigned : (s.assign field value).Idles ((s.assign field value).registrations field) := by
      unfold Store.Idles
      rw [Store.registrations_assign, Store.assign_subscribers]
      exact hidles
    obtain ⟨outcome, t, ht, hruns⟩ := notify_idle hassigned
    refine ⟨outcome, t, fun limit hlimit => ?_, ht, fun hactive other => ?_⟩
    · obtain ⟨fuel, rfl⟩ := hsucc hlimit
      rw [run, runWith_setField]
      exact hruns fuel
    · rw [ht.registrations ((s.assign_active field value).trans hactive),
        Store.registrations_assign]

/-- Two keys, the first with an idle subscriber. -/
def listened : Store Unit :=
  (({ shared := () } : Store Unit).observe .failFast
    (.object [("heard", .null), ("read", .null)])).1.subscribe
      ⟨"heard", .ofObject 0, fun _ => .nothing⟩ |>.register 0 0

/-- A source that writes the first key before it reads. -/
def writing : Source Unit where
  read key :=
    ((Source.ofObject 0).write "heard" (.bool true)).andThen ((Source.ofObject 0).read key)
  write := (Source.ofObject 0).write

/-- A subscriber to the second key is under construction.  The write within its read recomputes the
idle subscriber of the first key, and that registers the new subscriber there. -/
theorem recomputation_registers_reader :
    listened.registrations 0 = [0] ∧ listened.Idles (listened.registrations 0) ∧
    ((watch 1 writing "read" (fun _ => .nothing) listened).map fun result =>
      (result.2.registrations 0, result.2.registrations 1)) = some ([0, 1], [1]) ∧
    ((run 1 (.recompute 0 .ofExcept) (listened.withActive (some 1))).map fun result =>
      result.2.registrations 0) = some [0, 1] := by
  refine ⟨rfl, fun subscriber hmem => ?_, rfl, rfl⟩
  obtain rfl := List.mem_singleton.1 hmem
  exact ⟨_, 0, rfl, ⟨none, rfl⟩, fun _ => rfl⟩

end Engine

end LiveTemplate
