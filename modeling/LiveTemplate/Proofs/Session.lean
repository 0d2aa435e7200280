import LiveTemplate.Reactive.Engine

/-!
# Taking sessions apart

A session that has an outcome got it from its parts.  The statements here say which parts, so that
nothing after them has to unfold how sessions are put together.
-/

namespace LiveTemplate.Session

variable {σ ε ε' α β : Type}

theorem pure_eq_some {a : α} {s : Store σ} {result : Except ε α × Store σ} :
    (pure a : Session σ ε α) s = some result ↔ (.ok a, s) = result :=
  Option.some_inj

theorem throw_eq_some {e : ε} {s : Store σ} {result : Except ε α × Store σ} :
    (throw e : Session σ ε α) s = some result ↔ (.error e, s) = result :=
  Option.some_inj

theorem pure_ok {a b : α} {s t : Store σ} :
    (pure a : Session σ ε α) s = some (.ok b, t) ↔ b = a ∧ t = s := by
  rw [pure_eq_some, Prod.mk.injEq, Except.ok.injEq]
  exact and_congr eq_comm eq_comm

/-! Looking, reporting and changing the store cannot fail, so what follows them always runs. -/

theorem inspect_bind (f : Store σ → α) (next : α → Session σ ε β) (s : Store σ) :
    (inspect f >>= next) s = next (f s) s := rfl

theorem report_bind (event : Event) (next : Unit → Session σ ε β) (s : Store σ) :
    (report event >>= next) s = next () (s.report event) := rfl

theorem operate_bind (f : Store σ → Store σ × α) (next : α → Session σ ε β) (s : Store σ) :
    (operate f >>= next) s = next (f s).2 (f s).1 := rfl

theorem followedBy_eq_some {session : Session σ ε α} {next : Except ε α → Session σ ε' β}
    {s : Store σ} {result : Except ε' β × Store σ} :
    session.followedBy next s = some result ↔
      ∃ outcome t, session s = some (outcome, t) ∧ next outcome t = some result := by
  unfold followedBy
  constructor
  · intro h
    cases hs : session s with
    | none => simp [hs] at h
    | some first =>
        obtain ⟨outcome, t⟩ := first
        simp only [hs] at h
        exact ⟨outcome, t, rfl, h⟩
  · rintro ⟨outcome, t, hs, ht⟩
    simp [hs, ht]

/-- Sequencing is going on behind a success and passing an error on. -/
theorem bind_eq_followedBy (session : Session σ ε α) (next : α → Session σ ε β) :
    session >>= next = session.followedBy fun
      | .ok a => next a
      | .error e => throw e := by
  funext s
  show (session s >>= fun first => ExceptT.bindCont next first.1 first.2) = _
  unfold followedBy
  cases hs : session s with
  | none => rfl
  | some first =>
      obtain ⟨outcome, t⟩ := first
      cases outcome <;> rfl

theorem bind_eq_some {session : Session σ ε α} {next : α → Session σ ε β}
    {s t : Store σ} {outcome : Except ε β} :
    (session >>= next) s = some (outcome, t) ↔
      (∃ a u, session s = some (.ok a, u) ∧ next a u = some (outcome, t)) ∨
        ∃ e, session s = some (.error e, t) ∧ outcome = .error e := by
  rw [bind_eq_followedBy, followedBy_eq_some]
  constructor
  · rintro ⟨first, u, hs, hu⟩
    cases first with
    | ok a => exact .inl ⟨a, u, hs, hu⟩
    | error e =>
        obtain ⟨rfl, rfl⟩ := Prod.mk.inj (throw_eq_some.1 hu)
        exact .inr ⟨e, hs, rfl⟩
  · rintro (⟨a, u, hs, hu⟩ | ⟨e, hs, rfl⟩)
    · exact ⟨.ok a, u, hs, hu⟩
    · exact ⟨.error e, t, hs, rfl⟩

theorem bind_ok {session : Session σ ε α} {next : α → Session σ ε β} {s t : Store σ} {b : β} :
    (session >>= next) s = some (.ok b, t) ↔
      ∃ a u, session s = some (.ok a, u) ∧ next a u = some (.ok b, t) := by
  rw [bind_eq_some]
  constructor
  · rintro (h | ⟨_, -, habsurd⟩)
    · exact h
    · cases habsurd
  · exact .inl

theorem bind_pure_eq_some {session : Session σ ε α} {f : α → β} {s t : Store σ}
    {outcome : Except ε β} :
    (session >>= fun a => pure (f a)) s = some (outcome, t) ↔
      ∃ first, session s = some (first, t) ∧ outcome = first.map f := by
  rw [bind_eq_some]
  constructor
  · rintro (⟨a, u, hs, hu⟩ | ⟨e, hs, rfl⟩)
    · obtain ⟨rfl, rfl⟩ := Prod.mk.inj (pure_eq_some.1 hu)
      exact ⟨.ok a, hs, rfl⟩
    · exact ⟨.error e, hs, rfl⟩
  · rintro ⟨first, hs, rfl⟩
    cases first with
    | ok a => exact .inl ⟨a, t, hs, rfl⟩
    | error e => exact .inr ⟨e, hs, rfl⟩

/-- Two computations one after the other find what both have found, up to the first error. -/
theorem bind_append_eq_some {first second : Session σ ε (List α)} {s t : Store σ}
    {outcome : Except ε (List α)} :
    (do
      let own ← first
      let others ← second
      pure (own ++ others)) s = some (outcome, t) ↔
      (∃ e, first s = some (.error e, t) ∧ outcome = .error e) ∨
        ∃ own u later, first s = some (.ok own, u) ∧ second u = some (later, t) ∧
          outcome = later.map (own ++ ·) := by
  rw [bind_eq_some]
  constructor
  · rintro (⟨own, u, hfirst, h⟩ | hfirst)
    · obtain ⟨later, hsecond, rfl⟩ := bind_pure_eq_some.1 h
      exact .inr ⟨own, u, later, hfirst, hsecond, rfl⟩
    · exact .inl hfirst
  · rintro (hfirst | ⟨own, u, later, hfirst, hsecond, rfl⟩)
    · exact .inr hfirst
    · exact .inl ⟨own, u, hfirst, bind_pure_eq_some.2 ⟨later, hsecond, rfl⟩⟩

theorem bind_append_ok {first second : Session σ ε (List α)} {s t : Store σ} {found : List α} :
    (do
      let own ← first
      let others ← second
      pure (own ++ others)) s = some (.ok found, t) ↔
      ∃ own u others, first s = some (.ok own, u) ∧ second u = some (.ok others, t) ∧
        found = own ++ others := by
  rw [bind_append_eq_some]
  constructor
  · rintro (⟨e, -, herror⟩ | ⟨own, u, later, hfirst, hsecond, hfound⟩)
    · cases herror
    · cases later with
      | ok others => exact ⟨own, u, others, hfirst, hsecond, Except.ok.inj hfound⟩
      | error e => cases hfound
  · rintro ⟨own, u, others, hfirst, hsecond, rfl⟩
    exact .inr ⟨own, u, .ok others, hfirst, hsecond, rfl⟩

theorem map_eq_bind (f : α → β) (session : Session σ ε α) :
    f <$> session = session >>= fun a => pure (f a) := by
  rfl

theorem mapError_eq_some {session : Session σ ε α} {f : ε → ε'} {s t : Store σ}
    {outcome : Except ε' α} :
    session.mapError f s = some (outcome, t) ↔
      ∃ first, session s = some (first, t) ∧ outcome = first.mapError f := by
  unfold mapError
  rw [followedBy_eq_some]
  constructor
  · rintro ⟨first, u, hs, hu⟩
    cases first <;> (simp only [Option.some.injEq, Prod.mk.injEq] at hu; obtain ⟨rfl, rfl⟩ := hu)
    · exact ⟨_, hs, rfl⟩
    · exact ⟨_, hs, rfl⟩
  · rintro ⟨first, hs, rfl⟩
    exact ⟨first, t, hs, by cases first <;> rfl⟩

theorem collecting_eq_some {subscriber : Option SubscriberId} {session : Session σ ε α}
    {s t : Store σ} {outcome : Except ε α} :
    collecting subscriber session s = some (outcome, t) ↔
      ∃ after, session (s.withActive subscriber) = some (outcome, after) ∧
        t = after.withActive s.active := by
  unfold collecting
  cases hs : session (s.withActive subscriber) with
  | none => simp
  | some first =>
      obtain ⟨first, after⟩ := first
      simp only [Option.some.injEq, Prod.mk.injEq]
      constructor
      · rintro ⟨rfl, rfl⟩
        exact ⟨after, ⟨rfl, rfl⟩, rfl⟩
      · rintro ⟨_, ⟨rfl, rfl⟩, rfl⟩
        exact ⟨rfl, rfl⟩

end LiveTemplate.Session

namespace LiveTemplate

variable {σ : Type}

theorem Store.subscribe_active (s : Store σ) (cell : Subscriber σ) :
    (s.subscribe cell).active = s.active := by
  unfold subscribe
  simp only
  split <;> rfl

theorem Store.subscribe_objects (s : Store σ) (cell : Subscriber σ) :
    (s.subscribe cell).objects = s.objects := by
  unfold subscribe
  simp only
  split <;> rfl

theorem Store.subscribe_dom (s : Store σ) (cell : Subscriber σ) :
    (s.subscribe cell).dom = s.dom := by
  unfold subscribe
  simp only
  split <;> rfl

theorem Store.subscribe_fields (s : Store σ) (cell : Subscriber σ) :
    (s.subscribe cell).fields = s.fields := by
  unfold subscribe
  simp only
  split <;> rfl

theorem Store.assign_subscribers (s : Store σ) (field : FieldId) (value : Value) :
    (s.assign field value).subscribers = s.subscribers := by
  unfold Store.assign
  split <;> rfl

theorem Store.assign_dom (s : Store σ) (field : FieldId) (value : Value) :
    (s.assign field value).dom = s.dom := by
  unfold Store.assign
  split <;> rfl

theorem Store.assign_active (s : Store σ) (field : FieldId) (value : Value) :
    (s.assign field value).active = s.active := by
  unfold Store.assign
  split <;> rfl

theorem Store.subscribe_subscribers (s : Store σ) (cell : Subscriber σ) :
    (s.subscribe cell).subscribers = s.subscribers.push cell := by
  unfold Store.subscribe
  simp only
  split <;> rfl

/-- Subscribers keep their names as long as there are only more of them. -/
theorem Store.getElem?_subscribers_of_isPrefix {s t : Store σ}
    (h : s.subscribers.toList <+: t.subscribers.toList) {subscriber : SubscriberId}
    {cell : Subscriber σ} (hcell : s.subscribers[subscriber]? = some cell) :
    t.subscribers[subscriber]? = some cell := by
  obtain ⟨later, hlater⟩ := h
  rw [← Array.getElem?_toList] at hcell ⊢
  rw [← hlater, List.getElem?_append_left (List.getElem?_eq_some_iff.1 hcell).1, hcell]

open Session in
/-- A construction ends as its read ends, which runs with the new subscriber collecting. -/
theorem Engine.construct_eq_some {source : Source σ} {key : String} {callback : Value → Routine σ}
    {read : Engine.ReactiveSession σ Value} {s t : Store σ}
    {outcome : Except ReactiveError SubscriberId} :
    construct source key callback read s = some (outcome, t) ↔
      ∃ first after,
        read ((s.subscribe ⟨key, source, callback⟩).withActive (some s.subscribers.size)) =
          some (first, after) ∧
        ((∃ value, first = .ok value ∧ outcome = .ok s.subscribers.size ∧
            t = (after.withActive s.active).report (.created key)) ∨
          ∃ e, first = .error e ∧ outcome = .error e ∧ t = after.withActive s.active) := by
  unfold construct collecting
  simp only [Store.subscribe_active]
  cases hread :
      read ((s.subscribe ⟨key, source, callback⟩).withActive (some s.subscribers.size)) with
  | none => simp
  | some result =>
      obtain ⟨first, after⟩ := result
      simp only [Option.some.injEq, Prod.mk.injEq]
      cases first with
      | ok value =>
          simp only [Option.some.injEq, Prod.mk.injEq]
          constructor
          · rintro ⟨rfl, rfl⟩
            exact ⟨_, _, ⟨rfl, rfl⟩, .inl ⟨value, rfl, rfl, rfl⟩⟩
          · rintro ⟨_, _, ⟨rfl, rfl⟩, ⟨_, -, rfl, rfl⟩ | ⟨_, herror, -⟩⟩
            · exact ⟨rfl, rfl⟩
            · cases herror
      | error e =>
          simp only [Option.some.injEq, Prod.mk.injEq]
          constructor
          · rintro ⟨rfl, rfl⟩
            exact ⟨_, _, ⟨rfl, rfl⟩, .inr ⟨e, rfl, rfl, rfl⟩⟩
          · rintro ⟨_, _, ⟨rfl, rfl⟩, ⟨_, hok, -⟩ | ⟨_, herror, rfl, rfl⟩⟩
            · cases hok
            · cases herror
              exact ⟨rfl, rfl⟩

/-- The recomputation of a subscriber that is there is a run of its read and its callback. -/
theorem Engine.recompute_succ_of_some {fuel : Nat} {subscriber : SubscriberId} {s : Store σ}
    {cell : Subscriber σ} (hcell : s.subscribers[subscriber]? = some cell) :
    recompute (fuel + 1) subscriber s =
      runWith (recompute fuel) ((cell.source.read cell.key).bind cell.callback) s := by
  unfold recompute
  rw [hcell]

theorem Engine.recompute_succ_of_none {fuel : Nat} {subscriber : SubscriberId} {s : Store σ}
    (hcell : s.subscribers[subscriber]? = none) :
    recompute (fuel + 1) subscriber s = some (.ok .null, s) := by
  unfold recompute
  rw [hcell]

namespace Engine

variable {recompute : SubscriberId → ReactiveSession σ Value} {field : FieldId} {s : Store σ}
  {cell : FieldCell}

theorem notify_of_none (hcell : s.fields[field]? = none) :
    notify recompute field s = some (.ok .null, s) := by
  unfold notify
  rw [hcell]

theorem notify_of_failFast (hcell : s.fields[field]? = some cell)
    (hpolicy : cell.policy = .failFast) :
    notify recompute field s = notifyFailFast recompute cell.registrations
      (s.report (.notified cell.registrations.length)) := by
  unfold notify
  simp only [hcell, hpolicy]

theorem notify_of_isolate (hcell : s.fields[field]? = some cell)
    (hpolicy : cell.policy = .isolate) :
    notify recompute field s = notifyIsolated recompute cell.registrations
      (s.report (.notified cell.registrations.length)) := by
  unfold notify
  simp only [hcell, hpolicy]

end Engine

end LiveTemplate
