import LiveTemplate.Proofs.Reactive.Running

/-!
# Plain and forwarding sources

An object is a source as it is, and also through a table of forwarded keys.  The two differ in the
report for a key outside the table only, so what is said of reads, writes and subscribers here holds
of both.
-/

namespace LiveTemplate

variable {σ : Type}

/-- An object as a source, read as it is or through a table of forwarded keys. -/
def Source.over (forwarded : Option (List String)) (object : ObjectId) : Source σ :=
  match forwarded with
  | none => ofObject object
  | some keys => forwarding keys object

namespace Engine

variable {recompute : SubscriberId → ReactiveSession σ Value}
  (forwarded : Option (List String)) (object : ObjectId) (key : String)

/-- The store after the source has looked the key up in its table, if it has one. -/
def heard (s : Store σ) : Store σ :=
  match forwarded with
  | none => s
  | some keys => noted s keys key

variable {forwarded key} in
theorem heard_induct {motive : Store σ → Prop} {s : Store σ} (hs : motive s)
    (hmiss : motive (s.report (.forwardMiss key))) : motive (heard forwarded key s) := by
  unfold heard noted
  split
  · exact hs
  · split
    · exact hs
    · exact hmiss

@[simp] theorem heard_fields (s : Store σ) : (heard forwarded key s).fields = s.fields :=
  heard_induct (motive := fun t => t.fields = s.fields) rfl rfl

@[simp] theorem heard_objects (s : Store σ) : (heard forwarded key s).objects = s.objects :=
  heard_induct (motive := fun t => t.objects = s.objects) rfl rfl

@[simp] theorem heard_active (s : Store σ) : (heard forwarded key s).active = s.active :=
  heard_induct (motive := fun t => t.active = s.active) rfl rfl

@[simp] theorem heard_dom (s : Store σ) : (heard forwarded key s).dom = s.dom :=
  heard_induct (motive := fun t => t.dom = s.dom) rfl rfl

/-- A tracked read, with whoever is collecting. -/
theorem runWith_read_over (s : Store σ) :
    runWith recompute ((Source.over forwarded object).read key) s =
      match s.field? object key with
      | some field =>
        some (.ok ((heard forwarded key s).get field).2, ((heard forwarded key s).get field).1)
      | none => some (.error (.unknownProperty key), heard forwarded key s) := by
  cases forwarded with
  | none => exact runWith_read object key s
  | some keys => exact runWith_read_forwarding keys object key s

/-- A write through a source is a write of the object, behind a report if the key is missed. -/
theorem write_over_cases (value : Value) (s : Store σ) :
    let plain : Routine σ := (Source.ofObject object).write key value
    ((Source.over forwarded object).write key value = plain ∧ heard forwarded key s = s) ∨
      (Source.over forwarded object).write key value =
          .request (.report (.forwardMiss key)) (fun _ => plain) ∧
        heard forwarded key s = s.report (.forwardMiss key) := by
  cases forwarded with
  | none => exact .inl ⟨rfl, rfl⟩
  | some keys =>
      have hforward : ((Source.over (some keys) object).write key value : Routine σ) =
          (Source.reportMiss keys key).andThen ((Source.ofObject object).write key value) := rfl
      rw [hforward, Source.reportMiss, heard, noted]
      split
      · exact .inl ⟨rfl, rfl⟩
      · exact .inr ⟨rfl, rfl⟩

/-- A write of a key that is there is a write of its field. -/
theorem runWith_write_over {object : ObjectId} {key : String} {s : Store σ} {field : FieldId}
    (hfield : s.field? object key = some field) (value : Value) :
    runWith recompute ((Source.over forwarded object).write key value) s =
      runWith recompute (.setField field value) (heard forwarded key s) := by
  have hwrite (t : Store σ) (ht : t.field? object key = some field) :
      runWith recompute ((Source.ofObject object).write key value) t =
        runWith recompute (.setField field value) t := by
    simp only [Source.ofObject, Source.withField, runWith_request, Store.perform]
    rw [ht]
  rcases write_over_cases forwarded object key value s with ⟨hrun, hheard⟩ | ⟨hrun, hheard⟩
  · rw [hrun, hheard]
    exact hwrite s hfield
  · rw [hrun, hheard]
    exact hwrite (s.report (.forwardMiss key)) hfield

/-- A write of a key that is not there fails, and nothing is written. -/
theorem runWith_write_over_of_none {object : ObjectId} {key : String} {s : Store σ}
    (hfield : s.field? object key = none) (value : Value) :
    runWith recompute ((Source.over forwarded object).write key value) s =
      some (.error (.unknownProperty key), heard forwarded key s) := by
  have hwrite (t : Store σ) (ht : t.field? object key = none) :
      runWith recompute ((Source.ofObject object).write key value) t =
        some (.error (.unknownProperty key), t) := by
    simp only [Source.ofObject, Source.withField, runWith_request, Store.perform]
    rw [ht]
    rfl
  rcases write_over_cases forwarded object key value s with ⟨hrun, hheard⟩ | ⟨hrun, hheard⟩
  · rw [hrun, hheard]
    exact hwrite s hfield
  · rw [hrun, hheard]
    exact hwrite (s.report (.forwardMiss key)) hfield

end Engine

end LiveTemplate
