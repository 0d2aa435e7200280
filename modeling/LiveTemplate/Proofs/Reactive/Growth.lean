import LiveTemplate.Proofs.Reactive.Fields

/-!
# Fields only grow

No field ever goes away: a definition under a present key makes another field and leaves the old one
where it was.  A field keeps its policy, and a registration is never taken back.  So the
registrations that a notification finds are the first ones of those that are there when it ends.
-/

namespace LiveTemplate.Store

variable {σ : Type}

/-- Every field is still there, under the same policy, with its registrations before any others. -/
def Grown (s t : Store σ) : Prop :=
  ∀ (field : FieldId) (cell : FieldCell), s.fields[field]? = some cell →
    ∃ later, t.fields[field]? = some later ∧ later.policy = cell.policy ∧
      cell.registrations <+: later.registrations

theorem Grown.of_fields {s t : Store σ} (h : t.fields = s.fields) : s.Grown t := by
  intro field cell hcell
  exact ⟨cell, by rw [h]; exact hcell, rfl, List.prefix_rfl⟩

theorem Grown.trans {s t u : Store σ} (hst : s.Grown t) (htu : t.Grown u) : s.Grown u := by
  intro field cell hcell
  obtain ⟨mid, hmid, hpolicy, hprefix⟩ := hst field cell hcell
  obtain ⟨later, hlater, hpolicy', hprefix'⟩ := htu field mid hmid
  exact ⟨later, hlater, hpolicy'.trans hpolicy, hprefix.trans hprefix'⟩

theorem Grown.register (s : Store σ) (field : FieldId) (subscriber : SubscriberId) :
    s.Grown (s.register field subscriber) := by
  intro other cell hcell
  have hlater : (s.register field subscriber).fields[other]? =
      some (if field = other then
        { cell with registrations := cell.registrations ++ [subscriber] } else cell) := by
    simp only [Store.register, Store.report, Store.record, Array.getElem?_modify, hcell]
    split <;> rfl
  refine ⟨_, hlater, ?_, ?_⟩
  · split <;> rfl
  · split
    · exact List.prefix_append _ _
    · exact List.prefix_rfl

theorem Grown.progress : Progress (Grown : Store σ → Store σ → Prop) where
  refl _ := .of_fields rfl
  trans hst htu := hst.trans htu
  record _ _ := .of_fields rfl
  newObject _ _ := .of_fields rfl
  newArray _ _ := .of_fields rfl
  define s object key value field cell hcell := by
    refine ⟨cell, ?_, rfl, List.prefix_rfl⟩
    rw [getElem?_fields_define s object key value (Array.getElem?_eq_some_iff.1 hcell).1]
    exact hcell
  register := .register
  edit _ _ := .of_fields rfl
  share _ _ := .of_fields rfl
  assign s field value other cell hcell := by
    obtain ⟨later, hlater, hpolicy, hregistrations, -⟩ := assign_field s field value hcell
    exact ⟨later, hlater, hpolicy, hregistrations ▸ List.prefix_rfl⟩
  push _ _ := .of_fields rfl
  collecting _ h := h

/-- Later registrations come behind those that a notification has found. -/
theorem Grown.registrations {s t : Store σ} (h : s.Grown t) {field : FieldId} {cell : FieldCell}
    (hcell : s.fields[field]? = some cell) :
    ∃ added, t.registrations field = cell.registrations ++ added := by
  obtain ⟨later, hlater, -, added, hadded⟩ := h field cell hcell
  refine ⟨added, ?_⟩
  simp [Store.registrations, hlater, hadded]

theorem Grown.registrations_subset {s t : Store σ} (h : s.Grown t) (field : FieldId) :
    s.registrations field ⊆ t.registrations field := by
  cases hcell : s.fields[field]? with
  | none =>
      simp only [Store.registrations, hcell]
      exact List.nil_subset _
  | some cell =>
      obtain ⟨added, hadded⟩ := h.registrations hcell
      rw [hadded]
      simp only [Store.registrations, hcell]
      exact List.subset_append_left _ _

/-- Every dependency goes on behind failures. -/
def Isolating (s : Store σ) : Prop := ∀ cell ∈ s.fields, cell.policy = .isolate

/-- If every dependency is so in the end, it has been so all the time. -/
theorem Isolating.before {s t : Store σ} (h : t.Isolating) (hgrown : s.Grown t) : s.Isolating := by
  intro cell hmem
  obtain ⟨field, hlt, rfl⟩ := Array.mem_iff_getElem.1 hmem
  obtain ⟨later, hlater, hpolicy, -⟩ := hgrown field _ (Array.getElem?_eq_getElem hlt)
  rw [← hpolicy]
  exact h later (Array.mem_of_getElem? hlater)

theorem Isolating.policy {s : Store σ} (h : s.Isolating) {field : FieldId} {cell : FieldCell}
    (hcell : s.fields[field]? = some cell) : cell.policy = .isolate :=
  h cell (Array.mem_of_getElem? hcell)

end LiveTemplate.Store
