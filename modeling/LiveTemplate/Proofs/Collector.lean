import LiveTemplate.Proofs.Interface

/-!
# The slot of the collector

At most one subscriber is collecting at a time.  Constructing a subscriber and suspending collection
change who it is, and both put back who it was, however they nest and wherever an error ends them.
-/

namespace LiveTemplate

variable {σ : Type}

/-- No primitive step touches the slot, and what is run with another occupant puts it back. -/
theorem Progress.sameActive : Progress fun s t : Store σ => t.active = s.active where
  refl _ := rfl
  trans hst htu := htu.trans hst
  record _ _ := rfl
  newObject _ _ := rfl
  newArray _ _ := rfl
  define _ _ _ _ := rfl
  register _ _ _ := rfl
  assign s field value := by
    unfold Store.assign
    split <;> rfl
  edit _ _ := rfl
  share _ _ := rfl
  push _ _ := rfl
  collecting _ _ := rfl

namespace Operation

theorem performAll_active {limit : Nat} {operations : List (Operation σ)}
    (hoperations : ∀ operation ∈ operations, operation.Composed) {s t : Store σ}
    (h : performAll limit operations s = some t) : t.active = s.active :=
  performAll_keeps Progress.sameActive hoperations h

/-- Every operation that returns leaves in the slot whom it found there, whatever its outcome; and
any run of operations that starts with an empty slot ends with one. -/
theorem slot_restored (limit : Nat) (s t : Store σ) :
    (∀ (operation : Operation σ) (outcome : Except MountError Unit), operation.Composed →
      operation.session limit s = some (outcome, t) → t.active = s.active) ∧
    (∀ operations : List (Operation σ), (∀ operation ∈ operations, operation.Composed) →
      performAll limit operations s = some t → s.active = none → t.active = none) := by
  constructor
  · intro operation outcome hoperation h
    exact (session_composed hoperation limit).keeps Progress.sameActive s outcome t h
  · intro operations hoperations h hempty
    exact (performAll_active hoperations h).trans hempty

/-- An object with one field, while subscriber 7 is collecting. -/
def oneField : Store Unit where
  objects := #[{ policy := .failFast, fields := [("name", 0)] }]
  fields := #[{ key := "name", value := .bool true, policy := .failFast }]
  active := some 7
  shared := ()

/-- The construction of a subscriber that fails because one nested in it does. -/
def watchAroundMissing : Operation Unit :=
  .watch (Source.around
    [(Stage.get 0 "name").routine, (Stage.watch 0 "ghost" fun _ => .nothing).routine] []
    (Source.ofObject 0)) "name" fun _ => .nothing

theorem slot_restored_watchAroundMissing :
    (∃ t, watchAroundMissing.session 0 oneField =
        some (.error (.reactive (.unknownProperty "ghost")), t) ∧ t.active = some 7) ∧
      ∃ t, performAll 0 [watchAroundMissing, .observe .null .isolate]
        { oneField with active := none } = some t ∧ t.active = none := by
  constructor
  · refine ⟨_, rfl, ?_⟩
    exact (slot_restored 0 oneField _).1 watchAroundMissing _ trivial rfl
  · obtain ⟨t, ht⟩ := Option.isSome_iff_exists.1
      (show (performAll 0 [watchAroundMissing, .observe .null .isolate]
        { oneField with active := none }).isSome = true by decide +kernel)
    refine ⟨t, ht, (slot_restored 0 _ t).2 _ ?_ ht rfl⟩
    intro operation hoperation
    simp only [List.mem_cons, List.not_mem_nil, or_false] at hoperation
    rcases hoperation with rfl | rfl <;> trivial

end Operation

end LiveTemplate
