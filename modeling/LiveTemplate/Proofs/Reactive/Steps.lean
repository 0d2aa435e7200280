import LiveTemplate.Proofs.Reactive.Definitions

/-!
# Primitive steps

Whatever a program asks for, and whatever callbacks and sources do meanwhile, comes down to primitive
steps.  A store that primitive steps lead to may be one in the middle of a run, with any subscriber
collecting.  A step that defines a key is labelled with its definition, so the labels of a run tell
what has ever been defined.
-/

namespace LiveTemplate

variable {σ : Type}

namespace Store

/-- A primitive step, with the definition that it makes, if it makes one. -/
inductive Step : Store σ → Option Definition → Store σ → Prop
  | record (s : Store σ) (entry : Entry) : Step s none (s.record entry)
  | newObject (s : Store σ) (policy : NotifyPolicy) : Step s none (s.newObject policy).1
  | newArray (s : Store σ) (items : List Json) : Step s none (s.newArray items).1
  | define (s : Store σ) (object : ObjectId) (key : String) (value : Value) :
    Step s (some ⟨if object < s.objects.size then some object else none, key⟩)
      (s.define object key value).1
  | register (s : Store σ) (field : FieldId) (subscriber : SubscriberId) :
    Step s none (s.register field subscriber)
  | edit (s : Store σ) (change : Dom → Dom) : Step s none { s with dom := change s.dom }
  | share (s : Store σ) (change : σ → σ) : Step s none { s with shared := change s.shared }
  | assign (s : Store σ) (field : FieldId) (value : Value) : Step s none (s.assign field value)
  | push (s : Store σ) (cell : Subscriber σ) :
    Step s none { s with subscribers := s.subscribers.push cell }
  | withActive (s : Store σ) (subscriber : Option SubscriberId) :
    Step s none (s.withActive subscriber)

/-- Primitive steps one after another, with the definitions that they make, in order. -/
inductive Steps (s : Store σ) : List Definition → Store σ → Prop
  | refl : Steps s [] s
  | tail {t u : Store σ} {made : List Definition} {definition? : Option Definition} :
    Steps s made t → Step t definition? u → Steps s (made ++ definition?.toList) u

variable {s t u : Store σ} {made more : List Definition}

/-! ## Steps of runs -/

namespace Steps

theorem step (h : Step s none t) : s.Steps [] t := .tail .refl h

theorem trans (hst : s.Steps made t) (htu : t.Steps more u) : s.Steps (made ++ more) u := by
  induction htu with
  | refl => exact (List.append_nil made).symm ▸ hst
  | tail _ hstep ih => exact List.append_assoc made _ _ ▸ .tail ih hstep

/-- What the engine does is made of primitive steps, and so is every run. -/
theorem progress : Progress fun s t : Store σ => ∃ made, s.Steps made t where
  refl _ := ⟨[], .refl⟩
  trans := by
    rintro s t u ⟨made, hst⟩ ⟨more, htu⟩
    exact ⟨made ++ more, hst.trans htu⟩
  record s entry := ⟨_, step (.record s entry)⟩
  newObject s policy := ⟨_, step (.newObject s policy)⟩
  newArray s items := ⟨_, step (.newArray s items)⟩
  define s object key value := ⟨_, .tail .refl (.define s object key value)⟩
  register s field subscriber := ⟨_, step (.register s field subscriber)⟩
  edit s change := ⟨_, step (.edit s change)⟩
  share s change := ⟨_, step (.share s change)⟩
  assign s field value := ⟨_, step (.assign s field value)⟩
  push s cell := ⟨_, step (.push s cell)⟩
  collecting := by
    rintro s t subscriber ⟨made, hrun⟩
    exact ⟨_, ((step (.withActive s subscriber)).trans hrun).trans
      (step (.withActive t s.active))⟩

end Steps

/-! ## What steps add -/

/-- A step adds the definition that it makes to the history, and nothing else. -/
theorem Step.hasHistory {definition? : Option Definition} (h : s.Step definition? t)
    {history : List Definition} (hs : s.HasHistory history) :
    t.HasHistory (history ++ definition?.toList) := by
  have hsame : history ++ (none : Option Definition).toList = history := List.append_nil history
  cases h with
  | define object key value => exact hs.define object key value
  | newObject policy => exact hsame.symm ▸ hs.newObject policy
  | register field subscriber => exact hsame.symm ▸ hs.register field subscriber
  | assign field value => exact hsame.symm ▸ hs.assign field value
  | _ => exact hsame.symm ▸ hs.of_same rfl fun _ => rfl

/-- The history of a store tells the definitions of the steps that have led to it. -/
theorem Steps.hasHistory (h : s.Steps made t) {history : List Definition}
    (hs : s.HasHistory history) : t.HasHistory (history ++ made) := by
  induction h with
  | refl => exact (List.append_nil history).symm ▸ hs
  | tail _ hstep ih => exact List.append_assoc history _ _ ▸ hstep.hasHistory ih

/-- Subscribers stay. -/
theorem Step.subscribers_isPrefix {definition? : Option Definition} (h : s.Step definition? t) :
    s.subscribers.toList <+: t.subscribers.toList := by
  cases h with
  | push cell =>
      rw [Array.toList_push]
      exact List.prefix_append _ _
  | assign field value => exact ⟨[], by rw [List.append_nil, assign_subscribers]⟩
  | _ => exact List.prefix_rfl

theorem Steps.subscribers_isPrefix (h : s.Steps made t) :
    s.subscribers.toList <+: t.subscribers.toList := by
  induction h with
  | refl => exact List.prefix_rfl
  | tail _ hstep ih => exact ih.trans hstep.subscribers_isPrefix

end Store

end LiveTemplate
