import LiveTemplate.Proofs.Markup.Marks

/-!
# Escaped text is told apart from what follows

Every character is escaped on its own, by itself or by a reference, and no such piece begins another
one.  So an escaped text can be read from the front, and it ends where a mark or a quotation mark
stands.
-/

namespace LiveTemplate

/-- Two runs of characters that satisfy a predicate, in front of characters that do not, are read
alike. -/
theorem List.append_inj_of_forall {α : Type} {p : α → Prop} {xs ys rest rest' : List α}
    (hxs : ∀ a ∈ xs, p a) (hys : ∀ a ∈ ys, p a) (hrest : ∀ a ∈ rest.head?, ¬ p a)
    (hrest' : ∀ a ∈ rest'.head?, ¬ p a) (h : xs ++ rest = ys ++ rest') :
    xs = ys ∧ rest = rest' := by
  induction xs generalizing ys with
  | nil =>
      cases ys with
      | nil => exact ⟨rfl, h⟩
      | cons y ys =>
          rw [List.nil_append] at h
          exact absurd (hys y List.mem_cons_self) (hrest y (by simp [h]))
  | cons x xs ih =>
      cases ys with
      | nil =>
          rw [List.nil_append] at h
          exact absurd (hxs x List.mem_cons_self) (hrest' x (by simp [← h]))
      | cons y ys =>
          obtain ⟨rfl, htail⟩ := List.cons.inj h
          obtain ⟨rfl, hsame⟩ := ih (fun a ha => hxs a (List.mem_cons_of_mem x ha))
            (fun a ha => hys a (List.mem_cons_of_mem x ha)) htail
          exact ⟨rfl, hsame⟩

namespace Text

/-- A character with a reference is one of six. -/
theorem reference?_eq_some {c : Char} {reference : String} (h : reference? c = some reference) :
    (c = '&' ∧ reference = "&amp;") ∨ (c = '<' ∧ reference = "&lt;") ∨
      (c = '>' ∧ reference = "&gt;") ∨ (c = '"' ∧ reference = "&quot;") ∨
      (c = '\'' ∧ reference = "&#x27;") ∨ (c = '/' ∧ reference = "&#x2f;") := by
  unfold reference? at h
  split at h <;> simp_all

/-- How a character is written: by itself, unless it is one of six. -/
theorem escapeChar_cases (c : Char) :
    (escapeChar c = [c] ∧ c ≠ '&' ∧ c ≠ '<' ∧ c ≠ '>' ∧ c ≠ '"' ∧ c ≠ '\'' ∧ c ≠ '/') ∨
      (c = '&' ∧ escapeChar c = ['&', 'a', 'm', 'p', ';']) ∨
      (c = '<' ∧ escapeChar c = ['&', 'l', 't', ';']) ∨
      (c = '>' ∧ escapeChar c = ['&', 'g', 't', ';']) ∨
      (c = '"' ∧ escapeChar c = ['&', 'q', 'u', 'o', 't', ';']) ∨
      (c = '\'' ∧ escapeChar c = ['&', '#', 'x', '2', '7', ';']) ∨
      (c = '/' ∧ escapeChar c = ['&', '#', 'x', '2', 'f', ';']) := by
  unfold escapeChar
  cases href : reference? c with
  | some reference =>
      obtain ⟨rfl, rfl⟩ | ⟨rfl, rfl⟩ | ⟨rfl, rfl⟩ | ⟨rfl, rfl⟩ | ⟨rfl, rfl⟩ | ⟨rfl, rfl⟩ :=
        reference?_eq_some href <;> simp
  | none =>
      refine .inl ⟨rfl, ?_, ?_, ?_, ?_, ?_, ?_⟩ <;> rintro rfl <;> cases href

theorem exists_escapeChar_eq_cons (c : Char) : ∃ first more, escapeChar c = first :: more := by
  obtain ⟨hc, -⟩ | ⟨-, hc⟩ | ⟨-, hc⟩ | ⟨-, hc⟩ | ⟨-, hc⟩ | ⟨-, hc⟩ | ⟨-, hc⟩ := escapeChar_cases c <;>
  exact ⟨_, _, hc⟩

/-- What is written for one character does not begin what is written for another. -/
theorem escapeChar_append_inj {c d : Char} {rest rest' : List Char}
    (h : escapeChar c ++ rest = escapeChar d ++ rest') : c = d ∧ rest = rest' := by
  obtain ⟨hc, hamp, -⟩ | ⟨rfl, hc⟩ | ⟨rfl, hc⟩ | ⟨rfl, hc⟩ | ⟨rfl, hc⟩ | ⟨rfl, hc⟩ | ⟨rfl, hc⟩ :=
    escapeChar_cases c <;>
  obtain ⟨hd, hamp', -⟩ | ⟨rfl, hd⟩ | ⟨rfl, hd⟩ | ⟨rfl, hd⟩ | ⟨rfl, hd⟩ | ⟨rfl, hd⟩ | ⟨rfl, hd⟩ :=
    escapeChar_cases d <;>
  simp only [hc, hd, List.cons_append, List.nil_append, List.cons.injEq] at h <;> grind

/-- An escaped text in front of a mark, of a quotation mark or of nothing is read in one way. -/
theorem escapeChars_append_inj {cs ds rest rest' : List Char}
    (hrest : ∀ c ∈ rest.head?, ¬ Inert c) (hrest' : ∀ c ∈ rest'.head?, ¬ Inert c)
    (h : escapeChars cs ++ rest = escapeChars ds ++ rest') : cs = ds ∧ rest = rest' := by
  -- A run that has come to its end is followed by a character that no piece begins with.
  have hclosed {d : Char} {ds rest rest' : List Char} (hrest : ∀ c ∈ rest.head?, ¬ Inert c)
      (h : rest = escapeChars (d :: ds) ++ rest') : False := by
    obtain ⟨first, more, hpiece⟩ := exists_escapeChar_eq_cons d
    refine hrest first ?_ (inert_escapeChars (d :: ds) first ?_)
    · simp [h, escapeChars, hpiece]
    · simp [escapeChars, hpiece]
  induction cs generalizing ds with
  | nil =>
      cases ds with
      | nil => exact ⟨rfl, h⟩
      | cons d ds => exact (hclosed hrest h).elim
  | cons c cs ih =>
      cases ds with
      | nil => exact (hclosed hrest' h.symm).elim
      | cons d ds =>
          simp only [escapeChars, List.flatMap_cons, List.append_assoc] at h
          obtain ⟨rfl, htail⟩ := escapeChar_append_inj h
          obtain ⟨rfl, hsame⟩ := ih htail
          exact ⟨rfl, hsame⟩

end Text

end LiveTemplate
