import LiveTemplate.Text.Blank
import Mathlib.Data.List.Basic

/-!
# The words of a text

A text has certain words if it consists of them, in their order, with blanks around them: any number
in front and at the end, and at least one between two words.  Each text has its words in one way
only, and they are found by reading it once.
-/

namespace LiveTemplate.Text

/-- A text consists of words with blanks around them.  A word ends at a blank or with the text. -/
inductive Spaced : List (List Char) → List Char → Prop
  | nil : Spaced [] []
  | blank {c : Char} {ws : List (List Char)} {cs : List Char} (hblank : isAsciiBlank c = true)
      (hrest : Spaced ws cs) : Spaced ws (c :: cs)
  | word {w : List Char} {ws : List (List Char)} {cs : List Char} (hne : w ≠ [])
      (hword : ∀ c ∈ w, isAsciiBlank c = false) (hend : ∀ c ∈ cs.head?, isAsciiBlank c = true)
      (hrest : Spaced ws cs) : Spaced (w :: ws) (w ++ cs)

/-- No word is empty. -/
theorem Spaced.ne_nil {ws : List (List Char)} {cs : List Char} (h : Spaced ws cs) :
    ∀ w ∈ ws, w ≠ [] := by
  induction h with
  | nil => exact nofun
  | blank _ _ ih => exact ih
  | word hne _ _ _ ih => exact List.forall_mem_cons.2 ⟨hne, ih⟩

/-- What is found from the middle of a word on are words, the first of them this word. -/
theorem spaced_wordsFrom {word : List Char} (hword : ∀ c ∈ word, isAsciiBlank c = false)
    (cs : List Char) : Spaced (wordsFrom word cs) (word.reverse ++ cs) := by
  induction cs generalizing word with
  | nil =>
      cases word with
      | nil => exact .nil
      | cons d word =>
          exact .word (by simp) (fun c hc => hword c (List.mem_reverse.1 hc)) (by simp) .nil
  | cons c rest ih =>
      rw [wordsFrom]
      split
      · next hblank =>
          have hrest : Spaced (wordsFrom [] rest) (c :: rest) := .blank hblank (ih (by simp))
          cases word with
          | nil => exact hrest
          | cons d word =>
              refine .word (by simp) (fun c hc => hword c (List.mem_reverse.1 hc)) ?_ hrest
              simpa using hblank
      · next hblank =>
          have hlonger : ∀ d ∈ c :: word, isAsciiBlank d = false :=
            List.forall_mem_cons.2 ⟨by simpa using hblank, hword⟩
          rw [List.append_cons, ← List.reverse_cons]
          exact ih hlonger

/-- The characters of a word are gathered one after another. -/
theorem wordsFrom_append {w : List Char} (hword : ∀ c ∈ w, isAsciiBlank c = false)
    (word cs : List Char) : wordsFrom word (w ++ cs) = wordsFrom (w.reverse ++ word) cs := by
  induction w generalizing word with
  | nil => rfl
  | cons c w ih =>
      obtain ⟨hc, hw⟩ := List.forall_mem_cons.1 hword
      rw [List.cons_append, wordsFrom, if_neg (by simp [hc]), ih hw, List.reverse_cons,
        List.append_assoc, List.singleton_append]

theorem words_of_spaced {ws : List (List Char)} {cs : List Char} (h : Spaced ws cs) :
    words cs = ws := by
  induction h with
  | nil => rfl
  | blank hblank _ ih =>
      rw [words, wordsFrom, if_pos hblank]
      exact ih
  | @word w ws cs hne hword hend _ ih =>
      have hgathered : (w.reverse ++ []).isEmpty = false := by simpa using hne
      rw [words, wordsFrom_append hword]
      -- The word ends here, with the text or at a blank.
      cases cs with
      | nil =>
          rw [← ih, wordsFrom, hgathered]
          simp [words, wordsFrom]
      | cons c cs =>
          have hblank : isAsciiBlank c = true := by simpa using hend
          rw [← ih, wordsFrom, if_pos hblank, hgathered]
          simp [words, wordsFrom, hblank]

/-- The words that are found are those that the text consists of. -/
theorem words_eq_iff {ws : List (List Char)} {cs : List Char} :
    words cs = ws ↔ Spaced ws cs := by
  constructor
  · rintro rfl
    exact spaced_wordsFrom (List.forall_mem_nil _) cs
  · exact words_of_spaced

instance (ws : List (List Char)) (cs : List Char) : Decidable (Spaced ws cs) :=
  decidable_of_iff _ words_eq_iff

/-- Words with one blank between each two. -/
theorem spaced_intercalate {ws : List (List Char)}
    (hwords : ∀ w ∈ ws, w ≠ [] ∧ ∀ c ∈ w, isAsciiBlank c = false) :
    Spaced ws ([' '].intercalate ws) := by
  induction ws with
  | nil => exact .nil
  | cons w rest ih =>
      obtain ⟨⟨hne, hword⟩, hrest⟩ := List.forall_mem_cons.1 hwords
      cases rest with
      | nil => simpa using Spaced.word hne hword (by simp) .nil
      | cons next rest =>
          have hrest' : Spaced (next :: rest) (' ' :: [' '].intercalate (next :: rest)) :=
            .blank (by decide) (ih hrest)
          rw [List.intercalate_cons_cons, List.append_assoc, List.singleton_append]
          exact .word hne hword (by simp [isAsciiBlank]) hrest'

end LiveTemplate.Text
