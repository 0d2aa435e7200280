import LiveTemplate.Proofs.Selector.Spelling
import LiveTemplate.Proofs.Text.Words
import Mathlib.Data.List.Forall2

/-!
# The grammar of selectors

A selector is written as words with blanks around them, one for each compound.  A text is read as a
selector if and only if it is written so, and it can be written so in one way only.
-/

namespace LiveTemplate

namespace Selector

/-- The text consists of well-formed compounds, one at least, with blanks around them. -/
structure Written (text : String) (spellings : List Spelling) : Prop where
  nonempty : spellings ≠ []
  wellFormed : ∀ spelling ∈ spellings, spelling.WellFormed
  spaced : Text.Spaced (spellings.map Spelling.chars) text.toList

instance (text : String) (spellings : List Spelling) : Decidable (Written text spellings) :=
  decidable_of_iff (spellings ≠ [] ∧ (∀ spelling ∈ spellings, spelling.WellFormed) ∧
      Text.Spaced (spellings.map Spelling.chars) text.toList)
    ⟨fun ⟨h, h', h''⟩ => ⟨h, h', h''⟩, fun h => ⟨h.nonempty, h.wellFormed, h.spaced⟩⟩

/-- Induction on the compounds. -/
theorem readWords_chars {spellings : List Spelling}
    (h : ∀ spelling ∈ spellings, spelling.WellFormed) :
    readWords (spellings.map Spelling.chars) = .ok (spellings.map Spelling.compound) := by
  induction spellings with
  | nil => rfl
  | cons spelling rest ih =>
      obtain ⟨hfirst, hrest⟩ := List.forall_mem_cons.1 h
      rw [List.map_cons, readWords, Compound.read_chars hfirst]
      dsimp only
      rw [ih hrest]
      rfl

/-- Induction on the words. -/
theorem exists_spellings_of_readWords {words : List (List Char)} {compounds : List Compound}
    (hwords : ∀ word ∈ words, word ≠ []) (h : readWords words = .ok compounds) :
    ∃ spellings : List Spelling, (∀ spelling ∈ spellings, spelling.WellFormed) ∧
      spellings.map Spelling.chars = words ∧ spellings.map Spelling.compound = compounds := by
  induction words generalizing compounds with
  | nil =>
      obtain rfl := Except.ok.inj h
      exact ⟨[], nofun, rfl, rfl⟩
  | cons word rest ih =>
      obtain ⟨hne, hrest⟩ := List.forall_mem_cons.1 hwords
      rw [readWords] at h
      split at h
      · next compound hread =>
          cases hlater : readWords rest with
          | error fault =>
              rw [hlater] at h
              cases h
          | ok later =>
              rw [hlater] at h
              obtain rfl := Except.ok.inj h
              obtain ⟨spelling, hwell, rfl, rfl⟩ := Compound.exists_spelling_of_read hne hread
              obtain ⟨spellings, hall, rfl, rfl⟩ := ih hrest hlater
              exact ⟨spelling :: spellings, List.forall_mem_cons.2 ⟨hwell, hall⟩, rfl, rfl⟩
      · cases h

variable {text text' : String} {spellings spellings' : List Spelling}

/-- A selector that is well written is read. -/
theorem ofText_of_written (h : Written text spellings) :
    ofText text = .ok ⟨spellings.map Spelling.compound⟩ := by
  rw [ofText, Text.words_of_spaced h.spaced, readWords_chars h.wellFormed]
  cases spellings with
  | nil => exact absurd rfl h.nonempty
  | cons spelling rest => rfl

/-- Whatever is read as a selector is written so. -/
theorem exists_written_of_ofText {selector : Selector} (h : ofText text = .ok selector) :
    ∃ spellings, Written text spellings ∧ selector = ⟨spellings.map Spelling.compound⟩ := by
  have hspaced := Text.words_eq_iff.1 (rfl : Text.words text.toList = _)
  rw [ofText] at h
  split at h
  · cases h
  · next compounds hne hread =>
      obtain rfl := Except.ok.inj h
      obtain ⟨spellings, hwell, hchars, rfl⟩ :=
        exists_spellings_of_readWords hspaced.ne_nil hread
      rw [← hchars] at hspaced
      exact ⟨spellings, ⟨fun hnil => hne (by rw [hnil]; rfl), hwell, hspaced⟩, rfl⟩
  · cases h

/-- Induction on the compounds. -/
theorem eq_of_map_chars (h : ∀ spelling ∈ spellings, spelling.WellFormed)
    (h' : ∀ spelling ∈ spellings', spelling.WellFormed)
    (hsame : spellings.map Spelling.chars = spellings'.map Spelling.chars) :
    spellings = spellings' := by
  induction spellings generalizing spellings' with
  | nil => exact (List.map_eq_nil_iff.1 hsame.symm).symm
  | cons spelling rest ih =>
      cases spellings' with
      | nil => cases hsame
      | cons other rest' =>
          obtain ⟨hfirst, hrest⟩ := List.forall_mem_cons.1 h
          obtain ⟨hfirst', hrest'⟩ := List.forall_mem_cons.1 h'
          obtain ⟨hchars, hsame⟩ := List.cons.inj hsame
          rw [Spelling.chars_inj hfirst hfirst' hchars, ih hrest hrest' hsame]

/-- A selector can be written in one way only so that it has this text. -/
theorem Written.unique (h : Written text spellings) (h' : Written text spellings') :
    spellings = spellings' := by
  refine eq_of_map_chars h.wellFormed h'.wellFormed ?_
  rw [← Text.words_of_spaced h.spaced, Text.words_of_spaced h'.spaced]

/-- Compounds that agree one by one are the same compounds. -/
theorem map_compound_inj (h : ∀ spelling ∈ spellings, spelling.WellFormed)
    (h' : ∀ spelling ∈ spellings', spelling.WellFormed) :
    spellings.map Spelling.compound = spellings'.map Spelling.compound ↔
      List.Forall₂ Spelling.Agree spellings spellings' := by
  induction spellings generalizing spellings' with
  | nil => cases spellings' <;> simp
  | cons spelling rest ih =>
      cases spellings' with
      | nil => simp
      | cons other rest' =>
          obtain ⟨hfirst, hrest⟩ := List.forall_mem_cons.1 h
          obtain ⟨hfirst', hrest'⟩ := List.forall_mem_cons.1 h'
          rw [List.map_cons, List.map_cons, List.cons.injEq, ih hrest hrest',
            Spelling.compound_inj hfirst hfirst', List.forall₂_cons]

/-- Compounds with one blank between each two. -/
theorem written_intercalate (hne : spellings ≠ [])
    (h : ∀ spelling ∈ spellings, spelling.WellFormed) :
    Written (" ".intercalate (spellings.map fun spelling => String.ofList spelling.chars))
      spellings where
  nonempty := hne
  wellFormed := h
  spaced := by
    rw [String.toList_intercalate, List.map_map]
    have hchars : String.toList ∘ (fun spelling : Spelling => String.ofList spelling.chars) =
        Spelling.chars := funext fun _ => String.toList_ofList
    rw [hchars]
    refine Text.spaced_intercalate fun word hword => ?_
    obtain ⟨spelling, hspelling, rfl⟩ := List.mem_map.1 hword
    exact ⟨(h spelling hspelling).chars, Spelling.not_blank (h spelling hspelling)⟩

/-- The text of a selector in which nothing stands for an absent tag. -/
def shortText (selector : Selector) : String :=
  " ".intercalate (selector.compounds.map Compound.shortText)

/-- Compounds that are printed, in either way to open one without a tag, are read again. -/
theorem ofText_intercalate {compounds : List Compound} {absent : Opening} (hne : compounds ≠ [])
    (hnamed : ∀ compound ∈ compounds, compound.Named)
    (hsome : ∀ compound ∈ compounds, absent = .bare → compound ≠ {})
    (habsent : absent.tag? = none) :
    ofText (" ".intercalate (compounds.map fun compound =>
      String.ofList (compound.spelling absent).chars)) = .ok ⟨compounds⟩ := by
  have hwell : ∀ spelling ∈ compounds.map (·.spelling absent), spelling.WellFormed := by
    intro spelling hspelling
    obtain ⟨compound, hcompound, rfl⟩ := List.mem_map.1 hspelling
    exact Compound.wellFormed_spelling (hnamed compound hcompound) (hsome compound hcompound)
      habsent
  have hread := ofText_of_written (written_intercalate (by simpa using hne) hwell)
  have hsame : Spelling.compound ∘ (·.spelling absent) = id :=
    funext fun compound => compound.compound_spelling habsent
  rwa [List.map_map, List.map_map, hsame, List.map_id] at hread

/-- Exactly the texts that are written by the grammar are read.  Each is written in one way only,
and gives its compounds.  Compounds with identifiers for names are read again from their text, and
if each asks for something, also from the text in which no `*` stands for an absent tag.  Two texts
give the same selector if and only if they agree compound by compound, up to `*`. -/
theorem ofText_iff_written :
    (∀ text, (∃ selector, ofText text = .ok selector) ↔ ∃ spellings, Written text spellings) ∧
    (∀ text spellings, Written text spellings →
      ofText text = .ok ⟨spellings.map Spelling.compound⟩ ∧
        ∀ other, Written text other → other = spellings) ∧
    (∀ compounds, compounds ≠ [] →
      (∀ compound ∈ compounds, compound.Named) →
        ofText (Selector.text ⟨compounds⟩) = .ok ⟨compounds⟩ ∧
          ((∀ compound ∈ compounds, compound ≠ {}) →
            ofText (Selector.shortText ⟨compounds⟩) = .ok ⟨compounds⟩)) ∧
    (∀ text text' selector selector' spellings spellings',
      ofText text = .ok selector → ofText text' = .ok selector' →
      Written text spellings → Written text' spellings' →
        (selector = selector' ↔ List.Forall₂ Spelling.Agree spellings spellings')) := by
  refine ⟨fun text => ⟨?_, ?_⟩, fun text spellings h => ⟨ofText_of_written h, fun other h' =>
    h'.unique h⟩, fun compounds hne hnamed => ⟨?_, fun hsome => ?_⟩, ?_⟩
  · rintro ⟨selector, hread⟩
    obtain ⟨spellings, hwritten, -⟩ := exists_written_of_ofText hread
    exact ⟨spellings, hwritten⟩
  · rintro ⟨spellings, hwritten⟩
    exact ⟨_, ofText_of_written hwritten⟩
  · rw [text, funext Compound.text_eq]
    exact ofText_intercalate hne hnamed (fun _ _ hbare => nomatch hbare) rfl
  · exact ofText_intercalate hne hnamed (fun compound hmem _ => hsome compound hmem) rfl
  · intro text text' selector selector' spellings spellings' hread hread' h h'
    obtain rfl := Except.ok.inj (hread.symm.trans (ofText_of_written h))
    obtain rfl := Except.ok.inj (hread'.symm.trans (ofText_of_written h'))
    rw [Selector.mk.injEq]
    exact map_compound_inj h.wellFormed h'.wellFormed

/-- Two texts for one selector, and the texts that it is printed as. -/
theorem ofText_iff_written_menu :
    let first := [⟨.tag "ul", [.label "menu"]⟩, ⟨.bare, [.id "on", .label "x", .label "y"]⟩]
    let second := [⟨.tag "ul", [.label "menu"]⟩, ⟨.any, [.label "x", .id "on", .label "y"]⟩]
    let compounds := [⟨some "ul", none, ["menu"]⟩, ⟨none, some "on", ["x", "y"]⟩]
    Written "ul.menu  #on.x.y " first ∧ Written "\tul.menu *.x#on.y" second ∧
      ofText "ul.menu  #on.x.y " = .ok ⟨compounds⟩ ∧
      ofText "\tul.menu *.x#on.y" = .ok ⟨compounds⟩ ∧
      ofText (Selector.text ⟨compounds⟩) = .ok ⟨compounds⟩ ∧
      ofText (Selector.shortText ⟨compounds⟩) = .ok ⟨compounds⟩ ∧
      List.Forall₂ Spelling.Agree first second := by
  intro first second compounds
  obtain ⟨-, hread, hprint, hagree⟩ := ofText_iff_written
  have hfirst : Written "ul.menu  #on.x.y " first := by decide +kernel
  have hsecond : Written "\tul.menu *.x#on.y" second := by decide +kernel
  have hnamed : ∀ compound ∈ compounds, compound.Named := by decide +kernel
  have hsome : ∀ compound ∈ compounds, compound ≠ {} := by decide
  obtain ⟨hread₁, -⟩ := hread _ _ hfirst
  obtain ⟨hread₂, -⟩ := hread _ _ hsecond
  obtain ⟨hprinted, hshort⟩ := hprint compounds (List.cons_ne_nil _ _) hnamed
  exact ⟨hfirst, hsecond, hread₁, hread₂, hprinted, hshort hsome,
    (hagree _ _ _ _ _ _ hread₁ hread₂ hfirst hsecond).1 rfl⟩

/-- A sigil needs a name, whatever the sigil is. -/
example : ofText "div > p" = .error ⟨"div > p", .expectedIdentifier⟩ := by decide +kernel

end Selector

end LiveTemplate
