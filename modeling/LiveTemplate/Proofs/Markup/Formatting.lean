import LiveTemplate.Proofs.Markup.Ready

/-!
# Formatting elements that stay where they are

Formatting elements are remembered beyond their end and may be opened again.  Where every element is
closed by its own end tag there is nothing to open again: what is remembered is open, and the end tag
of a formatting element closes it alone.
-/

namespace LiveTemplate.Markup.Builder

variable {b : Builder} {path : List ElementName} {element : ElementName} {ids : List Nat}
  {entries : List FormatEntry} {id : Nat} {tag : Tag}

namespace Tracks

/-- What is remembered is open. -/
theorem mem_of_isEntryOf (h : Tracks ids path entries) {entry : FormatEntry}
    (hentry : entry ∈ entries) (hcell : isEntryOf id entry = true) : id ∈ ids := by
  induction h with
  | nil => cases hentry
  | plain _ _ ih => exact List.mem_cons_of_mem _ (ih hentry)
  | entry _ _ ih =>
      obtain rfl | hentry := List.mem_cons.1 hentry
      · exact eq_of_beq hcell ▸ List.mem_cons_self
      · exact List.mem_cons_of_mem _ (ih hentry)
  | mark _ _ ih =>
      obtain rfl | hentry := List.mem_cons.1 hentry
      · cases hcell
      · exact List.mem_cons_of_mem _ (ih hentry)

/-- What is remembered since the last mark is open, and no element that sets a mark is open inside
it. -/
theorem name_mem_of_recent {name : Nat → ElementName} (h : Tracks ids (ids.map name) entries)
    (hentry : (id, tag) ∈ recentFormatting entries) :
    id ∈ ids ∧ name id ∈ (ids.map name).takeWhile fun element => !element.setsMark := by
  generalize hpath : ids.map name = path at h
  induction h with
  | nil => cases hentry
  | @plain id' ids element path entries hmark _ ih =>
      obtain ⟨rfl, hbelow⟩ := List.cons.inj hpath
      obtain ⟨hid, hname⟩ := ih hentry hbelow
      rw [List.takeWhile_cons_of_pos (by simp [hmark])]
      exact ⟨List.mem_cons_of_mem _ hid, List.mem_cons_of_mem _ hname⟩
  | @entry id' ids tag' path entries htag _ ih =>
      obtain ⟨hfirst, hbelow⟩ := List.cons.inj hpath
      rw [List.takeWhile_cons_of_pos (by simp [setsMark_of_isRemembered htag])]
      rw [recentFormatting] at hentry
      obtain heq | hentry := List.mem_cons.1 hentry
      · obtain ⟨rfl, rfl⟩ := Prod.mk.inj heq
        exact ⟨List.mem_cons_self, by rw [hfirst]; exact List.mem_cons_self⟩
      · obtain ⟨hid, hname⟩ := ih hentry hbelow
        exact ⟨List.mem_cons_of_mem _ hid, List.mem_cons_of_mem _ hname⟩
  | mark _ _ _ => cases hentry

/-- To forget an element leaves the others as they are. -/
theorem forget (h : Tracks ids path entries) (cell : Nat) :
    Tracks ids path (entries.filter fun entry => !isEntryOf cell entry) := by
  induction h with
  | nil => exact .nil
  | plain hmark _ ih => exact .plain hmark ih
  | @entry id ids tag path entries htag h ih =>
      by_cases hcell : isEntryOf cell (.element id tag) = true
      · rw [List.filter_cons_of_neg (by simp [hcell])]
        exact .plain (setsMark_of_isRemembered htag) ih
      · rw [List.filter_cons_of_pos (by simpa using hcell)]
        exact .entry htag ih
  | mark hmark _ ih =>
      rw [List.filter_cons_of_pos (by simp [isEntryOf])]
      exact .mark hmark ih

end Tracks

namespace Ready

/-- Nothing is opened again. -/
theorem reopenFormatting_eq (h : Ready b path) : b.reopenFormatting = b := by
  have hnone : (recentFormatting b.formatting).takeWhile
      (fun entry => !b.stack.contains entry.1) = [] := by
    have htracks := h.tracks
    rw [← h.names] at htracks
    cases hrecent : recentFormatting b.formatting with
    | nil => rfl
    | cons entry rest =>
        have hentry : (entry.1, entry.2) ∈ recentFormatting b.formatting := by simp [hrecent]
        have hid := (htracks.name_mem_of_recent hentry).1
        exact List.takeWhile_cons_of_neg (by simp [hid])
  simp only [reopenFormatting, hnone, List.isEmpty_nil, if_true]

/-- Where no link is open none is closed. -/
theorem closeOpenLink_eq (h : Ready b path) (hlink : linkIsOpen path = false) :
    b.closeOpenLink = b := by
  have htracks := h.tracks
  rw [linkIsOpen, ← h.names] at hlink
  rw [← h.names] at htracks
  have hnone : (recentFormatting b.formatting).find? (fun entry => b.isNamed entry.1 "a") =
      none := by
    rw [List.find?_eq_none]
    intro entry hentry hname
    have hmem := (htracks.name_mem_of_recent hentry).2
    rw [eq_of_beq hname] at hmem
    simp [hmem] at hlink
  simp only [closeOpenLink, hnone]

end Ready

/-- A formatting element is opened and remembered. -/
theorem Ready.openFormatting_eq (h : Ready b path) (htag : tag.name ≠ "template") :
    ∃ entries, Tracks b.stack path entries ∧
      b.openFormatting tag =
        { (b.hang { content := .element (.html tag.name) tag.attributes }).push b.cells.size with
          formatting := .element b.cells.size tag :: entries } := by
  have hname : ElementName.html tag.name ≠ .html "template" := by simpa [ElementName.html] using htag
  have hopened (entries : List FormatEntry) :
      ({ b with formatting := entries }).addElement (.html tag.name) tag.attributes =
        (({ b with formatting := entries }).hang
          { content := .element (.html tag.name) tag.attributes }, b.cells.size) := by
    have hstanding : Standing { b with formatting := entries } path := h.of_same rfl rfl rfl
    exact hstanding.addElement_eq hname _
  simp only [openFormatting]
  split
  · split
    · exact ⟨_, h.tracks.forget _, by rw [forget, hopened]; rfl⟩
    · exact ⟨_, h.tracks, by rw [h.addElement_eq hname]; rfl⟩
  · exact ⟨_, h.tracks, by rw [h.addElement_eq hname]; rfl⟩

/-- What is remembered inside an element that sets a mark starts with the mark. -/
theorem Tracks.clearToMark_eq (h : Tracks (id :: ids) (element :: path) entries)
    (hmark : element.setsMark = true) :
    Tracks ids path ((entries.dropWhile (· != .mark)).drop 1) := by
  cases h with
  | plain hplain _ => simp [hmark] at hplain
  | entry htag _ => simp [setsMark_of_isRemembered htag] at hmark
  | mark _ h => simpa using h

/-- What is remembered inside an element that is not remembered itself. -/
theorem Tracks.tail (h : Tracks (id :: ids) (element :: path) entries)
    (hmark : element.setsMark = false)
    (hname : element.vocabulary = .html → isRemembered element.name = false) :
    Tracks ids path entries := by
  cases h with
  | plain _ h => exact h
  | entry htag h => simp [ElementName.html, htag] at hname
  | mark hmark' _ => simp [hmark] at hmark'

/-- The end tag of a formatting element closes the innermost element alone. -/
theorem Ready.closeFormatting_eq {name : String} (h : Ready b (.html name :: path))
    (hmark : (ElementName.html name).setsMark = false) :
    ∃ entries, Tracks b.pop.stack path entries ∧
      b.closeFormatting name = { b.pop with formatting := entries } := by
  obtain ⟨rest, hstack, hpop, hname⟩ := h.exists_stack
  have htracks := h.tracks
  have hnodup := h.nodup
  rw [hstack] at htracks hnodup
  rw [hpop]
  have hcurrent : b.currentIs name = true := by simp [currentIs, isNamed, hname]
  have hfresh : b.current ∉ rest := (List.nodup_cons.1 hnodup).1
  have hforgotten {entries : List FormatEntry} (hbelow : Tracks rest path entries) :
      ∀ entry ∈ entries, isEntryOf b.current entry = false := by
    intro entry hentry
    rw [← Bool.not_eq_true]
    exact fun hcell => hfresh (hbelow.mem_of_isEntryOf hentry hcell)
  generalize hentries : b.formatting = entries at htracks
  -- Either nothing is remembered of the element or its entry is the newest.
  cases htracks with
  | plain _ hbelow =>
      have hforget : b.isFormatting b.current = false := by
        rw [isFormatting, hentries, List.any_eq_false]
        exact fun entry hentry => by simp [hforgotten hbelow entry hentry]
      refine ⟨entries, hbelow, ?_⟩
      rw [closeFormatting, hcurrent, hforget, if_pos (by decide), ← hentries]
      rfl
  | @entry _ _ tag _ below _ hbelow =>
      have hremembered : b.isFormatting b.current = true := by
        simp [isFormatting, hentries, isEntryOf]
      have hscope : b.inScope ElementName.boundsScope (· == b.current) = true := by
        simp [inScope, hstack, inScope.search]
      have hkept : (FormatEntry.element b.current tag :: below).filter
          (fun entry => !isEntryOf b.current entry) = below := by
        rw [List.filter_cons_of_neg (by simp [isEntryOf]), List.filter_eq_self]
        exact fun entry hentry => by simp [hforgotten hbelow entry hentry]
      -- Nothing is open inside the element, so one round settles it.
      have hround : b.formattingRound tag.name =
          ({ b.pop with formatting := below }, true) := by
        have hfind : (recentFormatting b.formatting).find? (fun entry => entry.2.name == tag.name) =
            some (b.current, tag) := by
          rw [hentries, recentFormatting, List.find?_cons_of_pos (by simp)]
        have hopen : b.stack.contains b.current = true := by simp [hstack]
        have hinner : b.stack.takeWhile (· != b.current) = [] := by
          rw [hstack, List.takeWhile_cons_of_neg (by simp)]
        have hbelow : (b.stack.dropWhile (· != b.current)).drop 1 = b.stack.drop 1 := by
          rw [hstack, List.dropWhile_cons_of_neg (by simp)]
        rw [formattingRound, hfind]
        simp only [hopen, hscope, hinner, hbelow, Bool.not_true, Bool.false_eq_true, if_false,
          List.reverse_nil, List.all_nil]
        rw [splitFormatting, List.dropWhile_nil]
        simp only [forget, hentries, hkept]
        rfl
      refine ⟨below, hbelow, ?_⟩
      rw [closeFormatting, hcurrent, hremembered, if_neg (by decide), formattingRounds, hround]
  | mark hmark' _ => simp [hmark] at hmark'

end LiveTemplate.Markup.Builder
