import LiveTemplate.Proofs.Markup.Leaves

/-!
# Tables that stay where they are

A part of a table that is opened directly inside the part around it implies no other part, and its
end tag closes it alone.
-/

namespace LiveTemplate.Markup.Builder

variable {b : Builder} {path : List ElementName} {tag : Tag}

/-- The host is one of some elements, none of which is the body. -/
theorem exists_of_hostAt {names : List String} (h : (hostAt path).isOneOf names = true)
    (hnames : (names.contains "body" || names.contains "") = false) :
    ∃ element outer, path = element :: outer ∧ outer ≠ [] ∧ element.isOneOf names = true := by
  obtain ⟨hbody, hempty⟩ := Bool.or_eq_false_iff.1 hnames
  rcases path with _ | ⟨element, _ | ⟨next, outer⟩⟩
  · rw [hostAt, isOneOf_html, hempty] at h
    cases h
  · rw [hostAt, isOneOf_html, hbody] at h
    cases h
  · exact ⟨element, next :: outer, rfl, by simp, h⟩

/-! ## Opening parts -/

section

variable (h : Ready b path)

include h

/-- A part of a table is opened where the part around it is the innermost element. -/
theorem Ready.part_opened {mode : Mode} (hnodes : insideOf (.html tag.name) = .nodes)
    (htable : .html "table" ∈ path) (hmode : mode = modeAt (.html tag.name :: path))
    (hmark : (ElementName.html tag.name).setsMark = false) (hform : tag.name ≠ "form") :
    Opened b { b.openTag tag with mode } path (.html tag.name) tag.attributes := by
  rw [h.openTag_eq hnodes]
  exact h.opened hnodes (fun _ => htable) rfl rfl ⟨rfl, rfl, rfl, rfl⟩ hmode (.plain hmark h.tracks)
    (h.form_eq hform) fun hskips => .inl hskips

/-- The inside of a caption is apart from the formatting around it. -/
theorem Ready.caption_opened (hname : tag.name = "caption") (htable : .html "table" ∈ path) :
    Opened b { b.pushMark.openTag tag with mode := .inCaption } path (.html tag.name)
      tag.attributes := by
  have hstanding : Standing b.pushMark path := h.of_same rfl rfl rfl
  have hmode : Mode.inCaption = modeAt (.html "caption" :: path) := by
    obtain ⟨outer, more, rfl⟩ := List.exists_cons_of_ne_nil h.path_ne_nil
    rfl
  rw [openTag, hname, hstanding.openElement_eq (by decide)]
  exact h.opened rfl (fun _ => htable) rfl rfl ⟨rfl, rfl, rfl, rfl⟩ hmode (.mark rfl h.tracks)
    (h.form_eq (by decide)) fun hskips => .inl hskips

/-- So is the inside of a cell. -/
theorem Ready.cell_opened (hname : ["td", "th"].contains tag.name = true)
    (htable : .html "table" ∈ path) :
    Opened b { (b.openTag tag).pushMark with mode := .inCell } path (.html tag.name)
      tag.attributes := by
  have hfacts := of_contains (p := fun name => insideOf (.html name) == .nodes &&
    (ElementName.html name).setsMark && name != "form" && (ElementName.html name).isCell &&
    !(ElementName.html name).isOneOf ["select"]) hname rfl
  simp only [Bool.and_eq_true, beq_iff_eq, Bool.not_eq_true', bne_iff_ne] at hfacts
  obtain ⟨⟨⟨⟨hnodes, hmark⟩, hform⟩, hcell⟩, hselect⟩ := hfacts
  have hmode : Mode.inCell = modeAt (.html tag.name :: path) := by
    obtain ⟨outer, more, rfl⟩ := List.exists_cons_of_ne_nil h.path_ne_nil
    rw [modeAt, hselect, hcell]
    · rfl
    · simp
  rw [h.openTag_eq hnodes]
  exact h.opened hnodes (fun _ => htable) rfl rfl ⟨rfl, rfl, rfl, rfl⟩ hmode (.mark hmark h.tracks)
    (h.form_eq hform) fun hskips => .inl hskips

end

/-- The start tags of the parts of a table. -/
theorem Ready.tableRule_opened (h : Ready b path) (hhost : (hostAt path).isOneOf ["table"] = true)
    (hname : ["caption", "colgroup", "tbody", "tfoot", "thead"].contains tag.name = true) :
    ∃ b', b.tableRule (.startTag tag) = .done b' ∧
      Opened b b' path (.html tag.name) tag.attributes := by
  obtain ⟨name, attributes, selfClosing⟩ := tag
  obtain ⟨element, outer, rfl, houter, helement⟩ := exists_of_hostAt hhost rfl
  obtain rfl := eq_html_of_isOneOf helement
  have hclear : b.clearToTable = b := h.popTo_eq rfl
  simp only [List.contains_iff_mem, List.mem_cons, List.not_mem_nil, or_false] at hname
  obtain rfl | rfl | hgroup := hname
  · refine ⟨{ b.clearToTable.pushMark.openTag _ with mode := .inCaption }, rfl, ?_⟩
    rw [hclear]
    exact h.caption_opened rfl List.mem_cons_self
  · refine ⟨{ b.clearToTable.openTag _ with mode := .inColumnGroup }, rfl, ?_⟩
    rw [hclear]
    exact h.part_opened rfl List.mem_cons_self rfl rfl (by simp)
  · refine ⟨{ b.clearToTable.openTag ⟨name, attributes, selfClosing⟩ with mode := .inTableBody },
      ?_, ?_⟩
    · obtain rfl | rfl | rfl := hgroup <;> rfl
    · rw [hclear]
      obtain rfl | rfl | rfl := hgroup <;>
      exact h.part_opened rfl List.mem_cons_self rfl rfl (by simp)

theorem Ready.rowsRule_opened (h : Ready b path)
    (hhost : (hostAt path).isOneOf ["tbody", "tfoot", "thead"] = true) (hname : tag.name = "tr") :
    ∃ b', b.rowsRule (.startTag tag) = .done b' ∧
      Opened b b' path (.html tag.name) tag.attributes := by
  obtain ⟨name, attributes, selfClosing⟩ := tag
  obtain rfl : name = "tr" := hname
  obtain ⟨element, outer, rfl, houter, helement⟩ := exists_of_hostAt hhost rfl
  have hclear : b.clearToRows = b := h.popTo_eq (isOneOf_of_subset (by simp) helement)
  have htable : .html "table" ∈ outer := h.inTables.1 (isOneOf_of_subset (by simp) helement)
  refine ⟨{ b.clearToRows.openTag _ with mode := .inRow }, rfl, ?_⟩
  rw [hclear]
  exact h.part_opened rfl (List.mem_cons_of_mem _ htable) rfl rfl (by simp)

theorem Ready.rowRule_opened (h : Ready b path) (hhost : (hostAt path).isOneOf ["tr"] = true)
    (hname : ["td", "th"].contains tag.name = true) :
    ∃ b', b.rowRule (.startTag tag) = .done b' ∧
      Opened b b' path (.html tag.name) tag.attributes := by
  obtain ⟨name, attributes, selfClosing⟩ := tag
  obtain ⟨element, outer, rfl, houter, helement⟩ := exists_of_hostAt hhost rfl
  obtain rfl := eq_html_of_isOneOf helement
  have hclear : b.clearToRow = b := h.popTo_eq rfl
  have htable : .html "table" ∈ outer := h.inTables.1 rfl
  have hopened : Opened b
      { (b.openTag ⟨name, attributes, selfClosing⟩).pushMark with mode := .inCell } (.html "tr" :: outer)
      (.html name) attributes :=
    h.cell_opened hname (List.mem_cons_of_mem _ htable)
  refine ⟨{ (b.clearToRow.openTag ⟨name, attributes, selfClosing⟩).pushMark with mode := .inCell },
    ?_, by rw [hclear]; exact hopened⟩
  simp only [List.contains_iff_mem, List.mem_cons, List.not_mem_nil, or_false] at hname
  obtain rfl | rfl := hname <;> rfl

/-! ## Closing parts -/

theorem Ready.hasInTable_current {name : String} (h : Ready b (.html name :: path)) :
    b.hasInTable name = true :=
  h.hasInScope_current _

section

variable {element : ElementName} {mode : Mode} (h : Ready b (element :: path)) (hpath : path ≠ [])

include h hpath

/-- The end tag of a part of a table goes back to the mode around it. -/
theorem Ready.part_closed (hmode : mode = modeAt path) (hmark : element.setsMark = false)
    (hremembered : isRemembered element.name = false) (hform : element ≠ .html "form") :
    Closed b { b.pop with mode } path := by
  obtain ⟨htracks, hopen⟩ := h.exists_tracks
  rw [openForm, if_neg hform] at hopen
  exact h.closed hpath rfl rfl ⟨rfl, rfl, rfl, rfl⟩ hmode (htracks.tail hmark fun _ => hremembered)
    hopen rfl

/-- The end tag of a cell or a caption also goes back to the formatting around it. -/
theorem Ready.markedPart_closed (hmode : mode = modeAt path) (hmark : element.setsMark = true)
    (hform : element ≠ .html "form") :
    Closed b { b.pop.clearToMark with mode } path := by
  obtain ⟨htracks, hopen⟩ := h.exists_tracks
  rw [openForm, if_neg hform] at hopen
  exact h.closed hpath rfl rfl ⟨rfl, rfl, rfl, rfl⟩ hmode (htracks.clearToMark_eq hmark) hopen rfl

/-- The end tag of a table or a selection list goes back to the mode that the elements around it
call for. -/
theorem Ready.resetMode_closed (hmark : element.setsMark = false)
    (hremembered : isRemembered element.name = false) (hform : element ≠ .html "form") :
    Closed b b.pop.resetMode path := by
  have hmode : resetMode.search b.pop b.pop.stack = modeAt path :=
    (h.toStanding.pop hpath).search_eq_modeAt fun hmem =>
      h.not_mem_template (List.mem_cons_of_mem _ hmem)
  exact h.part_closed hpath hmode hmark hremembered hform

end

section

variable (hpath : path ≠ [])

include hpath

theorem Ready.tableRule_closed (h : Ready b (.html "table" :: path)) :
    ∃ b', b.tableRule (.endTag "table") = .done b' ∧ Closed b b' path := by
  have hend : b.tableRule (.endTag "table") =
      if b.hasInTable "table" then .done (b.popThroughNamed "table").resetMode else .done b := rfl
  refine ⟨b.pop.resetMode, ?_, h.resetMode_closed hpath rfl rfl (by decide)⟩
  rw [hend, if_pos h.hasInTable_current, h.popThroughNamed_eq]

theorem Ready.captionRule_closed (h : Ready b (.html "caption" :: path))
    (hmode : modeAt path = .inTable) :
    ∃ b', b.captionRule (.endTag "caption") = .done b' ∧ Closed b b' path := by
  have hend : b.captionRule (.endTag "caption") =
      if b.hasInTable "caption" then
        .done { ((b.closeImplied ElementName.hasImpliedEnd).popThroughNamed "caption").clearToMark
          with mode := .inTable }
      else .done b := rfl
  refine ⟨{ b.pop.clearToMark with mode := .inTable }, ?_,
    h.markedPart_closed hpath hmode.symm rfl (by decide)⟩
  rw [hend, if_pos h.hasInTable_current, h.closeImplied_popThroughNamed rfl]

theorem Ready.columnsRule_closed (h : Ready b (.html "colgroup" :: path))
    (hmode : modeAt path = .inTable) :
    ∃ b', b.columnsRule (.endTag "colgroup") = .done b' ∧ Closed b b' path := by
  have hend : b.columnsRule (.endTag "colgroup") =
      .done (if b.currentIs "colgroup" then { b.pop with mode := .inTable } else b) := rfl
  have hcurrent : b.currentIs "colgroup" = true := by
    rw [currentIs, isNamed, ← currentName, h.currentName_cons, beq_self_eq_true]
  refine ⟨{ b.pop with mode := .inTable }, ?_, h.part_closed hpath hmode.symm rfl rfl (by decide)⟩
  rw [hend, if_pos hcurrent]

theorem Ready.rowsRule_closed {name : String} (h : Ready b (.html name :: path))
    (hmode : modeAt path = .inTable) (hname : ["tbody", "tfoot", "thead"].contains name = true) :
    ∃ b', b.rowsRule (.endTag name) = .done b' ∧ Closed b b' path := by
  have hclear : b.clearToRows = b := by
    have hrows : (ElementName.html name).isOneOf ["tbody", "tfoot", "thead"] = true := by
      rw [isOneOf_html]
      exact hname
    exact h.popTo_eq (isOneOf_of_subset (by simp) hrows)
  have hend : b.rowsRule (.endTag name) =
      .done (if b.hasInTable name then { b.clearToRows.pop with mode := .inTable } else b) := by
    simp only [List.contains_iff_mem, List.mem_cons, List.not_mem_nil, or_false] at hname
    obtain rfl | rfl | rfl := hname <;> rfl
  refine ⟨{ b.pop with mode := .inTable }, by rw [hend, if_pos h.hasInTable_current, hclear], ?_⟩
  simp only [List.contains_iff_mem, List.mem_cons, List.not_mem_nil, or_false] at hname
  obtain rfl | rfl | rfl := hname <;>
  exact h.part_closed hpath hmode.symm rfl rfl (by decide)

theorem Ready.rowRule_closed (h : Ready b (.html "tr" :: path)) (hmode : modeAt path = .inTableBody) :
    ∃ b', b.rowRule (.endTag "tr") = .done b' ∧ Closed b b' path := by
  have hclear : b.clearToRow = b := h.popTo_eq rfl
  have hend : b.rowRule (.endTag "tr") =
      .done (if b.hasInTable "tr" then { b.clearToRow.pop with mode := .inTableBody } else b) := rfl
  refine ⟨{ b.pop with mode := .inTableBody }, ?_, h.part_closed hpath hmode.symm rfl rfl (by decide)⟩
  rw [hend, if_pos h.hasInTable_current, hclear]

theorem Ready.cellRule_closed {name : String} (h : Ready b (.html name :: path))
    (hmode : modeAt path = .inRow) (hname : ["td", "th"].contains name = true) :
    ∃ b', b.cellRule (.endTag name) = .done b' ∧ Closed b b' path := by
  have hend : b.cellRule (.endTag name) =
      if b.hasInTable name then
        .done { ((b.closeImplied ElementName.hasImpliedEnd).popThroughNamed name).clearToMark with
          mode := .inRow }
      else .done b := by
    simp only [List.contains_iff_mem, List.mem_cons, List.not_mem_nil, or_false] at hname
    obtain rfl | rfl := hname <;> rfl
  simp only [List.contains_iff_mem, List.mem_cons, List.not_mem_nil, or_false] at hname
  refine ⟨{ b.pop.clearToMark with mode := .inRow }, ?_, ?_⟩
  · rw [hend, if_pos h.hasInTable_current]
    obtain rfl | rfl := hname <;> rw [h.closeImplied_popThroughNamed rfl]
  · obtain rfl | rfl := hname <;> exact h.markedPart_closed hpath hmode.symm rfl (by decide)

end

end LiveTemplate.Markup.Builder
