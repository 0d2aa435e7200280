import LiveTemplate.Proofs.Markup.Tables

/-!
# Selection lists and foreign content that stay where they are

A selection list holds options and groups of options, each closed by its own end tag.  Elements of
graphics and formulas keep the case of their vocabulary, and their end tags are found among the
foreign elements.
-/

namespace LiveTemplate.Markup.Builder

variable {b : Builder} {path : List ElementName} {tag : Tag}

/-! ## Selection lists -/

theorem Standing.currentIs_eq (h : Standing b path) {name : String} (hname : name ≠ "html" ∧ name ≠ "body") :
    b.currentIs name = (hostAt path == .html name) := by
  refine h.apply_currentName (p := (· == .html name)) ?_
  rw [Bool.eq_iff_iff]
  simp [ElementName.html, hname.1.symm, hname.2.symm]

/-- An option, and a group of options, is opened behind what has been closed. -/
theorem Ready.selectRule_opened (h : Ready b path) (hoption : hostAt path ≠ .html "option")
    (hname : tag.name = "option" ∨ tag.name = "optgroup" ∧ hostAt path ≠ .html "optgroup") :
    ∃ b', b.selectRule (.startTag tag) = .done b' ∧
      Opened b b' path (.html tag.name) tag.attributes := by
  have hclosed : b.closeOption = b := by
    rw [closeOption, h.currentIs_eq (by decide), if_neg (by simpa using hoption)]
  have hplain (hnodes : insideOf (.html tag.name) = .nodes) (hmode : setsMode (.html tag.name) = false)
      (hmark : (ElementName.html tag.name).setsMark = false) (hform : tag.name ≠ "form")
      (hpart : (ElementName.html tag.name).isOneOf
        ["td", "th", "tr", "tbody", "thead", "tfoot", "caption"] = false) :
      Opened b (b.openTag tag) path (.html tag.name) tag.attributes := by
    rw [h.openTag_eq hnodes]
    refine h.opened hnodes (fun hone => ?_) rfl rfl ⟨rfl, rfl, rfl, rfl⟩ (h.mode_eq hmode)
      (.plain hmark h.tracks) (h.form_eq hform) fun hskips => .inl hskips
    rw [hpart] at hone
    cases hone
  obtain ⟨name, attributes, selfClosing⟩ := tag
  obtain hname | ⟨hname, hgroup⟩ := hname
  · obtain rfl : name = "option" := hname
    have hstart : b.selectRule (.startTag ⟨"option", attributes, selfClosing⟩) =
        .done (b.closeOption.openTag ⟨"option", attributes, selfClosing⟩) := rfl
    exact ⟨_, by rw [hstart, hclosed], hplain rfl rfl rfl (by simp) rfl⟩
  · obtain rfl : name = "optgroup" := hname
    have hstart : b.selectRule (.startTag ⟨"optgroup", attributes, selfClosing⟩) =
        .done (b.closeOption.closeGroup.openTag ⟨"optgroup", attributes, selfClosing⟩) := rfl
    have hgroups : b.closeGroup = b := by
      rw [closeGroup, h.currentIs_eq (by decide), if_neg (by simpa using hgroup)]
    exact ⟨_, by rw [hstart, hclosed, hgroups], hplain rfl rfl rfl (by simp) rfl⟩

theorem Ready.selectRule_hr (h : Ready b path) (hoption : hostAt path ≠ .html "option")
    (hgroup : hostAt path ≠ .html "optgroup") (hname : tag.name = "hr") :
    b.selectRule (.startTag tag) =
      .done (b.hang { content := .element (.html tag.name) tag.attributes }) := by
  obtain ⟨name, attributes, selfClosing⟩ := tag
  obtain rfl : name = "hr" := hname
  have hstart : b.selectRule (.startTag ⟨"hr", attributes, selfClosing⟩) =
      .done (b.closeOption.closeGroup.addTag ⟨"hr", attributes, selfClosing⟩) := rfl
  have hclosed : b.closeOption = b := by
    rw [closeOption, h.currentIs_eq (by decide), if_neg (by simpa using hoption)]
  have hgroups : b.closeGroup = b := by
    rw [closeGroup, h.currentIs_eq (by decide), if_neg (by simpa using hgroup)]
  rw [hstart, hclosed, hgroups, h.addTag_eq (by simp)]

section

variable (hpath : path ≠ [])

include hpath

theorem Ready.optionEnd_closed (h : Ready b (.html "option" :: path)) :
    ∃ b', b.selectRule (.endTag "option") = .done b' ∧ Closed b b' path := by
  have hend : b.selectRule (.endTag "option") = .done b.closeOption := rfl
  refine ⟨b.pop, ?_, h.closed_pop hpath rfl rfl rfl (by decide)⟩
  rw [hend, closeOption, h.currentIs_eq (by decide), hostAt_cons hpath, beq_self_eq_true, if_pos rfl]

theorem Ready.groupEnd_closed (h : Ready b (.html "optgroup" :: path)) :
    ∃ b', b.selectRule (.endTag "optgroup") = .done b' ∧ Closed b b' path := by
  obtain ⟨rest, hstack, hpop, hname⟩ := h.exists_stack
  -- No option is open, so only the group is closed.
  have hend : b.selectRule (.endTag "optgroup") = .done b.closeGroup := by
    change Outcome.done (closeGroup _) = _
    congr 2
    rw [hstack]
    cases rest with
    | nil => rfl
    | cons outer rest =>
        have hnot : b.isNamed b.current "option" = false := by
          simp [isNamed, hname, ElementName.html]
        simp only [hnot, Bool.false_and, Bool.false_eq_true, if_false]
  refine ⟨b.pop, ?_, h.closed_pop hpath rfl rfl rfl (by decide)⟩
  rw [hend, closeGroup, h.currentIs_eq (by decide), hostAt_cons hpath, beq_self_eq_true,
    if_pos rfl]

theorem Ready.selectEnd_closed (h : Ready b (.html "select" :: path)) :
    ∃ b', b.selectRule (.endTag "select") = .done b' ∧ Closed b b' path := by
  have hend : b.selectRule (.endTag "select") =
      .done (if b.hasSelect then b.closeSelect else b) := rfl
  have hopen : b.hasSelect = true := h.hasInScope_current _
  refine ⟨b.pop.resetMode, ?_, h.resetMode_closed hpath rfl rfl (by decide)⟩
  rw [hend, if_pos hopen, closeSelect, h.popThroughNamed_eq]

end

/-! ## Foreign content -/

theorem isOneOf_of_foreign {element : ElementName} (h : element.vocabulary ≠ .html)
    (names : List String) : element.isOneOf names = false := by
  simp [ElementName.isOneOf, h]

theorem insideOf_of_foreign {element : ElementName} (h : element.vocabulary ≠ .html) :
    insideOf element = .nodes := by
  simp [insideOf, isOneOf_of_foreign h]

theorem Standing.takesForeign_startTag (h : Standing b path) (tag : Tag) :
    b.takesForeign (.startTag tag) = opensForeign path tag.name := by
  simp only [takesForeign, opensForeign, h.adjustedCurrentName_eq]
  cases hhost : (hostAt path).vocabulary <;> simp

/-- A foreign element is opened. -/
theorem Ready.openForeign_opened (h : Ready b path) {element : ElementName}
    (hforeign : element.vocabulary ≠ .html) (hclosing : tag.selfClosing = false) :
    Opened b (b.openForeign element tag) path element (attributesAt element tag.attributes) := by
  have hne (name : String) : element ≠ .html name := by
    rintro rfl
    exact hforeign rfl
  have hopen : b.openForeign element tag =
      (b.hang { content := .element element (attributesAt element tag.attributes) }).push
        b.cells.size := by
    rw [openForeign, hclosing, attributesAt, if_neg hforeign]
    exact h.openElement_eq (hne _) _
  rw [hopen]
  refine h.opened (insideOf_of_foreign hforeign) (fun hone => ?_) rfl rfl ⟨rfl, rfl, rfl, rfl⟩
    (h.mode_eq (isOneOf_of_foreign hforeign _)) (.plain (isOneOf_of_foreign hforeign _) h.tracks) ?_
    fun hskips => .inl hskips
  · rw [isOneOf_of_foreign hforeign] at hone
    cases hone
  · rw [openForm, if_neg (hne _)]
    exact h.form

/-- A start tag among foreign elements that does not close them. -/
theorem Ready.foreignRule_opened (h : Ready b path) (hforeign : opensForeign path tag.name = true)
    (hbreaks : breaksOut tag = false) (hclosing : tag.selfClosing = false) :
    ∃ b', b.rule (.startTag tag) = .done b' ∧
      Opened b b' path (elementAt path tag.name)
        (attributesAt (elementAt path tag.name) tag.attributes) := by
  have hvocabulary : (elementAt path tag.name).vocabulary ≠ .html := by
    rw [elementAt, if_pos hforeign]
    simp only [opensForeign, Bool.and_eq_true, bne_iff_ne] at hforeign
    exact hforeign.1
  refine ⟨_, ?_, h.openForeign_opened hvocabulary hclosing⟩
  rw [rule, h.takesForeign_startTag, hforeign, if_pos rfl, foreignRule, hbreaks,
    if_neg (by decide), foreignStartTag, h.adjustedCurrentName_eq, elementAt, hforeign, if_pos rfl]

/-- The start tag of graphics or of a formula in ordinary content. -/
theorem Ready.bodyStart_foreign (h : Ready b path) (hname : tag.name = "svg" ∨ tag.name = "math")
    (hforeign : opensForeign path tag.name = false) (hclosing : tag.selfClosing = false) :
    Opened b (b.bodyStart tag) path (elementAt path tag.name)
      (attributesAt (elementAt path tag.name) tag.attributes) := by
  have hvocabulary : (elementAt path tag.name).vocabulary ≠ .html := by
    rw [elementAt, hforeign, if_neg (by decide)]
    obtain hname | hname := hname <;> simp [hname]
  have hstart : b.bodyStart tag = b.openForeign (elementAt path tag.name) tag := by
    rw [elementAt, hforeign, if_neg (by decide)]
    obtain ⟨name, attributes, selfClosing⟩ := tag
    obtain hname | hname := hname
    · obtain rfl : name = "svg" := hname
      rfl
    · obtain rfl : name = "math" := hname
      rfl
  rw [hstart]
  exact h.openForeign_opened hvocabulary hclosing

/-- The end tag of the innermost foreign element. -/
theorem Ready.foreignRule_closed {element : ElementName} {name : String}
    (h : Ready b (element :: path)) (hpath : path ≠ []) (hforeign : element.vocabulary ≠ .html)
    (hname : lower element.name.toList = name) (hbreaks : name ≠ "br" ∧ name ≠ "p") :
    ∃ b', b.rule (.endTag name) = .done b' ∧ Closed b b' path := by
  obtain ⟨rest, hstack, hpop, hcurrent⟩ := h.exists_stack
  have htakes : b.takesForeign (.endTag name) = true := by
    simp only [takesForeign, h.adjustedCurrentName_eq, hostAt_cons hpath]
    rw [if_neg (by simpa using hforeign)]
  have hrest : ∃ id more, rest = id :: more := by
    refine List.exists_cons_of_ne_nil ?_
    rintro rfl
    have hnames := h.names
    rw [hstack, List.map_cons] at hnames
    exact hpath (List.cons.inj hnames).2.symm
  have hbelow : b.foreignEndStack name b.stack true = some rest := by
    obtain ⟨id, more, rfl⟩ := hrest
    rw [hstack, foreignEndStack, hcurrent]
    · simp [hname]
    · simp
  refine ⟨b.pop, ?_, ?_⟩
  · rw [rule, htakes, if_pos rfl, foreignRule, if_neg (by simpa using hbreaks), hbelow, ← hpop]
    rfl
  · have hform : element ≠ .html "form" := by
      rintro rfl
      exact hforeign rfl
    obtain ⟨htracks, hopen⟩ := h.exists_tracks
    rw [openForm, if_neg hform] at hopen
    exact h.closed hpath rfl rfl ⟨rfl, rfl, rfl, rfl⟩
      (h.mode.trans (modeAt_cons hpath (isOneOf_of_foreign hforeign _)))
      (htracks.tail (isOneOf_of_foreign hforeign _) fun hhtml => absurd hhtml hforeign) hopen rfl

end LiveTemplate.Markup.Builder
