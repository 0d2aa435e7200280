import LiveTemplate.Proofs.Markup.Formatting

/-!
# Ordinary content that stays where it is

A start tag that disturbs nothing opens its element below the innermost open one, and the end tag of
the innermost element closes it alone.
-/

namespace LiveTemplate.Markup.Builder

variable {b : Builder} {path : List ElementName} {tag : Tag}

/-! ## One look at a token -/

/-- What becomes of a token when it is looked at once. -/
def rule (b : Builder) (token : Token) : Outcome :=
  if b.takesForeign token then b.foreignRule token else b.modeRule token

/-- A token that is used up at the first look. -/
theorem accept_of_rule {b' : Builder} {token : Token} (h : b.rule token = .done b') :
    b.accept token = b' := by
  rw [accept, show 4 * b.stack.length + 8 = 4 * b.stack.length + 7 + 1 from rfl, handle]
  rw [rule] at h
  simp only [h]

/-- A token that is used up at the second look. -/
theorem accept_of_rule_again {b' b'' : Builder} {token : Token} (h : b.rule token = .again b')
    (h' : b'.rule token = .done b'') : b.accept token = b'' := by
  rw [accept, show 4 * b.stack.length + 8 = 4 * b.stack.length + 6 + 1 + 1 from rfl, handle]
  rw [rule] at h h'
  simp only [h, handle, h']

/-- Inside an ordinary element the mode decides. -/
theorem Standing.rule_eq (h : Standing b path) (hhost : (hostAt path).vocabulary = .html)
    (token : Token) : b.rule token = b.modeRule token := by
  have houtside : b.takesForeign token = false := by
    simp only [takesForeign, h.adjustedCurrentName_eq, hhost, beq_self_eq_true, if_true]
  rw [rule, houtside, if_neg (by decide)]

/-! ## Start tags -/

/-- Start tags that do more than open an element, for elements that hold nodes. -/
def opensSpecially : List String :=
  ["a", "applet", "b", "big", "code", "em", "font", "form", "i", "listing", "marquee", "math",
   "nobr", "object", "pre", "s", "select", "small", "strike", "strong", "svg", "table", "tt", "u"]

/-- A start tag that opens an element in ordinary content disturbs nothing. -/
structure Undisturbed (path : List ElementName) (name : String) : Prop where
  misplaced : isMisplaced name = false
  plaintext : name ≠ "plaintext"
  image : name ≠ "image"
  paragraph : endsParagraph name = true →
    scopeHasNamed ElementName.boundsButtonScope "p" path = false
  heading : (ElementName.html name).isHeading = true → (hostAt path).isHeading = false
  form : name = "form" → .html "form" ∉ path
  listItem : name = "li" → itemIsOpen ["li"] path = false
  definition : name = "dd" ∨ name = "dt" → itemIsOpen ["dd", "dt"] path = false
  link : name = "a" → linkIsOpen path = false
  button : name = "button" ∨ name = "nobr" →
    scopeHasNamed ElementName.boundsScope name path = false
  option : name = "option" ∨ name = "optgroup" → hostAt path ≠ .html "option"
  rubyBase : name = "rb" ∨ name = "rtc" → scopeHasNamed ElementName.boundsScope "ruby" path = true →
    (hostAt path).hasImpliedEnd = false
  rubyText : name = "rp" ∨ name = "rt" → scopeHasNamed ElementName.boundsScope "ruby" path = true →
    ((hostAt path).hasImpliedEnd && (hostAt path).name != "rtc") = false

theorem undisturbed_of_disturbsBody {path : List ElementName} {name : String}
    (h : disturbsBody path name = false) : Undisturbed path name := by
  simp only [disturbsBody, Bool.or_eq_false_iff, Bool.and_eq_false_iff, beq_eq_false_iff_ne] at h
  obtain ⟨⟨⟨⟨⟨⟨⟨⟨⟨⟨⟨⟨h1, h2⟩, h3⟩, h4⟩, h5⟩, h6⟩, h7⟩, h8⟩, h9⟩, h10⟩, h11⟩, h12⟩, h13⟩ := h
  constructor
  · exact h1
  · exact h2
  · exact h3
  all_goals grind

section bodyStart

variable (h : Ready b path)

include h

/-- Where no paragraph is open none is closed. -/
theorem Ready.closeParagraphInScope_eq
    (hparagraph : scopeHasNamed ElementName.boundsButtonScope "p" path = false) :
    b.closeParagraphInScope = b := by
  rw [closeParagraphInScope, h.hasInScope_eq, hparagraph, if_neg (by decide)]

/-! ### What an undisturbed start tag leaves open -/

theorem Ready.popHeading_eq (hfits : Undisturbed path tag.name)
    (hheading : (ElementName.html tag.name).isHeading = true) :
    (if b.currentName.isHeading = true then b.pop else b) = b := by
  rw [h.apply_currentName (p := ElementName.isHeading) rfl, hfits.heading hheading,
    if_neg (by decide)]

theorem Ready.closeButton_eq (hfits : Undisturbed path tag.name) (hname : tag.name = "button") :
    (if b.hasInScope ElementName.boundsScope "button" = true then
      (b.closeImplied ElementName.hasImpliedEnd).popThroughNamed "button" else b) = b := by
  have hscope : b.hasInScope ElementName.boundsScope "button" = false := by
    rw [h.hasInScope_eq, ← hname]
    exact hfits.button (.inl hname)
  rw [hscope, if_neg (by decide)]

theorem Ready.popOption_eq (hfits : Undisturbed path tag.name)
    (hname : tag.name = "option" ∨ tag.name = "optgroup") :
    (if b.currentIs "option" = true then b.pop else b) = b := by
  have hcurrent : b.currentIs "option" = false :=
    (h.apply_currentName (p := (· == .html "option")) rfl).trans
      (beq_eq_false_iff_ne.2 (hfits.option hname))
  rw [hcurrent, if_neg (by decide)]

theorem Ready.closeRubyBase_eq (hfits : Undisturbed path tag.name)
    (hname : tag.name = "rb" ∨ tag.name = "rtc") :
    (if b.hasInScope ElementName.boundsScope "ruby" = true then
      b.closeImplied ElementName.hasImpliedEnd else b) = b := by
  rw [h.hasInScope_eq]
  split
  · rename_i hruby
    exact h.closeImplied_of_currentName
      ((h.apply_currentName (p := ElementName.hasImpliedEnd) rfl).trans (hfits.rubyBase hname hruby))
  · rfl

theorem Ready.closeRubyText_eq (hfits : Undisturbed path tag.name)
    (hname : tag.name = "rp" ∨ tag.name = "rt") :
    (if b.hasInScope ElementName.boundsScope "ruby" = true then b.closeImpliedExcept "rtc" else b) =
      b := by
  rw [h.hasInScope_eq]
  split
  · rename_i hruby
    exact h.closeImplied_of_currentName ((h.apply_currentName
      (p := fun element => element.hasImpliedEnd && element.name != "rtc") rfl).trans
      (hfits.rubyText hname hruby))
  · rfl

/-- A start tag that does no more than open its element. -/
theorem Ready.bodyStart_eq_openTag (hfits : Undisturbed path tag.name)
    (hnodes : insideOf (.html tag.name) = .nodes) (hplain : tag.name ∉ opensSpecially) :
    b.bodyStart tag = b.openTag tag := by
  -- Elements of another kind have other names.
  have hother {names : List String}
      (hnames : (names.all fun name => insideOf (.html name) != .nodes ||
        opensSpecially.contains name) = true) : names.contains tag.name = false := by
    rw [← Bool.not_eq_true, List.contains_iff_mem]
    intro hmem
    have := List.all_eq_true.1 hnames _ hmem
    simp [hnodes, hplain] at this
  have hname {name : String} (hone : (insideOf (.html name) != .nodes ||
      opensSpecially.contains name) = true) : (tag.name == name) = false := by
    rw [beq_eq_false_iff_ne]
    rintro rfl
    simp [hnodes, hplain] at hone
  have hparagraph (hends : endsParagraph tag.name = true) : b.closeParagraphInScope = b :=
    h.closeParagraphInScope_eq (hfits.paragraph hends)
  unfold bodyStart
  change ite _ _ _ = _
  rw [if_neg (by simp [hfits.misplaced]), if_neg (by rw [isMetadata, hother rfl]; decide)]
  by_cases hblock : isBlock tag.name = true
  · rw [if_pos hblock, hparagraph (by simp [endsParagraph, hblock])]
  rw [if_neg hblock]
  by_cases hheading : (ElementName.html tag.name).isHeading = true
  · rw [if_pos hheading, hparagraph (by simp [endsParagraph, hheading])]
    exact congrArg (openTag · tag) (h.popHeading_eq hfits hheading)
  rw [if_neg hheading, if_neg (by rw [hname rfl, hname rfl]; decide),
    if_neg (by rw [hname rfl]; decide)]
  by_cases hitem : (tag.name == "li") = true
  · have hli : tag.name = "li" := eq_of_beq hitem
    rw [if_pos hitem, h.closeItem_eq (hfits.listItem hli), hparagraph (by rw [hli]; decide)]
  rw [if_neg hitem]
  by_cases hdefinition : (tag.name == "dd" || tag.name == "dt") = true
  · have hdef : tag.name = "dd" ∨ tag.name = "dt" := by simpa using hdefinition
    rw [if_pos hdefinition, h.closeItem_eq (hfits.definition hdef),
      hparagraph (by rcases hdef with hd | hd <;> rw [hd] <;> decide)]
  rw [if_neg hdefinition, if_neg (by simpa using hfits.plaintext)]
  by_cases hbutton : (tag.name == "button") = true
  · have hb : tag.name = "button" := eq_of_beq hbutton
    rw [if_pos hbutton]
    refine (congrArg (fun b => b.reopenFormatting.openTag tag) (h.closeButton_eq hfits hb)).trans ?_
    rw [h.reopenFormatting_eq]
  rw [if_neg hbutton, if_neg (by rw [hname rfl]; decide),
    if_neg (by rw [isFormattingName, hother rfl]; decide),
    if_neg (by rw [hname rfl]; decide), if_neg (by rw [hother rfl]; decide),
    if_neg (by rw [hname rfl]; decide), if_neg (by rw [hother rfl]; decide),
    if_neg (by rw [hother rfl]; decide), if_neg (by rw [hname rfl]; decide),
    if_neg (by simpa using hfits.image), if_neg (by rw [hname rfl]; decide),
    if_neg (by rw [hname rfl]; decide), if_neg (by rw [hother rfl]; decide),
    if_neg (by rw [hname rfl]; decide)]
  by_cases hoption : (tag.name == "optgroup" || tag.name == "option") = true
  · have ho : tag.name = "option" ∨ tag.name = "optgroup" := by grind
    rw [if_pos hoption, h.popOption_eq hfits ho, h.reopenFormatting_eq]
  rw [if_neg hoption]
  by_cases hbase : (tag.name == "rb" || tag.name == "rtc") = true
  · have hr : tag.name = "rb" ∨ tag.name = "rtc" := by simpa using hbase
    rw [if_pos hbase, h.closeRubyBase_eq hfits hr]
  rw [if_neg hbase]
  by_cases htext : (tag.name == "rp" || tag.name == "rt") = true
  · have hr : tag.name = "rp" ∨ tag.name = "rt" := by simpa using htext
    rw [if_pos htext, h.closeRubyText_eq hfits hr]
  rw [if_neg htext, if_neg (by rw [hname rfl]; decide), if_neg (by rw [hname rfl]; decide),
    h.reopenFormatting_eq]

/-- A formatting element is opened and remembered. -/
theorem Ready.bodyStart_eq_openFormatting (hfits : Undisturbed path tag.name)
    (hremembered : isRemembered tag.name = true) : b.bodyStart tag = b.openFormatting tag := by
  obtain ⟨name, attributes, selfClosing⟩ := tag
  have hcases : name = "a" ∨ name = "nobr" ∨ isFormattingName name = true := by
    simpa [isRemembered, or_assoc] using hremembered
  obtain rfl | rfl | hname := hcases
  · change b.closeOpenLink.reopenFormatting.openFormatting _ = _
    rw [h.closeOpenLink_eq (hfits.link rfl), h.reopenFormatting_eq]
  · have hscope : b.hasInScope ElementName.boundsScope "nobr" = false :=
      (h.hasInScope_eq _ _).trans (hfits.button (.inr rfl))
    change (if b.reopenFormatting.hasInScope ElementName.boundsScope "nobr" = true then
      (b.reopenFormatting.closeFormatting "nobr").reopenFormatting
      else b.reopenFormatting).openFormatting _ = _
    rw [h.reopenFormatting_eq, hscope, if_neg (by decide)]
  · have hstart : b.bodyStart ⟨name, attributes, selfClosing⟩ =
        b.reopenFormatting.openFormatting ⟨name, attributes, selfClosing⟩ := by
      simp only [isFormattingName, List.contains_iff_mem, List.mem_cons, List.not_mem_nil,
        or_false] at hname
      obtain rfl | rfl | rfl | rfl | rfl | rfl | rfl | rfl | rfl | rfl | rfl | rfl := hname <;> rfl
    rw [hstart, h.reopenFormatting_eq]

end bodyStart

/-- What an element is not that holds nodes in ordinary content and is only opened. -/
structure Plain (name : String) : Prop where
  setsMode : setsMode (.html name) = false
  setsMark : (ElementName.html name).setsMark = false
  isRemembered : isRemembered name = false
  form : name ≠ "form"
  preformatted : ["pre", "listing"].contains name = false

theorem Undisturbed.plain {name : String} (hfits : Undisturbed path name)
    (hplain : name ∉ opensSpecially) : Plain name := by
  have hnone := not_contains_of_all
    (p := fun name => isMisplaced name || opensSpecially.contains name)
    (show (isMisplaced name || opensSpecially.contains name) = false by
      simp [hfits.misplaced, hplain])
  refine ⟨?_, ?_, ?_, ?_, hnone _ rfl⟩
  · rw [Builder.setsMode, isOneOf_html]
    exact hnone _ rfl
  · rw [ElementName.setsMark, isOneOf_html]
    exact hnone _ rfl
  · have := hnone ["a", "nobr", "b", "big", "code", "em", "font", "i", "s", "small",
      "strike", "strong", "tt", "u"] rfl
    simpa [Builder.isRemembered, isFormattingName, and_assoc] using this
  · rintro rfl
    exact hplain (by decide)

/-- Modes in which content is ordinary. -/
def isBodyMode (mode : Mode) : Prop := mode = .inBody ∨ mode = .inCell ∨ mode = .inCaption

/-- No part of a table is opened in ordinary content. -/
theorem Undisturbed.not_tablePart {name : String} (hfits : Undisturbed path name) :
    (ElementName.html name).isOneOf ["td", "th", "tr", "tbody", "thead", "tfoot", "caption"] =
      false := by
  rw [isOneOf_html]
  exact not_contains_of_all hfits.misplaced _ rfl

/-- Only tables and selection lists have a mode of their own there. -/
theorem Undisturbed.setsMode {name : String} (hfits : Undisturbed path name)
    (hown : name ≠ "table" ∧ name ≠ "select") : setsMode (.html name) = false := by
  rw [Builder.setsMode, isOneOf_html]
  exact not_contains_of_all
    (p := fun name => isMisplaced name || name == "table" || name == "select")
    (by simp [hfits.misplaced, hown]) _ rfl

section Opened

variable (h : Ready b path)

include h

theorem Ready.openTag_eq (hnodes : insideOf (.html tag.name) = .nodes) :
    b.openTag tag =
      (b.hang { content := .element (.html tag.name) tag.attributes }).push b.cells.size := by
  refine h.openElement_eq (fun hname => ?_) tag.attributes
  rw [hname] at hnodes
  exact absurd hnodes (by decide)

/-- The form is the innermost one, whatever else is opened inside. -/
theorem Ready.form_eq {id : Nat} {name : String} (hname : name ≠ "form") :
    b.form = openForm (id :: b.stack) (.html name :: path) := by
  rw [openForm, if_neg (by simpa [ElementName.html] using hname)]
  exact h.form

theorem Ready.mode_eq {element : ElementName} (helement : setsMode element = false) :
    b.mode = modeAt (element :: path) := by
  rw [modeAt_cons h.path_ne_nil helement]
  exact h.mode

variable (hfits : Undisturbed path tag.name)

include hfits

theorem Ready.bodyStart_remembered (hremembered : isRemembered tag.name = true) :
    Opened b (b.bodyStart tag) path (.html tag.name) tag.attributes := by
  have hnodes : insideOf (.html tag.name) = .nodes := by
    simpa using of_isRemembered (p := fun name => insideOf (.html name) == .nodes) hremembered rfl
  have hmode : setsMode (.html tag.name) = false := by
    simpa using of_isRemembered (p := fun name => !setsMode (.html name)) hremembered rfl
  have hform : tag.name ≠ "form" := by
    simpa using of_isRemembered (p := fun name => name != "form") hremembered rfl
  have htemplate : tag.name ≠ "template" := by
    simpa using of_isRemembered (p := fun name => name != "template") hremembered rfl
  obtain ⟨entries, htracks, hopen⟩ := h.openFormatting_eq htemplate
  rw [h.bodyStart_eq_openFormatting hfits hremembered, hopen]
  refine h.opened hnodes (fun hpart => ?_) rfl rfl ⟨rfl, rfl, rfl, rfl⟩ (h.mode_eq hmode)
    (.entry hremembered htracks) (h.form_eq hform) fun hskips => .inl hskips
  simp [hfits.not_tablePart] at hpart

/-- The inside of an object is apart from the formatting around it. -/
theorem Ready.bodyStart_object (hname : ["applet", "marquee", "object"].contains tag.name = true) :
    Opened b (b.bodyStart tag) path (.html tag.name) tag.attributes := by
  obtain ⟨name, attributes, selfClosing⟩ := tag
  have hfacts := of_contains (p := fun name => insideOf (.html name) == .nodes &&
    !setsMode (.html name) && name != "form" && (ElementName.html name).setsMark) hname rfl
  simp only [Bool.and_eq_true, beq_iff_eq, Bool.not_eq_true', bne_iff_ne] at hfacts
  obtain ⟨⟨⟨hnodes, hmode⟩, hform⟩, hmark⟩ := hfacts
  have hstart : b.bodyStart ⟨name, attributes, selfClosing⟩ =
      (b.reopenFormatting.openTag ⟨name, attributes, selfClosing⟩).pushMark := by
    simp only [List.contains_iff_mem, List.mem_cons, List.not_mem_nil, or_false] at hname
    obtain rfl | rfl | rfl := hname <;> rfl
  rw [hstart, h.reopenFormatting_eq, h.openTag_eq hnodes]
  refine h.opened hnodes (fun hpart => ?_) rfl rfl ⟨rfl, rfl, rfl, rfl⟩ (h.mode_eq hmode)
    (.mark hmark h.tracks) (h.form_eq hform) fun hskips => .inl hskips
  simp [hfits.not_tablePart] at hpart

theorem Ready.bodyStart_preformatted (hname : ["pre", "listing"].contains tag.name = true) :
    Opened b (b.bodyStart tag) path (.html tag.name) tag.attributes := by
  obtain ⟨name, attributes, selfClosing⟩ := tag
  have hfacts := of_contains (p := fun name => insideOf (.html name) == .nodes &&
    !setsMode (.html name) && name != "form" && !(ElementName.html name).setsMark &&
    endsParagraph name) hname rfl
  simp only [Bool.and_eq_true, beq_iff_eq, Bool.not_eq_true', bne_iff_ne] at hfacts
  obtain ⟨⟨⟨⟨hnodes, hmode⟩, hform⟩, hmark⟩, hends⟩ := hfacts
  have hstart : b.bodyStart ⟨name, attributes, selfClosing⟩ =
      { b.closeParagraphInScope.openTag ⟨name, attributes, selfClosing⟩ with
        skipsLineFeed := true } := by
    simp only [List.contains_iff_mem, List.mem_cons, List.not_mem_nil, or_false] at hname
    obtain rfl | rfl := hname <;> rfl
  rw [hstart, h.closeParagraphInScope_eq (hfits.paragraph hends), h.openTag_eq hnodes]
  refine h.opened hnodes (fun hpart => ?_) rfl rfl ⟨rfl, rfl, rfl, rfl⟩ (h.mode_eq hmode)
    (.plain hmark h.tracks) (h.form_eq hform) fun _ => .inr (by rw [isOneOf_html]; exact hname)
  simp [hfits.not_tablePart] at hpart

theorem Ready.bodyStart_form (hname : tag.name = "form") :
    Opened b (b.bodyStart tag) path (.html tag.name) tag.attributes := by
  obtain ⟨name, attributes, selfClosing⟩ := tag
  obtain rfl : name = "form" := hname
  have hnone : b.form.isSome = false := by
    rw [h.form, openForm_eq_none (hfits.form rfl)]
    rfl
  have hopen : b.openTag ⟨"form", attributes, selfClosing⟩ = _ := h.openTag_eq rfl
  have hstanding := h.push_hang (.html "form") attributes
  have houtside : (b.openTag ⟨"form", attributes, selfClosing⟩).inTemplate = false := by
    rw [hopen, inTemplate, hstanding.any_isNamed_eq]
    simpa [ElementName.html] using h.not_mem_template
  have hstart : b.bodyStart ⟨"form", attributes, selfClosing⟩ =
      if b.form.isSome && !b.inTemplate then b
      else
        let b := b.closeParagraphInScope.openTag ⟨"form", attributes, selfClosing⟩
        if b.inTemplate then b else { b with form := some b.current } := rfl
  rw [hopen] at houtside
  rw [hstart, hnone, Bool.false_and, if_neg (by decide),
    h.closeParagraphInScope_eq (hfits.paragraph rfl)]
  simp only [hopen, houtside, Bool.false_eq_true, if_false]
  refine h.opened rfl (fun hpart => ?_) rfl rfl ⟨rfl, rfl, rfl, rfl⟩ (h.mode_eq rfl)
    (.plain rfl h.tracks) ?_ fun hskips => .inl hskips
  · cases hpart
  · simp [openForm, push, current]

theorem Ready.bodyStart_table (hname : tag.name = "table") :
    Opened b (b.bodyStart tag) path (.html tag.name) tag.attributes := by
  obtain ⟨name, attributes, selfClosing⟩ := tag
  obtain rfl : name = "table" := hname
  have hstart : b.bodyStart ⟨"table", attributes, selfClosing⟩ =
      { b.closeParagraphInScope.openTag ⟨"table", attributes, selfClosing⟩ with mode := .inTable } :=
    rfl
  rw [hstart, h.closeParagraphInScope_eq (hfits.paragraph rfl), h.openTag_eq rfl]
  refine h.opened rfl (fun hpart => ?_) rfl rfl ⟨rfl, rfl, rfl, rfl⟩ ?_
    (.plain rfl h.tracks) (h.form_eq (by simp)) fun hskips => .inl hskips
  · cases hpart
  · obtain ⟨outer, more, rfl⟩ := List.exists_cons_of_ne_nil h.path_ne_nil
    rfl

omit hfits in
theorem Ready.bodyStart_select (hmode : isBodyMode (modeAt path)) (hname : tag.name = "select") :
    Opened b (b.bodyStart tag) path (.html tag.name) tag.attributes := by
  obtain ⟨name, attributes, selfClosing⟩ := tag
  obtain rfl : name = "select" := hname
  have hstart : b.bodyStart ⟨"select", attributes, selfClosing⟩ =
      { b.reopenFormatting.openTag ⟨"select", attributes, selfClosing⟩ with
        mode := if [Mode.inTable, .inCaption, .inTableBody, .inRow, .inCell].contains b.mode then
          .inSelectInTable else .inSelect } := rfl
  rw [hstart, h.reopenFormatting_eq, h.openTag_eq rfl]
  refine h.opened rfl (fun hpart => ?_) rfl rfl ⟨rfl, rfl, rfl, rfl⟩ ?_
    (.plain rfl h.tracks) (h.form_eq (by simp)) fun hskips => .inl hskips
  · cases hpart
  · have hinside : modeAt (.html "select" :: path) = modeAt.selectMode path := by
      obtain ⟨outer, more, rfl⟩ := List.exists_cons_of_ne_nil h.path_ne_nil
      rfl
    obtain ⟨hbody, hcell⟩ := contains_table_of_modeAt h.bottom h.inTables
    rw [hinside, selectMode_eq h.not_mem_template]
    change (if [Mode.inTable, .inCaption, .inTableBody, .inRow, .inCell].contains b.mode = true then
      Mode.inSelectInTable else .inSelect) = _
    rw [h.mode]
    obtain hmode | hmode | hmode := hmode
    · rw [hbody hmode, hmode]
      rfl
    · rw [hcell (.inl hmode), hmode]
      rfl
    · rw [hcell (.inr hmode), hmode]
      rfl

/-- A start tag of an element that holds nodes opens it. -/
theorem Ready.bodyStart_opened (hmode : isBodyMode (modeAt path))
    (hnodes : insideOf (.html tag.name) = .nodes)
    (hforeign : tag.name ≠ "svg" ∧ tag.name ≠ "math") :
    Opened b (b.bodyStart tag) path (.html tag.name) tag.attributes := by
  by_cases hplain : tag.name ∈ opensSpecially
  · by_cases hremembered : isRemembered tag.name = true
    · exact h.bodyStart_remembered hfits hremembered
    have hcases : ["applet", "marquee", "object"].contains tag.name = true ∨
        ["pre", "listing"].contains tag.name = true ∨ tag.name = "form" ∨ tag.name = "table" ∨
        tag.name = "select" := by
      simp only [opensSpecially, isRemembered, isFormattingName, List.mem_cons, List.not_mem_nil,
        List.contains_iff_mem, Bool.or_eq_true, beq_iff_eq] at hplain hremembered ⊢
      grind
    obtain hname | hname | hname | hname | hname := hcases
    · exact h.bodyStart_object hfits hname
    · exact h.bodyStart_preformatted hfits hname
    · exact h.bodyStart_form hfits hname
    · exact h.bodyStart_table hfits hname
    · exact h.bodyStart_select hmode hname
  · have hname := hfits.plain hplain
    rw [h.bodyStart_eq_openTag hfits hnodes hplain, h.openTag_eq hnodes]
    refine h.opened hnodes (fun hpart => ?_) rfl rfl ⟨rfl, rfl, rfl, rfl⟩ (h.mode_eq hname.setsMode)
      (.plain hname.setsMark h.tracks) (h.form_eq hname.form) fun hskips => .inl hskips
    simp [hfits.not_tablePart] at hpart

end Opened

/-! ## End tags -/

section Closed

variable {name : String} (h : Ready b (.html name :: path)) (hpath : path ≠ [])

include h hpath

/-- An element that does no more than hold nodes is closed. -/
theorem Ready.closed_pop (hmode : setsMode (.html name) = false)
    (hmark : (ElementName.html name).setsMark = false) (hremembered : isRemembered name = false)
    (hform : name ≠ "form") : Closed b b.pop path := by
  obtain ⟨htracks, hopen⟩ := h.exists_tracks
  rw [openForm, if_neg (by simpa [ElementName.html] using hform)] at hopen
  refine h.closed hpath rfl rfl ⟨rfl, rfl, rfl, rfl⟩ ?_ (htracks.tail hmark fun _ => hremembered)
    hopen rfl
  exact h.mode.trans (modeAt_cons hpath hmode)

theorem Ready.closeFormatting_closed (hremembered : isRemembered name = true) :
    Closed b (b.closeFormatting name) path := by
  have hmode : setsMode (.html name) = false := by
    simpa using of_isRemembered (p := fun name => !setsMode (.html name)) hremembered rfl
  have hform : name ≠ "form" := by
    simpa using of_isRemembered (p := fun name => name != "form") hremembered rfl
  obtain ⟨-, hopen⟩ := h.exists_tracks
  rw [openForm, if_neg (by simpa [ElementName.html] using hform)] at hopen
  obtain ⟨entries, htracks, hclose⟩ := h.closeFormatting_eq (setsMark_of_isRemembered hremembered)
  rw [hclose]
  exact h.closed hpath rfl rfl ⟨rfl, rfl, rfl, rfl⟩ (h.mode.trans (modeAt_cons hpath hmode)) htracks
    hopen rfl

/-- The end tag of an object goes back to the formatting around it. -/
theorem Ready.clearToMark_closed (hmode : setsMode (.html name) = false)
    (hmark : (ElementName.html name).setsMark = true) (hform : name ≠ "form") :
    Closed b b.pop.clearToMark path := by
  obtain ⟨htracks, hopen⟩ := h.exists_tracks
  rw [openForm, if_neg (by simpa [ElementName.html] using hform)] at hopen
  exact h.closed hpath rfl rfl ⟨rfl, rfl, rfl, rfl⟩ (h.mode.trans (modeAt_cons hpath hmode))
    (htracks.clearToMark_eq hmark) hopen rfl

end Closed

theorem Ready.formEnd_closed (h : Ready b (.html "form" :: path)) (hpath : path ≠ [])
    (hform : .html "form" ∉ path) : Closed b b.formEnd path := by
  obtain ⟨htracks, hopen⟩ := h.exists_tracks
  obtain ⟨rest, hstack, hpop, hname⟩ := h.exists_stack
  rw [openForm, if_pos rfl] at hopen
  have houtside : b.inTemplate = false := by
    rw [inTemplate, h.any_isNamed_eq]
    simpa using h.not_mem_template
  have hstanding : Standing { b with form := none } (.html "form" :: path) := h.of_same rfl rfl rfl
  have hscope : ({ b with form := none } : Builder).inScope ElementName.boundsScope
      (· == b.current) = true := by
    simp [inScope, hstack, inScope.search]
  have himplied : ({ b with form := none } : Builder).closeImplied ElementName.hasImpliedEnd =
      { b with form := none } := hstanding.closeImplied_eq rfl
  have hend : b.formEnd = { b.pop with form := none } := by
    rw [formEnd, houtside, if_neg (by decide), hopen]
    simp only [hscope, if_true, himplied]
    exact hstanding.removeFromStack_current
  rw [hend]
  refine h.closed hpath rfl rfl ⟨rfl, rfl, rfl, rfl⟩ (h.mode.trans (modeAt_cons hpath rfl))
    (htracks.tail rfl fun _ => rfl) ?_ rfl
  rw [openForm_eq_none hform]

section bodyEnd

variable {name : String} (h : Ready b (.html name :: path)) (hpath : path ≠ [])

section

include h

theorem Ready.hasInScope_current (bounds : ElementName → Bool) :
    b.hasInScope bounds name = true := by
  rw [h.hasInScope_eq, scopeHasNamed, scopeHas, beq_self_eq_true, Bool.true_or]

/-- Nothing is left open in an element whose end is not implied. -/
theorem Ready.closeImplied_popThroughNamed
    (hend : (ElementName.html name).hasImpliedEnd = false) :
    (b.closeImplied ElementName.hasImpliedEnd).popThroughNamed name = b.pop := by
  rw [h.closeImplied_eq hend, h.popThroughNamed_eq]

/-- Nothing is left open in the innermost element of a name. -/
theorem Ready.closeImpliedExcept_popThroughNamed :
    (b.closeImpliedExcept name).popThroughNamed name = b.pop := by
  have hnot : ((ElementName.html name).hasImpliedEnd && (ElementName.html name).name != name) =
      false := by simp [ElementName.html]
  rw [closeImpliedExcept, h.closeImplied_eq hnot, h.popThroughNamed_eq]

end

include h hpath

theorem Ready.blockEnd_closed (hblock : closesBlock name = true)
    (hmode : setsMode (.html name) = false) :
    Closed b ((b.closeImplied ElementName.hasImpliedEnd).popThroughNamed name) path := by
  have hfacts : (name == "p" || !(ElementName.html name).hasImpliedEnd &&
      !(ElementName.html name).setsMark && !isRemembered name && name != "form") = true := by
    simp only [closesBlock, isBlock, Bool.and_eq_true, Bool.or_eq_true] at hblock
    rcases hblock.2 with hname | hname
    · exact of_contains (p := fun name => name == "p" || !(ElementName.html name).hasImpliedEnd &&
        !(ElementName.html name).setsMark && !isRemembered name && name != "form") hname rfl
    · exact of_contains (p := fun name => name == "p" || !(ElementName.html name).hasImpliedEnd &&
        !(ElementName.html name).setsMark && !isRemembered name && name != "form") hname rfl
  have hp : (name == "p") = false := by
    simp only [closesBlock, Bool.and_eq_true, bne_iff_ne] at hblock
    simpa using hblock.1
  simp only [hp, Bool.false_or, Bool.and_eq_true, Bool.not_eq_true', bne_iff_ne] at hfacts
  obtain ⟨⟨⟨hend, hmark⟩, hremembered⟩, hform⟩ := hfacts
  rw [h.closeImplied_popThroughNamed hend]
  exact h.closed_pop hpath hmode hmark hremembered hform

theorem Ready.headingEnd_closed (hheading : (ElementName.html name).isHeading = true)
    (hmode : setsMode (.html name) = false) :
    Closed b ((b.closeImplied ElementName.hasImpliedEnd).popThrough ElementName.isHeading) path := by
  have hfacts := of_contains (p := fun name => !(ElementName.html name).hasImpliedEnd &&
    !(ElementName.html name).setsMark && !isRemembered name && name != "form")
    (by rwa [ElementName.isHeading, isOneOf_html] at hheading) rfl
  simp only [Bool.and_eq_true, Bool.not_eq_true', bne_iff_ne] at hfacts
  obtain ⟨⟨⟨hend, hmark⟩, hremembered⟩, hform⟩ := hfacts
  rw [h.closeImplied_eq hend, h.popThrough_eq hheading]
  exact h.closed_pop hpath hmode hmark hremembered hform

theorem Ready.objectEnd_closed (hobject : ["applet", "marquee", "object"].contains name = true) :
    Closed b ((b.closeImplied ElementName.hasImpliedEnd).popThroughNamed name).clearToMark path := by
  have hfacts := of_contains (p := fun name => !(ElementName.html name).hasImpliedEnd &&
    (ElementName.html name).setsMark && !setsMode (.html name) && name != "form") hobject rfl
  simp only [Bool.and_eq_true, Bool.not_eq_true', bne_iff_ne] at hfacts
  obtain ⟨⟨⟨hend, hmark⟩, hmode⟩, hform⟩ := hfacts
  rw [h.closeImplied_popThroughNamed hend]
  exact h.clearToMark_closed hpath hmode hmark hform

theorem Ready.otherEnd_closed (hmode : setsMode (.html name) = false)
    (hmark : (ElementName.html name).setsMark = false) (hform : name ≠ "form") :
    Closed b (b.otherEnd name) path := by
  have hother : b.otherEnd name =
      if isRemembered name = true then b.closeFormatting name else b.closeNamed name := rfl
  rw [hother]
  split
  · rename_i hremembered
    exact h.closeFormatting_closed hpath hremembered
  · rename_i hremembered
    rw [Bool.not_eq_true] at hremembered
    rw [h.closeNamed_eq]
    exact h.closed_pop hpath hmode hmark hremembered hform

/-- The end tag of the innermost element closes it. -/
theorem Ready.bodyEnd_closed (hfits : Undisturbed path name)
    (hown : name ≠ "table" ∧ name ≠ "select") : Closed b (b.bodyEnd name) path := by
  have hnodes : insideOf (.html name) = .nodes := h.nodes _ List.mem_cons_self
  have hmode : setsMode (.html name) = false := hfits.setsMode hown
  have htemplate : ¬(name == "template") = true := by
    rintro hname
    rw [eq_of_beq hname] at hnodes
    cases hnodes
  have hroot : ¬(name == "body" || name == "html") = true := by
    intro hname
    have := hfits.misplaced
    rw [Bool.or_eq_true, beq_iff_eq, beq_iff_eq] at hname
    obtain rfl | rfl := hname <;> cases this
  have hbreak : ¬(name == "br") = true := by
    rintro hname
    rw [eq_of_beq hname] at hnodes
    cases hnodes
  -- The rules in their order; what is innermost is always in scope.
  rw [bodyEnd, if_neg htemplate, if_neg hroot]
  by_cases hblock : closesBlock name = true
  · rw [if_pos hblock, if_pos (h.hasInScope_current _)]
    exact h.blockEnd_closed hpath hblock hmode
  rw [if_neg hblock]
  by_cases hform : name = "form"
  · subst hform
    exact h.formEnd_closed hpath (hfits.form rfl)
  rw [if_neg (by simpa using hform)]
  by_cases hp : name = "p"
  · subst hp
    rw [if_pos (by decide), if_pos (h.hasInScope_current _), closeParagraph,
      h.closeImpliedExcept_popThroughNamed]
    exact h.closed_pop hpath rfl rfl rfl hform
  rw [if_neg (by simpa using hp)]
  by_cases hli : name = "li"
  · subst hli
    rw [if_pos (by decide), itemEnd, if_pos (h.hasInScope_current _),
      h.closeImpliedExcept_popThroughNamed]
    exact h.closed_pop hpath rfl rfl rfl hform
  rw [if_neg (by simpa using hli)]
  by_cases hdefinition : (name == "dd" || name == "dt") = true
  · rw [if_pos hdefinition, itemEnd, if_pos (h.hasInScope_current _),
      h.closeImpliedExcept_popThroughNamed]
    have hdef : name = "dd" ∨ name = "dt" := by simpa using hdefinition
    obtain rfl | rfl := hdef <;> exact h.closed_pop hpath rfl rfl rfl hform
  rw [if_neg hdefinition]
  by_cases hheading : (ElementName.html name).isHeading = true
  · have hinside : (b.inScope ElementName.boundsScope fun id => (b.nameOf id).isHeading) = true := by
      rw [h.inScope_eq, scopeHas, hheading, Bool.true_or]
    rw [if_pos hheading, if_pos hinside]
    exact h.headingEnd_closed hpath hheading hmode
  rw [if_neg hheading]
  by_cases hobject : ["applet", "marquee", "object"].contains name = true
  · rw [if_pos hobject, if_pos (h.hasInScope_current _)]
    exact h.objectEnd_closed hpath hobject
  rw [if_neg hobject, if_neg hbreak]
  refine h.otherEnd_closed hpath hmode ?_ hform
  rw [← Bool.not_eq_true, ElementName.setsMark, isOneOf_html]
  intro hname
  have := of_contains (p := fun name => isMisplaced name ||
    ["applet", "marquee", "object"].contains name) hname rfl
  simp only [hfits.misplaced, Bool.false_or] at this
  exact hobject this

end bodyEnd

end LiveTemplate.Markup.Builder
