import LiveTemplate.Proofs.Markup.Selections

/-!
# What a tag does where it is settled

In every mode a start tag that is settled opens its element and the end tag of that element closes
it: the rules of the modes agree on this, whatever they do with other tags.
-/

namespace LiveTemplate.Markup.Builder

variable {b : Builder} {path : List ElementName} {tag : Tag}

/-! ## Ordinary content -/

/-- Start tags of ordinary content are under its rules in cells and captions as well. -/
theorem modeRule_startTag (hmode : isBodyMode b.mode) (hfits : Undisturbed path tag.name) :
    b.modeRule (.startTag tag) = .done (b.bodyStart tag) := by
  have htable : isTableTag tag.name = false := not_contains_of_all hfits.misplaced _ rfl
  obtain hmode | hmode | hmode := hmode
  · rw [modeRule, hmode]
    rfl
  · rw [modeRule, hmode]
    simp only [cellRule, htable]
    rfl
  · rw [modeRule, hmode]
    simp only [captionRule, htable]
    rfl

/-- So are end tags. -/
theorem modeRule_endTag {name : String} (hmode : isBodyMode b.mode) (hfits : Undisturbed path name)
    (htable : name ≠ "table") : b.modeRule (.endTag name) = .done (b.bodyEnd name) := by
  have hne (s : String) (hs : isMisplaced s = true) : (name == s) = false := by
    rw [beq_eq_false_iff_ne]
    rintro rfl
    simp [hfits.misplaced] at hs
  have hnone := not_contains_of_all (p := fun s => isMisplaced s || s == "table")
    (show (isMisplaced name || name == "table") = false by simp [hfits.misplaced, htable])
  have hignored : isIgnoredEnd name = false := by
    rw [isIgnoredEnd, isTableTag, hnone _ rfl, hne "body" rfl, hne "html" rfl]
    rfl
  obtain hmode | hmode | hmode := hmode
  · rw [modeRule, hmode]
    rfl
  · rw [modeRule, hmode]
    simp only [cellRule, hignored, hnone ["table", "tbody", "tfoot", "thead", "tr"] rfl,
      hne "td" rfl, hne "th" rfl]
    rfl
  · have hother : (name == "table") = false := by simpa using htable
    rw [modeRule, hmode]
    simp only [captionRule, hignored, hne "caption" rfl, hother]
    rfl

/-! ## Where start tags are settled -/

/-- Modes between the parts of a table. -/
def isTableMode (mode : Mode) : Prop := mode = .inTable ∨ mode = .inTableBody ∨ mode = .inRow

/-- Modes in a selection list. -/
def isSelectMode (mode : Mode) : Prop := mode = .inSelect ∨ mode = .inSelectInTable

/-- The start tags that are settled in ordinary markup, by the mode. -/
inductive Opens (path : List ElementName) (tag : Tag) : Prop
  | ordinary (hmode : isBodyMode (modeAt path)) (hfits : Undisturbed path tag.name)
  | part (hmode : modeAt path = .inTable) (hhost : (hostAt path).isOneOf ["table"] = true)
      (hname : ["caption", "colgroup", "tbody", "tfoot", "thead"].contains tag.name = true)
  | row (hmode : modeAt path = .inTableBody)
      (hhost : (hostAt path).isOneOf ["tbody", "tfoot", "thead"] = true) (hname : tag.name = "tr")
  | cell (hmode : modeAt path = .inRow) (hhost : (hostAt path).isOneOf ["tr"] = true)
      (hname : ["td", "th"].contains tag.name = true)
  | besideParts (hmode : isTableMode (modeAt path))
      (hname : ["script", "style", "template"].contains tag.name = true ∨
        tag.name = "input" ∧ isHiddenInput tag = true)
  | column (hmode : modeAt path = .inColumnGroup)
      (hname : ["col", "template"].contains tag.name = true)
  | besideOptions (hmode : isSelectMode (modeAt path))
      (hname : ["script", "template"].contains tag.name = true)
  | option (hmode : isSelectMode (modeAt path)) (hoption : hostAt path ≠ .html "option")
      (hname : tag.name = "option" ∨ tag.name = "optgroup" ∧ hostAt path ≠ .html "optgroup")
  | separator (hmode : isSelectMode (modeAt path)) (hoption : hostAt path ≠ .html "option")
      (hgroup : hostAt path ≠ .html "optgroup") (hname : tag.name = "hr")

theorem opens_of_opensOrdinary (h : opensOrdinary path tag = true) : Opens path tag := by
  have hinTable : (["script", "style", "template"].contains tag.name ||
      (tag.name == "input" && isHiddenInput tag)) = true →
      ["script", "style", "template"].contains tag.name = true ∨
        tag.name = "input" ∧ isHiddenInput tag = true := by
    simp
  have hselect (hmode : isSelectMode (modeAt path))
      (h : (["script", "template"].contains tag.name ||
        (hostAt path != .html "option" && (tag.name == "option" ||
          (["optgroup", "hr"].contains tag.name && hostAt path != .html "optgroup")))) = true) :
      Opens path tag := by
    rw [Bool.or_eq_true, Bool.and_eq_true, Bool.or_eq_true, Bool.and_eq_true, bne_iff_ne, bne_iff_ne,
      beq_iff_eq] at h
    obtain hname | ⟨hoption, hname | ⟨hname, hgroup⟩⟩ := h
    · exact .besideOptions hmode hname
    · exact .option hmode hoption (.inl hname)
    · simp only [List.contains_iff_mem, List.mem_cons, List.not_mem_nil, or_false] at hname
      obtain hname | hname := hname
      · exact .option hmode hoption (.inr ⟨hname, hgroup⟩)
      · exact .separator hmode hoption hgroup hname
  rw [opensOrdinary] at h
  split at h
  · rename_i hmode
    exact .ordinary (.inl hmode) (undisturbed_of_disturbsBody (by simpa using h))
  · rename_i hmode
    exact .ordinary (.inr (.inl hmode)) (undisturbed_of_disturbsBody (by simpa using h))
  · rename_i hmode
    exact .ordinary (.inr (.inr hmode)) (undisturbed_of_disturbsBody (by simpa using h))
  · rename_i hmode
    obtain ⟨hhost, hname⟩ := Bool.and_eq_true_iff.1 h
    obtain hname | hname := Bool.or_eq_true_iff.1 hname
    · exact .part hmode hhost hname
    · exact .besideParts (.inl hmode) (hinTable hname)
  · rename_i hmode
    obtain ⟨hhost, hname⟩ := Bool.and_eq_true_iff.1 h
    obtain hname | hname := Bool.or_eq_true_iff.1 hname
    · exact .row hmode hhost (eq_of_beq hname)
    · exact .besideParts (.inr (.inl hmode)) (hinTable hname)
  · rename_i hmode
    obtain ⟨hhost, hname⟩ := Bool.and_eq_true_iff.1 h
    obtain hname | hname := Bool.or_eq_true_iff.1 hname
    · exact .cell hmode hhost hname
    · exact .besideParts (.inr (.inr hmode)) (hinTable hname)
  · rename_i hmode
    exact .column hmode (Bool.and_eq_true_iff.1 h).2
  · rename_i hmode
    exact hselect (.inl hmode) h
  · rename_i hmode
    exact hselect (.inr hmode) h
  · cases h

/-- Those among them of elements that hold no nodes. -/
inductive OpensLeaf (path : List ElementName) (tag : Tag) : Prop
  | ordinary (hmode : isBodyMode (modeAt path)) (hfits : Undisturbed path tag.name)
  | besideParts (hmode : isTableMode (modeAt path))
      (hname : ["script", "style", "template"].contains tag.name = true ∨
        tag.name = "input" ∧ isHiddenInput tag = true)
  | column (hmode : modeAt path = .inColumnGroup)
      (hname : ["col", "template"].contains tag.name = true)
  | besideOptions (hmode : isSelectMode (modeAt path))
      (hname : ["script", "template"].contains tag.name = true)
  | separator (hmode : isSelectMode (modeAt path)) (hoption : hostAt path ≠ .html "option")
      (hgroup : hostAt path ≠ .html "optgroup") (hname : tag.name = "hr")

/-- All parts of tables and all options hold nodes. -/
theorem Opens.leaf (h : Opens path tag) (hleaf : insideOf (.html tag.name) ≠ .nodes) :
    OpensLeaf path tag := by
  have hnone {l : List String} (hl : l.all (fun s => insideOf (.html s) == .nodes) = true) :
      l.contains tag.name ≠ true :=
    ne_true_of_eq_false (not_contains_of_all (by simpa using hleaf) l hl)
  cases h with
  | ordinary hmode hfits => exact .ordinary hmode hfits
  | part _ _ hname => exact absurd hname (hnone rfl)
  | row _ _ hname => exact absurd (by rw [hname]; rfl) (hnone (l := ["tr"]) rfl)
  | cell _ _ hname => exact absurd hname (hnone rfl)
  | besideParts hmode hname => exact .besideParts hmode hname
  | column hmode hname => exact .column hmode hname
  | besideOptions hmode hname => exact .besideOptions hmode hname
  | option _ _ hname =>
      obtain hname | ⟨hname, -⟩ := hname
      · exact absurd (by rw [hname]; rfl) (hnone (l := ["option"]) rfl)
      · exact absurd (by rw [hname]; rfl) (hnone (l := ["optgroup"]) rfl)
  | separator hmode hoption hgroup hname => exact .separator hmode hoption hgroup hname

/-- Graphics and formulas are entered in ordinary content. -/
theorem Opens.ordinary_of_foreign (h : Opens path tag) (hname : tag.name = "svg" ∨ tag.name = "math") :
    isBodyMode (modeAt path) ∧ Undisturbed path tag.name := by
  have hnone (l : List String) (hl : (l.contains "svg" || l.contains "math") = false) :
      l.contains tag.name ≠ true := by
    rw [Bool.or_eq_false_iff] at hl
    obtain hname | hname := hname <;> simp [hname, hl, -List.contains_eq_mem]
  cases h with
  | ordinary hmode hfits => exact ⟨hmode, hfits⟩
  | part _ _ hpart => exact absurd hpart (hnone _ rfl)
  | row _ _ hrow => exact absurd hrow (by rcases hname with hname | hname <;> simp [hname])
  | cell _ _ hcell => exact absurd hcell (hnone _ rfl)
  | besideParts _ hbeside =>
      obtain hbeside | ⟨hbeside, -⟩ := hbeside
      · exact absurd hbeside (hnone _ rfl)
      · exact absurd hbeside (by rcases hname with hname | hname <;> simp [hname])
  | column _ hcolumn => exact absurd hcolumn (hnone _ rfl)
  | besideOptions _ hbeside => exact absurd hbeside (hnone _ rfl)
  | option _ _ hoption => rcases hname with hname | hname <;> simp [hname] at hoption
  | separator _ _ _ hhr => exact absurd hhr (by rcases hname with hname | hname <;> simp [hname])

theorem elementAt_eq_html (hforeign : opensForeign path tag.name = false)
    (hname : ¬(tag.name = "svg" ∨ tag.name = "math")) :
    elementAt path tag.name = .html tag.name := by
  rw [not_or] at hname
  rw [elementAt, hforeign, if_neg (by decide), if_neg (by simpa using hname.1),
    if_neg (by simpa using hname.2)]

/-- A tag of a selection list is under its rules inside a table as well. -/
theorem modeRule_select {token : Token} (hmode : isSelectMode b.mode)
    (htoken : b.selectInTableRule token = b.selectRule token) :
    b.modeRule token = b.selectRule token := by
  obtain hmode | hmode := hmode
  · rw [modeRule, hmode]
  · rw [modeRule, hmode]
    exact htoken

/-- Metadata and hidden controls are the same to every part of a table. -/
theorem modeRule_besideParts (hmode : isTableMode b.mode)
    (hname : ["script", "style", "template"].contains tag.name = true ∨
      tag.name = "input" ∧ isHiddenInput tag = true) :
    b.modeRule (.startTag tag) = b.tableRule (.startTag tag) := by
  have hbeside : ["script", "style", "template", "input"].contains tag.name = true := by
    simp only [List.contains_iff_mem, List.mem_cons, List.not_mem_nil, or_false] at hname ⊢
    grind
  have hnone (l : List String)
      (hl : ["script", "style", "template", "input"].all (fun s => !l.contains s) = true) :
      l.contains tag.name = false := by
    simpa using of_contains (p := fun s => !l.contains s) hbeside hl
  have hne (s : String)
      (hs : ["script", "style", "template", "input"].all (fun other => other != s) = true) :
      (tag.name == s) = false := by
    simpa using of_contains (p := fun other => other != s) hbeside hs
  obtain hmode | hmode | hmode := hmode
  · rw [modeRule, hmode]
  · rw [modeRule, hmode]
    simp only [rowsRule, hne "tr" rfl, hne "th" rfl, hne "td" rfl,
      hnone ["caption", "col", "colgroup", "tbody", "tfoot", "thead"] rfl, Bool.or_self,
      Bool.false_eq_true, if_false]
  · rw [modeRule, hmode]
    simp only [rowRule, hne "th" rfl, hne "td" rfl, isTableTag, hnone
      ["caption", "col", "colgroup", "tbody", "td", "tfoot", "th", "thead", "tr"] rfl, Bool.or_self,
      Bool.false_eq_true, if_false]

/-! ## Elements that hold nodes -/

/-- What holds nodes is opened by a start tag of one of these kinds. -/
theorem Ready.modeRule_opened (h : Ready b path) (hopens : Opens path tag)
    (hforeign : ¬(tag.name = "svg" ∨ tag.name = "math"))
    (hnodes : insideOf (.html tag.name) = .nodes) :
    ∃ b', b.modeRule (.startTag tag) = .done b' ∧
      Opened b b' path (.html tag.name) tag.attributes := by
  have hnone (l : List String) (hl : l.all (fun s => insideOf (.html s) != .nodes) = true) :
      l.contains tag.name ≠ true :=
    ne_true_of_eq_false (not_contains_of_all (by simpa using hnodes) l hl)
  cases hopens with
  | ordinary hmode hfits =>
      exact ⟨_, modeRule_startTag (h.mode ▸ hmode) hfits,
        h.bodyStart_opened hfits hmode hnodes (not_or.1 hforeign)⟩
  | part hmode hhost hname =>
      rw [modeRule, h.mode, hmode]
      exact h.tableRule_opened hhost hname
  | row hmode hhost hname =>
      rw [modeRule, h.mode, hmode]
      exact h.rowsRule_opened hhost hname
  | cell hmode hhost hname =>
      rw [modeRule, h.mode, hmode]
      exact h.rowRule_opened hhost hname
  | besideParts _ hname =>
      obtain hname | ⟨hname, -⟩ := hname
      · exact absurd hname (hnone _ rfl)
      · exact absurd (by rw [hname]; rfl) (hnone ["input"] rfl)
  | column _ hname => exact absurd hname (hnone _ rfl)
  | besideOptions _ hname => exact absurd hname (hnone _ rfl)
  | option hmode hoption hname =>
      rw [modeRule_select (h.mode ▸ hmode)]
      · exact h.selectRule_opened hoption hname
      · obtain ⟨name, attributes, selfClosing⟩ := tag
        rcases hname with hname | ⟨hname, -⟩ <;> cases hname <;> rfl
  | separator _ _ _ hname => exact absurd (by rw [hname]; rfl) (hnone ["hr"] rfl)

/-- A settled start tag of an element that holds nodes opens it. -/
theorem Ready.startTag_opened (h : Ready b path) (hopens : opens path tag = true)
    (hclosing : tag.selfClosing = false) (hnodes : insideOf (elementAt path tag.name) = .nodes) :
    ∃ b', b.rule (.startTag tag) = .done b' ∧
      Opened b b' path (elementAt path tag.name)
        (attributesAt (elementAt path tag.name) tag.attributes) := by
  cases hforeign : opensForeign path tag.name with
  | true =>
      rw [opens, hforeign, if_pos rfl, Bool.not_eq_true'] at hopens
      exact h.foreignRule_opened hforeign hopens hclosing
  | false =>
      rw [opens, hforeign, if_neg (by decide)] at hopens
      have hopens := opens_of_opensOrdinary hopens
      rw [rule, h.takesForeign_startTag, hforeign, if_neg (by decide)]
      by_cases hname : tag.name = "svg" ∨ tag.name = "math"
      · obtain ⟨hmode, hfits⟩ := hopens.ordinary_of_foreign hname
        exact ⟨_, modeRule_startTag (h.mode ▸ hmode) hfits,
          h.bodyStart_foreign hname hforeign hclosing⟩
      · rw [elementAt_eq_html hforeign hname] at hnodes ⊢
        exact h.modeRule_opened hopens hname hnodes

/-- The mode inside an element that has one of its own. -/
theorem modeAt_html (hpath : path ≠ []) :
    modeAt (.html "table" :: path) = .inTable ∧ modeAt (.html "caption" :: path) = .inCaption ∧
      modeAt (.html "colgroup" :: path) = .inColumnGroup ∧
      modeAt (.html "tbody" :: path) = .inTableBody ∧ modeAt (.html "tfoot" :: path) = .inTableBody ∧
      modeAt (.html "thead" :: path) = .inTableBody ∧ modeAt (.html "tr" :: path) = .inRow ∧
      modeAt (.html "td" :: path) = .inCell ∧ modeAt (.html "th" :: path) = .inCell ∧
      isSelectMode (modeAt (.html "select" :: path)) := by
  obtain ⟨outer, more, rfl⟩ := List.exists_cons_of_ne_nil hpath
  exact ⟨rfl, rfl, rfl, rfl, rfl, rfl, rfl, rfl, rfl, selectMode_eq_or _⟩

/-- The end tag of an ordinary element that is settled closes it. -/
theorem Ready.modeRule_closed (h : Ready b (.html tag.name :: path)) (hpath : path ≠ [])
    (hopens : Opens path tag) :
    ∃ b', b.modeRule (.endTag tag.name) = .done b' ∧ Closed b b' path := by
  obtain ⟨name, attributes, selfClosing⟩ := tag
  change Ready b (.html name :: path) at h
  have hnodes : insideOf (.html name) = .nodes := h.nodes _ List.mem_cons_self
  have hnone (l : List String) (hl : l.all (fun s => insideOf (.html s) != .nodes) = true) :
      l.contains name ≠ true :=
    ne_true_of_eq_false (not_contains_of_all (by simpa using hnodes) l hl)
  obtain ⟨htable, hcaption, hcolumns, htbody, htfoot, hthead, htr, htd, hth, hselect⟩ :=
    modeAt_html hpath
  cases hopens with
  | ordinary hmode hfits =>
      by_cases hown : name = "table" ∨ name = "select"
      · obtain rfl | rfl := hown
        · rw [modeRule, h.mode, htable]
          exact h.tableRule_closed hpath
        · rw [modeRule_select (h.mode ▸ hselect) rfl]
          exact h.selectEnd_closed hpath
      · rw [not_or] at hown
        have hsame : modeAt (.html name :: path) = modeAt path :=
          modeAt_cons hpath (hfits.setsMode hown)
        have hbody : isBodyMode b.mode := by rwa [h.mode, hsame]
        exact ⟨_, modeRule_endTag hbody hfits hown.1, h.bodyEnd_closed hpath hfits hown⟩
  | part hmode hhost hname =>
      simp only [List.contains_iff_mem, List.mem_cons, List.not_mem_nil, or_false] at hname
      obtain rfl | rfl | rfl | rfl | rfl := hname
      · rw [modeRule, h.mode, hcaption]
        exact h.captionRule_closed hpath hmode
      · rw [modeRule, h.mode, hcolumns]
        exact h.columnsRule_closed hpath hmode
      · rw [modeRule, h.mode, htbody]
        exact h.rowsRule_closed hpath hmode rfl
      · rw [modeRule, h.mode, htfoot]
        exact h.rowsRule_closed hpath hmode rfl
      · rw [modeRule, h.mode, hthead]
        exact h.rowsRule_closed hpath hmode rfl
  | row hmode hhost hname =>
      obtain rfl : name = "tr" := hname
      rw [modeRule, h.mode, htr]
      exact h.rowRule_closed hpath hmode
  | cell hmode hhost hname =>
      simp only [List.contains_iff_mem, List.mem_cons, List.not_mem_nil, or_false] at hname
      obtain rfl | rfl := hname
      · rw [modeRule, h.mode, htd]
        exact h.cellRule_closed hpath hmode rfl
      · rw [modeRule, h.mode, hth]
        exact h.cellRule_closed hpath hmode rfl
  | besideParts _ hname =>
      obtain hname | ⟨hname, -⟩ := hname
      · exact absurd hname (hnone _ rfl)
      · obtain rfl : name = "input" := hname
        cases hnodes
  | column _ hname => exact absurd hname (hnone _ rfl)
  | besideOptions _ hname => exact absurd hname (hnone _ rfl)
  | option hmode hoption hname =>
      have hmode (hplain : setsMode (.html name) = false) : isSelectMode b.mode := by
        rwa [h.mode, modeAt_cons hpath hplain]
      obtain hname | ⟨hname, -⟩ := hname
      · obtain rfl : name = "option" := hname
        rw [modeRule_select (hmode rfl) rfl]
        exact h.optionEnd_closed hpath
      · obtain rfl : name = "optgroup" := hname
        rw [modeRule_select (hmode rfl) rfl]
        exact h.groupEnd_closed hpath
  | separator _ _ _ hname =>
      obtain rfl : name = "hr" := hname
      cases hnodes

/-- The end tag of a settled element closes it. -/
theorem Ready.endTag_closed (h : Ready b (elementAt path tag.name :: path)) (hpath : path ≠ [])
    (hopens : opens path tag = true)
    (hlower : lower (elementAt path tag.name).name.toList = tag.name) :
    ∃ b', b.rule (.endTag tag.name) = .done b' ∧ Closed b b' path := by
  cases hforeign : opensForeign path tag.name with
  | true =>
      have hvocabulary : (elementAt path tag.name).vocabulary ≠ .html := by
        rw [elementAt, if_pos hforeign]
        simp only [opensForeign, Bool.and_eq_true, bne_iff_ne] at hforeign
        exact hforeign.1
      rw [opens, hforeign, if_pos rfl, Bool.not_eq_true'] at hopens
      refine h.foreignRule_closed hpath hvocabulary hlower ⟨?_, ?_⟩ <;>
      · intro hname
        simp [breaksOut, hname] at hopens
  | false =>
      rw [opens, hforeign, if_neg (by decide)] at hopens
      by_cases hname : tag.name = "svg" ∨ tag.name = "math"
      · have hvocabulary : (elementAt path tag.name).vocabulary ≠ .html := by
          rw [elementAt, hforeign, if_neg (by decide)]
          obtain hname | hname := hname <;> simp [hname]
        refine h.foreignRule_closed hpath hvocabulary hlower ?_
        obtain hname | hname := hname <;> simp [hname]
      · rw [elementAt_eq_html hforeign hname] at h
        rw [h.rule_eq]
        · exact h.modeRule_closed hpath (opens_of_opensOrdinary hopens)
        · rw [hostAt_cons hpath]
          rfl

/-! ## Elements that hold no nodes -/

/-- Outside of foreign content the mode decides about a start tag. -/
theorem Standing.rule_startTag (h : Standing b path) (hforeign : opensForeign path tag.name = false) :
    b.rule (.startTag tag) = b.modeRule (.startTag tag) := by
  rw [rule, h.takesForeign_startTag, hforeign, if_neg (by decide)]

/-- An element without content is added. -/
theorem Ready.startTag_empty (h : Ready b path) (hopens : Opens path tag)
    (hforeign : opensForeign path tag.name = false)
    (hnothing : insideOf (.html tag.name) = .nothing) (htemplate : tag.name ≠ "template") :
    b.rule (.startTag tag) =
      .done (b.hang { content := .element (.html tag.name) tag.attributes }) := by
  have hnone (l : List String)
      (hl : l.all (fun s => insideOf (.html s) != .nothing || s == "template") = true) :
      l.contains tag.name ≠ true :=
    ne_true_of_eq_false (not_contains_of_all (by simp [hnothing, htemplate]) l hl)
  rw [h.rule_startTag hforeign]
  cases hopens.leaf (by simp [hnothing]) with
  | ordinary hmode hfits =>
      rw [modeRule_startTag (h.mode ▸ hmode) hfits, h.bodyStart_eq_hang hfits hnothing htemplate]
  | besideParts hmode hname =>
      rw [modeRule_besideParts (h.mode ▸ hmode) hname]
      obtain hname | ⟨hname, hhidden⟩ := hname
      · exact absurd hname (hnone _ rfl)
      · rw [← h.addTag_eq htemplate]
        simp [tableRule, hname, hhidden]
  | column hmode hname =>
      rw [modeRule, h.mode, hmode, ← h.addTag_eq htemplate]
      simp only [List.contains_iff_mem, List.mem_cons, List.not_mem_nil, or_false] at hname
      obtain hname | hname := hname
      · simp [columnsRule, hname]
      · exact absurd hname htemplate
  | besideOptions _ hname => exact absurd hname (hnone _ rfl)
  | separator hmode hoption hgroup hname =>
      rw [modeRule_select (h.mode ▸ hmode)]
      · exact h.selectRule_hr hoption hgroup hname
      · simp [selectInTableRule, hname]

/-- A template is opened. -/
theorem Ready.startTag_template (h : Ready b path) (hopens : Opens path tag)
    (hforeign : opensForeign path tag.name = false) (hname : tag.name = "template") :
    b.rule (.startTag tag) = .done (b.templateOpened tag.attributes) := by
  rw [h.rule_startTag hforeign, ← h.metadataStart_template hname]
  obtain ⟨name, attributes, selfClosing⟩ := tag
  obtain rfl : name = "template" := hname
  have hleaf : insideOf (.html "template") ≠ .nodes := by decide
  cases hopens.leaf hleaf with
  | ordinary hmode hfits =>
      have hmetadata : isMetadata "template" = true := rfl
      rw [modeRule_startTag (h.mode ▸ hmode) hfits]
      simp only [bodyStart, hfits.misplaced, hmetadata, Bool.false_eq_true, if_false, if_true]
  | besideParts hmode hname =>
      rw [modeRule_besideParts (h.mode ▸ hmode) hname]
      simp [tableRule]
  | column hmode hname =>
      rw [modeRule, h.mode, hmode]
      simp [columnsRule]
  | besideOptions hmode hname =>
      rw [modeRule_select (h.mode ▸ hmode)]
      · simp [selectRule]
      · simp [selectInTableRule]
  | separator _ _ _ hname => exact absurd hname (by simp)

/-- Scripts and styles are metadata, wherever they stand. -/
theorem Ready.metadataStart_text (h : Ready b path)
    (hname : tag.name = "script" ∨ tag.name = "style") :
    b.metadataStart tag = b.textOpened tag (b.skipsLineFeed || tag.name == "textarea") := by
  have hstart : b.metadataStart tag = b.openTextElement tag (textModeOf tag.name) := by
    obtain ⟨name, attributes, selfClosing⟩ := tag
    obtain hname | hname := hname <;> cases hname <;> rfl
  have hskips : (tag.name == "textarea") = false := by
    obtain hname | hname := hname <;> simp [hname]
  rw [hstart, hskips, Bool.or_false, h.openTextElement_eq]
  obtain hname | hname := hname <;> simp [hname]

/-- An element that holds text alone is opened. -/
theorem Ready.startTag_text (h : Ready b path) (hopens : Opens path tag)
    (hforeign : opensForeign path tag.name = false)
    (htext : tag.name ∈ referenceNames ++ characterNames) :
    b.rule (.startTag tag) =
      .done (b.textOpened tag (b.skipsLineFeed || tag.name == "textarea")) := by
  have hnone (l : List String)
      (hl : l.all (fun s => !(referenceNames ++ characterNames).contains s) = true) :
      l.contains tag.name ≠ true :=
    ne_true_of_eq_false
      (not_contains_of_all (by simp only [List.contains_iff_mem.2 htext, Bool.not_true]) l hl)
  have hleaf : insideOf (.html tag.name) ≠ .nodes := by
    simpa using of_contains (p := fun s => insideOf (.html s) != .nodes)
      (List.contains_iff_mem.2 htext) rfl
  rw [h.rule_startTag hforeign]
  cases hopens.leaf hleaf with
  | ordinary hmode hfits =>
      rw [modeRule_startTag (h.mode ▸ hmode) hfits, h.bodyStart_eq_textOpened hfits htext]
  | besideParts hmode hname =>
      rw [modeRule_besideParts (h.mode ▸ hmode) hname]
      have hmetadata : tag.name = "script" ∨ tag.name = "style" := by
        obtain hname | ⟨hname, -⟩ := hname
        · simp only [List.contains_iff_mem, List.mem_cons, List.not_mem_nil, or_false] at hname
          obtain hname | hname | hname := hname
          · exact .inl hname
          · exact .inr hname
          · exact absurd (by rw [hname]; rfl) (hnone ["template"] rfl)
        · exact absurd (by rw [hname]; rfl) (hnone ["input"] rfl)
      rw [← h.metadataStart_text hmetadata]
      obtain hname | hname := hmetadata <;> simp [tableRule, hname]
  | column _ hname => exact absurd hname (hnone _ rfl)
  | besideOptions hmode hname =>
      have hscript : tag.name = "script" := by
        simp only [List.contains_iff_mem, List.mem_cons, List.not_mem_nil, or_false] at hname
        obtain hname | hname := hname
        · exact hname
        · exact absurd (by rw [hname]; rfl) (hnone ["template"] rfl)
      rw [← h.metadataStart_text (.inl hscript), modeRule_select (h.mode ▸ hmode)]
      · simp [selectRule, hscript]
      · simp [selectInTableRule, hscript]
  | separator _ _ _ hname => exact absurd (by rw [hname]; rfl) (hnone ["hr"] rfl)

end LiveTemplate.Markup.Builder
