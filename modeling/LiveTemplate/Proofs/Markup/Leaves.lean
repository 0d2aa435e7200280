import LiveTemplate.Proofs.Markup.Ordinary

/-!
# Elements that hold no nodes

Elements without content are added and not opened.  Those that hold text alone are open while
characters are read, up to their end tag, and a template is closed again at once, since what it
holds is no part of the tree.
-/

namespace LiveTemplate.Markup.Builder

variable {b b' : Builder} {path : List ElementName} {tag : Tag}

/-! ## What has been read -/

/-- Trees have been read below the innermost element, and the state is between two nodes again. -/
structure Gained (b b' : Builder) (path : List ElementName) (trees : List (Tree Unit)) : Prop where
  ready : Ready b' path
  stack : b'.stack = b.stack
  grown : ∃ nodes, Grown b.cells b'.cells b.current nodes trees

theorem Gained.refl (h : Ready b path) : Gained b b path [] :=
  ⟨h, rfl, [], .refl⟩

theorem Gained.trans {b'' : Builder} {trees trees' : List (Tree Unit)}
    (hlt : b.current < b.cells.size) (h : Gained b b' path trees)
    (h' : Gained b' b'' path trees') : Gained b b'' path (trees ++ trees') := by
  obtain ⟨nodes, hgrown⟩ := h.grown
  obtain ⟨nodes', hgrown'⟩ := h'.grown
  have hcurrent : b'.current = b.current := by rw [current, current, h.stack]
  rw [hcurrent] at hgrown'
  exact ⟨h'.ready, h'.stack.trans h.stack, nodes ++ nodes', hgrown.trans hlt hgrown'⟩

/-- An element has been opened, its children have been read, and it has been closed. -/
theorem Gained.element {opened inner closed : Builder} {element : ElementName}
    {attributes : List (String × String)} {trees : List (Tree Unit)} (h : Ready b path)
    (hopened : Opened b opened path element attributes)
    (hinner : Gained opened inner (element :: path) trees) (hclosed : Closed inner closed path) :
    Gained b closed path [.element () element.name (attributesOf attributes) trees] where
  ready := hclosed.ready
  stack := by rw [hclosed.stack, hinner.stack, hopened.stack, List.drop_one, List.tail_cons]
  grown := by
    obtain ⟨nodes, hgrown⟩ := hinner.grown
    have hcurrent : opened.current = b.cells.size := by simp [current, hopened.stack]
    rw [hopened.cells, hcurrent] at hgrown
    refine ⟨[b.cells.size], ?_⟩
    rw [hclosed.cells]
    exact hgrown.element h.current_lt rfl rfl

/-- An element without content has been added. -/
theorem Gained.hang_element (h : Ready b path) (element : ElementName)
    (attributes : List (String × String)) :
    Gained b (b.hang { content := .element element attributes }) path
      [.element () element.name (attributesOf attributes) []] where
  ready := h.hang _
  stack := rfl
  grown := ⟨_, .leaf h.current_lt fun later fuel hcell => by
    rw [treeOf?, hcell]
    rfl⟩

theorem Gained.hang_text (h : Ready b path) (data : String) :
    Gained b (b.hang { content := .text data }) path [.text () data] where
  ready := h.hang _
  stack := rfl
  grown := ⟨_, .leaf h.current_lt fun later fuel hcell => by rw [treeOf?, hcell]⟩

theorem Gained.hang_comment (h : Ready b path) (data : String) :
    Gained b (b.hang { content := .comment data }) path [.comment () data] where
  ready := h.hang _
  stack := rfl
  grown := ⟨_, .leaf h.current_lt fun later fuel hcell => by rw [treeOf?, hcell]⟩

/-! ## Elements without content -/

/-- What an element can hold tells the list that its name is in. -/
theorem mem_names_of_insideOf (name : String) :
    (insideOf (.html name) = .nothing → name ∈ emptyNames) ∧
      (insideOf (.html name) = .references → name ∈ referenceNames) ∧
      (insideOf (.html name) = .characters → name ∈ characterNames) := by
  simp only [insideOf, isOneOf_html, List.contains_iff_mem]
  split
  · simp [*]
  split
  · simp [*]
  split <;> simp [*]

theorem Standing.addTag_eq (h : Standing b path) (htemplate : tag.name ≠ "template") :
    b.addTag tag = b.hang { content := .element (.html tag.name) tag.attributes } := by
  rw [addTag, h.addElement_eq (by simpa [ElementName.html] using htemplate)]

/-- An element without content is added, wherever it stands in ordinary content. -/
theorem Ready.bodyStart_eq_hang (h : Ready b path) (hfits : Undisturbed path tag.name)
    (hnothing : insideOf (.html tag.name) = .nothing) (htemplate : tag.name ≠ "template") :
    b.bodyStart tag = b.hang { content := .element (.html tag.name) tag.attributes } := by
  rw [← h.addTag_eq htemplate]
  obtain ⟨name, attributes, selfClosing⟩ := tag
  have hname : name ∈ emptyNames := (mem_names_of_insideOf name).1 hnothing
  have hcol : name ≠ "col" := by
    rintro rfl
    cases hfits.misplaced
  have hcases : name ∈ ["base", "basefont", "bgsound", "link", "meta", "param", "source", "track"] ∨
      name ∈ ["area", "br", "embed", "img", "input", "keygen", "wbr"] ∨ name = "hr" := by
    simp only [emptyNames, List.mem_cons, List.not_mem_nil, or_false] at hname htemplate ⊢
    grind
  simp only [List.mem_cons, List.not_mem_nil, or_false] at hcases
  obtain hname | hname | rfl := hcases
  · obtain rfl | rfl | rfl | rfl | rfl | rfl | rfl | rfl := hname <;> rfl
  · have hstart : b.bodyStart ⟨name, attributes, selfClosing⟩ =
        b.reopenFormatting.addTag ⟨name, attributes, selfClosing⟩ := by
      obtain rfl | rfl | rfl | rfl | rfl | rfl | rfl := hname <;> rfl
    rw [hstart, h.reopenFormatting_eq]
  · change b.closeParagraphInScope.addTag _ = _
    rw [h.closeParagraphInScope_eq (hfits.paragraph rfl)]

/-- The end tag of an element that is not open is ignored. -/
theorem Standing.closeNamed_eq_self (h : Standing b path) {name : String}
    (hname : .html name ∉ path) : b.closeNamed name = b := by
  have hsearch : ∀ stack : List Nat, .html name ∉ stack.map b.nameOf →
      closeNamed.search b name stack = none := by
    intro stack hname
    induction stack with
    | nil => rfl
    | cons id rest ih =>
        obtain ⟨hne, hrest⟩ : .html name ≠ b.nameOf id ∧ .html name ∉ rest.map b.nameOf := by
          simpa only [List.map_cons, List.mem_cons, not_or] using hname
        rw [closeNamed.search, if_neg (by simpa [isNamed] using hne.symm), ih hrest]
        split <;> rfl
  rw [closeNamed, hsearch _ (by rw [h.names]; exact hname)]

/-- Elements without content that are written with an end tag. -/
theorem Ready.bodyEnd_eq_self (h : Ready b path) {name : String}
    (hname : ["basefont", "bgsound", "keygen", "param"].contains name = true) :
    b.bodyEnd name = b := by
  have hkind := of_contains (p := fun name => insideOf (.html name) == .nothing) hname rfl
  have hend : b.bodyEnd name = b.closeNamed name := by
    simp only [List.contains_iff_mem, List.mem_cons, List.not_mem_nil, or_false] at hname
    obtain rfl | rfl | rfl | rfl := hname <;> rfl
  rw [hend, h.closeNamed_eq_self]
  intro hmem
  simp [h.nodes _ hmem] at hkind

/-! ## Elements that hold text alone -/

/-- How the characters of an element that holds text alone are read. -/
def textModeOf (name : String) : TextMode :=
  if referenceNames.contains name then .referenceText
  else if name == "script" then .script
  else .rawText

/-- The state in an element that holds text alone. -/
def textOpened (b : Builder) (tag : Tag) (skips : Bool) : Builder :=
  { (b.hang { content := .element (.html tag.name) tag.attributes }).push b.cells.size with
    mode := .text, returnMode := b.mode, textMode := textModeOf tag.name, skipsLineFeed := skips }

theorem Standing.openTextElement_eq (h : Standing b path) (htemplate : tag.name ≠ "template") :
    b.openTextElement tag (textModeOf tag.name) = b.textOpened tag b.skipsLineFeed := by
  rw [openTextElement, openTag, h.openElement_eq (by simpa [ElementName.html] using htemplate)]
  rfl

/-- A start tag of an element that holds text alone. -/
theorem Ready.bodyStart_eq_textOpened (h : Ready b path) (hfits : Undisturbed path tag.name)
    (htext : tag.name ∈ referenceNames ++ characterNames) :
    b.bodyStart tag = b.textOpened tag (b.skipsLineFeed || tag.name == "textarea") := by
  obtain ⟨name, attributes, selfClosing⟩ := tag
  have htemplate : name ≠ "template" := by
    rintro rfl
    exact absurd htext (by simp [referenceNames, characterNames])
  have hopen : b.openTextElement ⟨name, attributes, selfClosing⟩ (textModeOf name) =
      b.textOpened ⟨name, attributes, selfClosing⟩ b.skipsLineFeed :=
    h.openTextElement_eq htemplate
  by_cases htextarea : name = "textarea"
  · subst htextarea
    change { b.openTextElement _ (textModeOf "textarea") with skipsLineFeed := true } = _
    rw [hopen]
    simp only [textOpened, beq_self_eq_true, Bool.or_true]
  by_cases hxmp : name = "xmp"
  · subst hxmp
    change b.closeParagraphInScope.reopenFormatting.openTextElement _ (textModeOf "xmp") = _
    rw [h.closeParagraphInScope_eq (hfits.paragraph rfl), h.reopenFormatting_eq, hopen]
    simp
  have hcases : name ∈ ["title", "iframe", "noembed", "noframes", "noscript", "script", "style"] := by
    simp only [referenceNames, characterNames, List.cons_append, List.nil_append, List.mem_cons,
      List.not_mem_nil, or_false] at htext ⊢
    grind
  have hstart : b.bodyStart ⟨name, attributes, selfClosing⟩ =
      b.openTextElement ⟨name, attributes, selfClosing⟩ (textModeOf name) := by
    simp only [List.mem_cons, List.not_mem_nil, or_false] at hcases
    obtain rfl | rfl | rfl | rfl | rfl | rfl | rfl := hcases <;> rfl
  have hskips : (name == "textarea") = false := by simpa using htextarea
  rw [hstart, hopen, hskips, Bool.or_false]

theorem Ready.standing_textOpened (h : Ready b path) (skips : Bool) :
    Standing (b.textOpened tag skips) (.html tag.name :: path) :=
  (h.push_hang (.html tag.name) tag.attributes).of_same rfl rfl rfl

section textOpened

variable {skips : Bool} {cells : Array Cell} {nodes : List Nat} {trees : List (Tree Unit)}
  (h : Ready b path)

include h

theorem Ready.standing_textGrown
    (hgrown : Grown (b.textOpened tag skips).cells cells b.cells.size nodes trees)
    (hb' : b' = { b.textOpened tag skips with
      cells, textMode := b'.textMode, skipsLineFeed := b'.skipsLineFeed }) :
    Standing b' (.html tag.name :: path) := by
  have hopen := h.push_hang (.html tag.name) tag.attributes
  rw [hb']
  exact hopen.grown hgrown rfl rfl

/-- The end tag of an element that holds text alone goes back to the mode before it. -/
theorem Ready.rule_textEnd
    (hgrown : Grown (b.textOpened tag skips).cells cells b.cells.size nodes trees) (name : String) :
    ∃ b', ({ b.textOpened tag skips with
        cells, textMode := .markup, skipsLineFeed := false } : Builder).rule (.endTag name) =
          .done b' ∧
      Gained b b' path [.element () tag.name (attributesOf tag.attributes) trees] ∧
      b'.skipsLineFeed = false := by
  let inner : Builder :=
    { b.textOpened tag skips with cells, textMode := .markup, skipsLineFeed := false }
  have hstanding : Standing inner (.html tag.name :: path) := h.standing_textGrown hgrown rfl
  have hwhole : Grown b.cells cells b.current [b.cells.size]
      [.element () tag.name (attributesOf tag.attributes) trees] :=
    Grown.element h.current_lt rfl rfl hgrown
  have hready : Ready { inner.pop with mode := b.mode } path :=
    h.grown hwhole rfl ⟨rfl, h.textMode.symm, rfl, rfl⟩ rfl rfl rfl
  refine ⟨{ inner.pop with mode := b.mode }, ?_, ⟨hready, rfl, _, hwhole⟩, rfl⟩
  rw [hstanding.rule_eq]
  · rfl
  · rw [hostAt_cons h.path_ne_nil]
    rfl

end textOpened

/-! ## Templates -/

/-- A template with its inside, at the end of the innermost element. -/
def hangTemplate (b : Builder) (attributes : List (String × String)) : Builder :=
  let cell : Cell :=
    { content := .element (.html "template") attributes, inside := some b.cells.size }
  { b with cells := hangCell (b.cells.push { content := .fragment }) b.current cell }

theorem Standing.addElement_template (h : Standing b path) (attributes : List (String × String)) :
    b.addElement (.html "template") attributes =
      (b.hangTemplate attributes, b.cells.size + 1) := by
  have hlt : b.current < (b.cells.push { content := .fragment }).size := by
    have := h.current_lt
    simp only [Array.size_push]
    omega
  have happend (cell : Cell) (hcell : cell.parent = none) :=
    append_alloc (b := { b with cells := b.cells.push { content := .fragment } }) hcell hlt
  simp only [addElement, h.placeFor_current, allocElement, if_true]
  refine Prod.ext ?_ (by simp [alloc])
  simpa [insertAt, alloc, hangTemplate] using happend
    { content := .element (.html "template") attributes, inside := some b.cells.size } rfl

theorem Ready.hangTemplate_gained (h : Ready b path) (attributes : List (String × String)) :
    Gained b (b.hangTemplate attributes) path
      [.element () "template" (attributesOf attributes) []] := by
  have hlt : b.current < (b.cells.push { content := .fragment }).size := by
    have := h.current_lt
    simp only [Array.size_push]
    omega
  have hleaf : Grown (b.cells.push { content := .fragment }) (b.hangTemplate attributes).cells
      b.current _ [.element () "template" (attributesOf attributes) []] :=
    .leaf hlt fun later fuel hcell => by
      rw [treeOf?, hcell]
      rfl
  have hgrown := (Grown.push h.current_lt).trans h.current_lt hleaf
  exact ⟨h.grown hgrown rfl ⟨rfl, rfl, rfl, rfl⟩ rfl rfl rfl, rfl, _, hgrown⟩

/-- The state in a template. -/
def templateOpened (b : Builder) (attributes : List (String × String)) : Builder :=
  { (b.hangTemplate attributes).push (b.cells.size + 1) with
    formatting := .mark :: b.formatting
    mode := .inTemplate
    templateModes := .inTemplate :: b.templateModes }

theorem Ready.metadataStart_template (h : Ready b path) (hname : tag.name = "template") :
    b.metadataStart tag = b.templateOpened tag.attributes := by
  obtain ⟨name, attributes, selfClosing⟩ := tag
  obtain rfl : name = "template" := hname
  have hstanding : Standing b.pushMark path := h.of_same rfl rfl rfl
  have hstart : b.metadataStart ⟨"template", attributes, selfClosing⟩ =
      { b.pushMark.openTag ⟨"template", attributes, selfClosing⟩ with
        mode := .inTemplate, templateModes := .inTemplate :: b.templateModes } := rfl
  have hadd := hstanding.addElement_template attributes
  rw [hstart, openTag, openElement, hadd]
  rfl

/-- The end tag right behind the start tag of a template closes it. -/
theorem Ready.rule_templateEnd (h : Ready b path) (attributes : List (String × String)) :
    (b.templateOpened attributes).rule (.endTag "template") =
      .done (b.hangTemplate attributes) := by
  have hname : (b.templateOpened attributes).nameOf (b.cells.size + 1) = .html "template" := by
    have hnew (cell : Cell) : (hangCell (b.cells.push { content := .fragment }) b.current cell)[
        b.cells.size + 1]? = some { cell with parent := some b.current } := by
      rw [← Array.size_push, getElem?_hangCell_size]
    simp [nameOf, content?, templateOpened, hangTemplate, push, hnew]
  have hstack : (b.templateOpened attributes).stack = (b.cells.size + 1) :: b.stack := rfl
  have houtside : (b.templateOpened attributes).takesForeign (.endTag "template") = false := by
    obtain ⟨id, rest, hrest⟩ := List.exists_cons_of_ne_nil h.stack_ne_nil
    simp [takesForeign, adjustedCurrentName, hstack, hrest, currentName, current, hname,
      ElementName.html]
  have hinside : (b.templateOpened attributes).inTemplate = true := by
    simp [inTemplate, hstack, isNamed, hname]
  have hclosed : ((b.templateOpened attributes).closeImplied
      ElementName.hasImpliedEndInTemplate).popThroughNamed "template" =
        { b.templateOpened attributes with stack := b.stack } := by
    have hnot : ElementName.hasImpliedEndInTemplate (.html "template") = false := rfl
    have himplied : (b.templateOpened attributes).closeImplied
        ElementName.hasImpliedEndInTemplate = b.templateOpened attributes := by
      rw [closeImplied, hstack, List.dropWhile_cons_of_neg (by simp [hname, hnot]), ← hstack]
    rw [himplied, popThroughNamed, popThrough, hstack,
      List.dropWhile_cons_of_neg (by simp [hname]), List.drop_one, List.tail_cons]
  have hready : Ready (b.hangTemplate attributes) path := (h.hangTemplate_gained attributes).ready
  have hcleared : ({ ({ b.templateOpened attributes with stack := b.stack } : Builder).clearToMark with
      templateModes := (b.templateOpened attributes).templateModes.drop 1 } : Builder) =
        { b.hangTemplate attributes with mode := .inTemplate } := by
    simp [clearToMark, templateOpened, push, hangTemplate]
  have hstanding : Standing { b.hangTemplate attributes with mode := .inTemplate } path :=
    hready.of_same rfl rfl rfl
  have hmode := hstanding.search_eq_modeAt h.not_mem_template
  rw [rule, houtside, if_neg (by decide)]
  change Outcome.done (b.templateOpened attributes).templateEnd = _
  rw [templateEnd, hinside, if_pos rfl]
  simp only [hclosed]
  rw [hcleared, resetMode, hmode, ← h.mode]
  rfl

end LiveTemplate.Markup.Builder
