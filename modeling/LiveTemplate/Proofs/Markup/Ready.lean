import LiveTemplate.Proofs.Markup.Growth
import LiveTemplate.Proofs.Markup.Settled

/-!
# States between two settled nodes

Between two nodes that stay where they are, the state of tree construction is given by the names of
the open elements: the mode, the formatting elements that are remembered, and the form.  What the
rules ask about the stack can then be asked about these names.
-/

namespace LiveTemplate.Markup

namespace Builder

variable {b b' : Builder} {path : List ElementName} {element : ElementName}

/-! ## The stack -/

/-- The names of the open elements are those of a path down from the root, and content goes where it
is written. -/
structure Standing (b : Builder) (path : List ElementName) : Prop where
  names : b.stack.map b.nameOf = path
  nodup : b.stack.Nodup
  lt_size : ∀ id ∈ b.stack, id < b.cells.size
  inside : ∀ id ∈ b.stack, b.cells[id]?.bind Cell.inside = none
  fostering : b.fostering = false
  bottom : path.getLast? = some (.html "html")

theorem content?_hang {id : Nat} (hid : id < b.cells.size) (cell : Cell) :
    (b.hang cell).content? id = b.content? id := by
  by_cases hcurrent : id = b.current
  · subst hcurrent
    simp [content?, hang, getElem?_hangCell_parent hid, Function.comp_def]
  · simp [content?, hang, getElem?_hangCell_of_ne hid hcurrent]

theorem nameOf_hang {id : Nat} (hid : id < b.cells.size) (cell : Cell) :
    (b.hang cell).nameOf id = b.nameOf id := by
  rw [nameOf, nameOf, content?_hang hid]

theorem nameOf_hang_element (name : ElementName) (attributes : List (String × String))
    (inside : Option Nat) : (b.hang { content := .element name attributes, inside }).nameOf
      b.cells.size = name := by
  simp [nameOf, content?, hang, getElem?_hangCell_size]

theorem inside_hang {id : Nat} (hid : id < b.cells.size) (cell : Cell) :
    (b.hang cell).cells[id]?.bind Cell.inside = b.cells[id]?.bind Cell.inside := by
  by_cases hcurrent : id = b.current
  · subst hcurrent
    rw [hang, getElem?_hangCell_parent hid]
    cases b.cells[b.current]? <;> rfl
  · rw [hang, getElem?_hangCell_of_ne hid hcurrent]

namespace Standing

variable (h : Standing b path)

include h

/-- Only the stack, the cells and whether content is fostered count. -/
theorem of_same (hstack : b'.stack = b.stack) (hcells : b'.cells = b.cells)
    (hfostering : b'.fostering = b.fostering) : Standing b' path := by
  have hname : b'.nameOf = b.nameOf := funext fun id => by simp only [nameOf, content?, hcells]
  refine ⟨?_, ?_, ?_, ?_, hfostering.trans h.fostering, h.bottom⟩
  · rw [hstack, hname]
    exact h.names
  · rw [hstack]
    exact h.nodup
  · rw [hstack, hcells]
    exact h.lt_size
  · rw [hstack, hcells]
    exact h.inside

theorem stack_ne_nil : b.stack ≠ [] := by
  rintro hnil
  have hbottom := h.bottom
  rw [← h.names, hnil] at hbottom
  cases hbottom

theorem current_mem : b.current ∈ b.stack := by
  obtain ⟨id, rest, hstack⟩ := List.exists_cons_of_ne_nil h.stack_ne_nil
  simp [current, hstack]

theorem current_lt : b.current < b.cells.size := h.lt_size _ h.current_mem

theorem head?_path : path.head? = some b.currentName := by
  obtain ⟨id, rest, hstack⟩ := List.exists_cons_of_ne_nil h.stack_ne_nil
  rw [← h.names, hstack]
  simp [currentName, current, hstack]

theorem placeFor_current : b.placeFor b.current = .lastOf b.current := by
  simp [placeFor, h.fostering, placeFor.inside, h.inside _ h.current_mem]

theorem insertComment_eq (data : String) :
    b.insertComment data = b.hang { content := .comment data } := by
  have hplace : (b.alloc { content := .comment data }).1.placeFor b.current =
      .lastOf b.current := by
    have := h.inside _ h.current_mem
    simp [placeFor, alloc, h.fostering, placeFor.inside, Array.getElem?_push,
      Nat.ne_of_lt h.current_lt, this]
  have happend : (b.alloc { content := .comment data }).1.append b.current b.cells.size =
      b.hang { content := .comment data } := append_alloc rfl h.current_lt
  exact (congrArg (insertAt _ · _) hplace).trans happend

theorem addElement_eq {name : ElementName} (hname : name ≠ .html "template")
    (attributes : List (String × String)) : b.addElement name attributes =
      (b.hang { content := .element name attributes }, b.cells.size) := by
  have happend : (b.alloc { content := .element name attributes }).1.append b.current b.cells.size =
      b.hang { content := .element name attributes } := append_alloc rfl h.current_lt
  simp only [addElement, h.placeFor_current, allocElement, hname, if_false]
  exact Prod.ext happend rfl

theorem openElement_eq {name : ElementName} (hname : name ≠ .html "template")
    (attributes : List (String × String)) : b.openElement name attributes =
      (b.hang { content := .element name attributes }).push b.cells.size := by
  simp only [openElement, h.addElement_eq hname]

/-- What content there is below the open elements has no say in what is open. -/
theorem hang (cell : Cell) : Standing (b.hang cell) path where
  names := by
    rw [← h.names]
    exact List.map_congr_left fun id hid => nameOf_hang (h.lt_size id hid) cell
  nodup := h.nodup
  lt_size := fun id hid => by
    have := h.lt_size id hid
    simp only [Builder.hang, size_hangCell]
    omega
  inside := fun id hid => (inside_hang (h.lt_size id hid) cell).trans (h.inside id hid)
  fostering := h.fostering
  bottom := h.bottom

/-- An element has been opened at the end of the innermost one. -/
theorem push_hang (element : ElementName) (attributes : List (String × String)) :
    Standing ((b.hang { content := .element element attributes }).push b.cells.size)
      (element :: path) where
  names := by
    have hnew := nameOf_hang_element (b := b) element attributes none
    exact congr (congrArg List.cons hnew) (h.hang _).names
  nodup := List.nodup_cons.2 ⟨fun hid => Nat.lt_irrefl _ (h.lt_size _ hid), h.nodup⟩
  lt_size := by
    intro id hid
    obtain rfl | hid := List.mem_cons.1 hid
    · simp only [push, Builder.hang, size_hangCell]
      omega
    · exact (h.hang _).lt_size id hid
  inside := by
    intro id hid
    obtain rfl | hid := List.mem_cons.1 hid
    · simp only [push, Builder.hang, getElem?_hangCell_size, Option.bind_some]
    · exact (h.hang _).inside id hid
  fostering := h.fostering
  bottom := by
    rw [List.getLast?_cons, h.bottom, Option.getD_some]

end Standing

/-- The innermost element is closed. -/
theorem Standing.pop (h : Standing b (element :: path)) (hpath : path ≠ []) :
    Standing b.pop path := by
  obtain ⟨id, rest, hstack⟩ := List.exists_cons_of_ne_nil h.stack_ne_nil
  have hrest : b.pop.stack = rest := by simp [Builder.pop, hstack]
  have hsub : ∀ id ∈ b.pop.stack, id ∈ b.stack := by
    rw [hrest, hstack]
    exact fun id => List.mem_cons_of_mem _
  refine ⟨?_, ?_, fun id hid => h.lt_size id (hsub id hid), fun id hid => h.inside id (hsub id hid),
    h.fostering, ?_⟩
  · have hnames := h.names
    rw [hstack, List.map_cons] at hnames
    rw [hrest]
    exact (List.cons.inj hnames).2
  · have hnodup := h.nodup
    rw [hstack] at hnodup
    rw [hrest]
    exact (List.nodup_cons.1 hnodup).2
  · obtain ⟨outer, more, rfl⟩ := List.exists_cons_of_ne_nil hpath
    rw [← h.bottom, List.getLast?_cons_cons]

/-! ## What the rules ask about the stack -/

theorem hostAt_cons (hpath : path ≠ []) : hostAt (element :: path) = element := by
  obtain ⟨outer, more, rfl⟩ := List.exists_cons_of_ne_nil hpath
  rfl

namespace Standing

variable (h : Standing b path)

include h

/-- A scope is searched by the names alone. -/
theorem inScope_eq (bounds p : ElementName → Bool) :
    (b.inScope bounds fun id => p (b.nameOf id)) = scopeHas bounds p path := by
  rw [← h.names, inScope]
  induction b.stack with
  | nil => rfl
  | cons id rest ih => rw [inScope.search, ih, List.map_cons, scopeHas]

theorem hasInScope_eq (bounds : ElementName → Bool) (name : String) :
    b.hasInScope bounds name = scopeHasNamed bounds name path :=
  h.inScope_eq bounds (· == .html name)

theorem any_isNamed_eq (name : String) :
    (b.stack.any fun id => b.isNamed id name) = path.contains (.html name) := by
  simp only [isNamed]
  rw [← h.names]
  induction b.stack with
  | nil => rfl
  | cons id rest ih =>
      rw [List.any_cons, ih, List.map_cons, List.contains_cons, Bool.beq_comm]

theorem closeItem_eq {names : List String} (hitem : itemIsOpen names path = false) :
    b.closeItem names = b := by
  have hsearch : ∀ stack : List Nat, itemIsOpen names (stack.map b.nameOf) = false →
      closeItem.search b names stack = none := by
    intro stack hitem
    induction stack with
    | nil => rfl
    | cons id rest ih =>
        rw [List.map_cons, itemIsOpen, Bool.or_eq_false_iff] at hitem
        rw [closeItem.search, if_neg (by simp [hitem.1])]
        split
        · rfl
        · rename_i hbound
          refine ih ?_
          have := hitem.2
          grind
  rw [closeItem, hsearch _ (by rw [h.names]; exact hitem)]

omit h in
theorem selectMode_eq_modeAt (b : Builder) (stack : List Nat) :
    resetMode.selectMode b stack = modeAt.selectMode (stack.map b.nameOf) := by
  induction stack with
  | nil => rfl
  | cons id rest ih =>
      rw [resetMode.selectMode, List.map_cons, modeAt.selectMode, ih]
      rfl

omit h in
/-- The mode is looked up in the names of the open elements, as long as no template is open. -/
theorem search_eq_modeAt_map {stack : List Nat} (htemplate : .html "template" ∉ stack.map b.nameOf) :
    resetMode.search b stack = modeAt (stack.map b.nameOf) := by
  induction stack with
  | nil => rfl
  | cons id rest ih =>
      cases rest with
      | nil => rfl
      | cons id' rest =>
          rw [List.map_cons, List.mem_cons, not_or] at htemplate
          have hnot : (b.nameOf id).isOneOf ["template"] = false := by
            have hne := htemplate.1
            generalize b.nameOf id = element at hne
            obtain ⟨vocabulary, name⟩ := element
            grind [ElementName.isOneOf, ElementName.html]
          have hbelow := ih htemplate.2
          rw [List.map_cons] at hbelow
          simp only [resetMode.search, List.map_cons, modeAt, selectMode_eq_modeAt, hnot, hbelow]
          simp

theorem search_eq_modeAt (htemplate : .html "template" ∉ path) :
    resetMode.search b b.stack = modeAt path := by
  rw [← h.names] at htemplate ⊢
  exact search_eq_modeAt_map htemplate

theorem adjustedCurrentName_eq : b.adjustedCurrentName = hostAt path := by
  obtain ⟨id, rest, hstack⟩ := List.exists_cons_of_ne_nil h.stack_ne_nil
  have hnames := h.names
  rw [hstack, List.map_cons] at hnames
  cases rest with
  | nil => simp [adjustedCurrentName, hstack, ← hnames, hostAt]
  | cons id' rest =>
      rw [← hnames, List.map_cons]
      simp [adjustedCurrentName, hstack, hostAt, currentName, current]

/-- The root and the body, for which it stands, mean the same to most rules. -/
theorem apply_currentName {α : Type} {p : ElementName → α}
    (hp : p (.html "html") = p (.html "body")) : p b.currentName = p (hostAt path) := by
  have hhead := h.head?_path
  have hbottom := h.bottom
  rcases path with _ | ⟨element, _ | ⟨outer, path⟩⟩
  · cases hhead
  · obtain rfl := Option.some.inj hbottom
    rw [← Option.some.inj hhead]
    exact hp
  · rw [← Option.some.inj hhead]
    rfl

end Standing

theorem Standing.closeImplied_of_currentName (h : Standing b path)
    {implied : ElementName → Bool} (himplied : implied b.currentName = false) :
    b.closeImplied implied = b := by
  obtain ⟨id, rest, hstack⟩ := List.exists_cons_of_ne_nil h.stack_ne_nil
  have hname : b.nameOf id = b.currentName := by simp [currentName, current, hstack]
  rw [closeImplied, hstack, List.dropWhile_cons_of_neg (by simp [hname, himplied]), ← hstack]

/-! ## Closing the innermost element -/

namespace Standing

variable (h : Standing b (element :: path))

include h

theorem exists_stack : ∃ rest, b.stack = b.current :: rest ∧ b.pop.stack = rest ∧
    b.nameOf b.current = element := by
  obtain ⟨id, rest, hstack⟩ := List.exists_cons_of_ne_nil h.stack_ne_nil
  have hcurrent : b.current = id := by simp [current, hstack]
  have hnames := h.names
  rw [hstack, List.map_cons] at hnames
  exact ⟨rest, by rw [hcurrent, hstack], by simp [Builder.pop, hstack],
    hcurrent ▸ (List.cons.inj hnames).1⟩

theorem currentName_cons : b.currentName = element :=
  let ⟨_, _, _, hname⟩ := h.exists_stack
  hname

theorem popThrough_eq {p : ElementName → Bool} (hp : p element = true) : b.popThrough p = b.pop := by
  obtain ⟨rest, hstack, hpop, hname⟩ := h.exists_stack
  rw [popThrough, hstack, List.dropWhile_cons_of_neg (by simp [hname, hp]), ← hstack]
  rfl

theorem popTo_eq {p : ElementName → Bool} (hp : p element = true) : b.popTo p = b := by
  obtain ⟨rest, hstack, hpop, hname⟩ := h.exists_stack
  rw [popTo, hstack, List.dropWhile_cons_of_neg (by simp [hname, hp]), ← hstack]

theorem closeImplied_eq {implied : ElementName → Bool} (himplied : implied element = false) :
    b.closeImplied implied = b :=
  h.closeImplied_of_currentName (h.currentName_cons ▸ himplied)

theorem removeFromStack_current : b.removeFromStack b.current = b.pop := by
  obtain ⟨rest, hstack, hpop, hname⟩ := h.exists_stack
  have hnodup := h.nodup
  rw [hstack, List.nodup_cons] at hnodup
  have hfilter : b.stack.filter (· != b.current) = b.stack.drop 1 := by
    rw [hstack, List.filter_cons_of_neg (by simp), List.drop_one, List.tail_cons,
      List.filter_eq_self]
    intro id hid
    simpa using ne_of_mem_of_not_mem hid hnodup.1
  rw [removeFromStack, hfilter, Builder.pop]

end Standing

theorem Standing.popThroughNamed_eq {name : String} (h : Standing b (.html name :: path)) :
    b.popThroughNamed name = b.pop :=
  h.popThrough_eq (by simp)

theorem Standing.closeNamed_eq {name : String} (h : Standing b (.html name :: path)) :
    b.closeNamed name = b.pop := by
  obtain ⟨rest, hstack, hpop, hname⟩ := h.exists_stack
  have hsearch : closeNamed.search b name b.stack = some rest := by
    rw [hstack, closeNamed.search, if_pos (by simp [isNamed, hname])]
  rw [closeNamed, hsearch, ← hpop]
  rfl

/-! ## Formatting elements and forms -/

/-- What holds of each of some names holds of a name among them. -/
theorem of_contains {p : String → Bool} {names : List String} {name : String}
    (h : names.contains name = true) (hall : names.all p = true) : p name = true :=
  List.all_eq_true.1 hall name (List.contains_iff_mem.1 h)

/-- A name that lacks what holds of each of some names is none of them. -/
theorem not_contains_of_all {p : String → Bool} {name : String} (hname : p name = false)
    (names : List String) (hall : names.all p = true) : names.contains name = false := by
  rw [← Bool.not_eq_true]
  intro hmem
  rw [of_contains hmem hall] at hname
  cases hname

@[simp]
theorem isOneOf_html (name : String) (names : List String) :
    (ElementName.html name).isOneOf names = names.contains name := by
  simp [ElementName.isOneOf, ElementName.html]

/-- Elements that are remembered for formatting. -/
def isRemembered (name : String) : Bool := name == "a" || name == "nobr" || isFormattingName name

/-- What holds of each of these elements holds of a remembered one. -/
theorem of_isRemembered {p : String → Bool} {name : String} (h : isRemembered name = true)
    (hall : ["a", "nobr", "b", "big", "code", "em", "font", "i", "s", "small", "strike", "strong",
      "tt", "u"].all p = true) : p name = true :=
  of_contains (by simpa [isRemembered, isFormattingName, or_assoc] using h) hall

theorem setsMark_of_isRemembered {name : String} (h : isRemembered name = true) :
    (ElementName.html name).setsMark = false := by
  simpa using of_isRemembered (p := fun name => !(ElementName.html name).setsMark) h rfl

/-- The elements that are remembered for formatting are open, in order, with a mark for each element
whose inside is apart.  Of many alike ones some are forgotten. -/
inductive Tracks : List Nat → List ElementName → List FormatEntry → Prop
  | nil : Tracks [] [] []
  | plain {id : Nat} {ids : List Nat} {element : ElementName} {path : List ElementName}
      {entries : List FormatEntry} (hmark : element.setsMark = false)
      (h : Tracks ids path entries) : Tracks (id :: ids) (element :: path) entries
  | entry {id : Nat} {ids : List Nat} {tag : Tag} {path : List ElementName}
      {entries : List FormatEntry} (htag : isRemembered tag.name = true)
      (h : Tracks ids path entries) :
      Tracks (id :: ids) (.html tag.name :: path) (.element id tag :: entries)
  | mark {id : Nat} {ids : List Nat} {element : ElementName} {path : List ElementName}
      {entries : List FormatEntry} (hmark : element.setsMark = true)
      (h : Tracks ids path entries) : Tracks (id :: ids) (element :: path) (.mark :: entries)

/-- The innermost form. -/
def openForm : List Nat → List ElementName → Option Nat
  | id :: ids, element :: path => if element = .html "form" then some id else openForm ids path
  | _, _ => none

theorem openForm_eq_none {ids : List Nat} (h : .html "form" ∉ path) : openForm ids path = none := by
  induction path generalizing ids with
  | nil => cases ids <;> rfl
  | cons element path ih =>
      obtain ⟨hne, hpath⟩ : .html "form" ≠ element ∧ .html "form" ∉ path := by simpa using h
      cases ids with
      | nil => rfl
      | cons id ids => rw [openForm, if_neg hne.symm, ih hpath]

/-! ## Modes -/

theorem isOneOf_of_subset {names names' : List String} (hsub : ∀ name ∈ names, name ∈ names')
    (h : element.isOneOf names = true) : element.isOneOf names' = true := by
  simp only [ElementName.isOneOf, Bool.and_eq_true, List.contains_iff_mem] at h ⊢
  exact ⟨h.1, hsub _ h.2⟩

theorem eq_html_of_isOneOf {name : String} (h : element.isOneOf [name] = true) :
    element = .html name := by
  obtain ⟨vocabulary, elementName⟩ := element
  simp only [ElementName.isOneOf, Bool.and_eq_true, beq_iff_eq, List.contains_iff_mem,
    List.mem_singleton] at h
  obtain ⟨rfl, rfl⟩ := h
  rfl

/-- Elements that have a mode of their own. -/
def setsMode (element : ElementName) : Bool :=
  element.isOneOf
    ["select", "td", "th", "tr", "tbody", "thead", "tfoot", "caption", "colgroup", "table"]

/-- Inside other elements the mode is that around them. -/
theorem modeAt_cons (hpath : path ≠ []) (h : setsMode element = false) :
    modeAt (element :: path) = modeAt path := by
  obtain ⟨outer, more, rfl⟩ := List.exists_cons_of_ne_nil hpath
  have hnone {names : List String} (hnames : ∀ name ∈ names, name ∈ ["select", "td", "th", "tr",
      "tbody", "thead", "tfoot", "caption", "colgroup", "table"]) : element.isOneOf names = false := by
    rw [← Bool.not_eq_true]
    intro hone
    rw [setsMode, isOneOf_of_subset hnames hone] at h
    cases h
  rw [modeAt, hnone (by simp), ElementName.isCell, hnone (by simp), hnone (by simp),
    hnone (by simp), hnone (by simp), hnone (by simp), hnone (by simp)]
  · simp
  · simp

/-- Parts of a table are inside one. -/
def InTables : List ElementName → Prop
  | [] => True
  | element :: outer =>
    (element.isOneOf ["td", "th", "tr", "tbody", "thead", "tfoot", "caption"] = true →
      .html "table" ∈ outer) ∧ InTables outer

/-- The mode of a selection list depends on whether a table is open around it. -/
theorem selectMode_eq (htemplate : .html "template" ∉ path) :
    modeAt.selectMode path =
      if path.contains (.html "table") then .inSelectInTable else .inSelect := by
  induction path with
  | nil => rfl
  | cons element outer ih =>
      obtain ⟨hne, houter⟩ : .html "template" ≠ element ∧ .html "template" ∉ outer := by
        simpa using htemplate
      rw [modeAt.selectMode, if_neg (by simpa using hne.symm), ih houter, List.contains_cons]
      by_cases htable : element = .html "table"
      · simp [htable]
      · simp [htable, Ne.symm htable]

theorem selectMode_eq_or (path : List ElementName) :
    modeAt.selectMode path = .inSelect ∨ modeAt.selectMode path = .inSelectInTable := by
  induction path with
  | nil => exact .inl rfl
  | cons element outer ih =>
      rw [modeAt.selectMode]
      split
      · exact .inl rfl
      · split
        · exact .inr rfl
        · exact ih

/-- Ordinary content has a table around it if it is in one of its cells or its caption. -/
theorem contains_table_of_modeAt (hbottom : path.getLast? = some (.html "html"))
    (hinTables : InTables path) :
    (modeAt path = .inBody → path.contains (.html "table") = false) ∧
      (modeAt path = .inCell ∨ modeAt path = .inCaption →
        path.contains (.html "table") = true) := by
  induction path with
  | nil => cases hbottom
  | cons element outer ih =>
      rcases outer with _ | ⟨next, outer⟩
      · obtain rfl := Option.some.inj hbottom
        exact ⟨fun _ => by decide, fun h => by rcases h with h | h <;> cases h⟩
      · obtain ⟨hbody, hcell⟩ := ih (by simpa using hbottom) hinTables.2
        have hinside := hinTables.1
        rw [modeAt]
        · split
          · rcases selectMode_eq_or (next :: outer) with hselect | hselect <;> simp [hselect]
          split
          · rename_i hpart
            -- A part of a table stands in one.
            have := hinside (isOneOf_of_subset (by simp) hpart)
            simp [this]
          split
          · simp
          split
          · simp
          split
          · rename_i hpart
            have := hinside (isOneOf_of_subset (by simp) hpart)
            simp [this]
          split
          · simp
          split
          · simp
          · rename_i htable
            have hne : (ElementName.html "table" == element) = false := by
              rw [beq_eq_false_iff_ne]
              rintro rfl
              exact htable rfl
            rw [List.contains_cons, hne, Bool.false_or]
            exact ⟨hbody, hcell⟩
        · simp

/-- Between two settled nodes, below the given open elements. -/
structure Ready (b : Builder) (path : List ElementName) : Prop extends Standing b path where
  mode : b.mode = modeAt path
  textMode : b.textMode = .markup
  tableText : b.tableText = []
  templateModes : b.templateModes = []
  tracks : Tracks b.stack path b.formatting
  form : b.form = openForm b.stack path
  nodes : ∀ element ∈ path, insideOf element = .nodes
  inTables : InTables path

/-! ## From one node to the next -/

/-- The fields that stay as they are while nodes are opened and closed. -/
structure Even (b b' : Builder) : Prop where
  fostering : b'.fostering = b.fostering
  textMode : b'.textMode = b.textMode
  tableText : b'.tableText = b.tableText
  templateModes : b'.templateModes = b.templateModes

/-- An element has been opened at the end of the innermost one. -/
structure Opened (b b' : Builder) (path : List ElementName) (element : ElementName)
    (attributes : List (String × String)) : Prop where
  ready : Ready b' (element :: path)
  stack : b'.stack = b.cells.size :: b.stack
  cells : b'.cells = hangCell b.cells b.current { content := .element element attributes }
  skips : b'.skipsLineFeed = true →
    b.skipsLineFeed = true ∨ element.isOneOf ["pre", "listing"] = true

/-- The innermost element has been closed. -/
structure Closed (b b' : Builder) (path : List ElementName) : Prop where
  ready : Ready b' path
  stack : b'.stack = b.stack.drop 1
  cells : b'.cells = b.cells
  skips : b'.skipsLineFeed = b.skipsLineFeed

theorem Ready.opened (h : Ready b path) {attributes : List (String × String)}
    (hnodes : insideOf element = .nodes)
    (hinTables : element.isOneOf ["td", "th", "tr", "tbody", "thead", "tfoot", "caption"] = true →
      .html "table" ∈ path)
    (hstack : b'.stack = b.cells.size :: b.stack)
    (hcells : b'.cells = hangCell b.cells b.current { content := .element element attributes })
    (heven : Even b b') (hmode : b'.mode = modeAt (element :: path))
    (htracks : Tracks (b.cells.size :: b.stack) (element :: path) b'.formatting)
    (hform : b'.form = openForm (b.cells.size :: b.stack) (element :: path))
    (hskips : b'.skipsLineFeed = true →
      b.skipsLineFeed = true ∨ element.isOneOf ["pre", "listing"] = true) :
    Opened b b' path element attributes where
  ready :=
    { toStanding := (h.push_hang element attributes).of_same hstack hcells heven.fostering
      mode := hmode
      textMode := heven.textMode.trans h.textMode
      tableText := heven.tableText.trans h.tableText
      templateModes := heven.templateModes.trans h.templateModes
      tracks := hstack ▸ htracks
      form := hstack ▸ hform
      nodes := List.forall_mem_cons.2 ⟨hnodes, h.nodes⟩
      inTables := ⟨hinTables, h.inTables⟩ }
  stack := hstack
  cells := hcells
  skips := hskips

theorem Ready.exists_tracks (h : Ready b (element :: path)) :
    Tracks (b.current :: b.stack.drop 1) (element :: path) b.formatting ∧
      b.form = openForm (b.current :: b.stack.drop 1) (element :: path) := by
  obtain ⟨rest, hstack, hpop, hname⟩ := h.exists_stack
  have hwhole : b.current :: b.stack.drop 1 = b.stack := by rw [hstack, List.drop_one, List.tail_cons]
  rw [hwhole]
  exact ⟨h.tracks, h.form⟩

theorem Ready.closed (h : Ready b (element :: path)) (hpath : path ≠ [])
    (hstack : b'.stack = b.stack.drop 1) (hcells : b'.cells = b.cells) (heven : Even b b')
    (hmode : b'.mode = modeAt path) (htracks : Tracks (b.stack.drop 1) path b'.formatting)
    (hform : b'.form = openForm (b.stack.drop 1) path)
    (hskips : b'.skipsLineFeed = b.skipsLineFeed) : Closed b b' path where
  ready :=
    { toStanding := (h.toStanding.pop hpath).of_same hstack hcells heven.fostering
      mode := hmode
      textMode := heven.textMode.trans h.textMode
      tableText := heven.tableText.trans h.tableText
      templateModes := heven.templateModes.trans h.templateModes
      tracks := hstack ▸ htracks
      form := hstack ▸ hform
      nodes := fun outer houter => h.nodes outer (List.mem_cons_of_mem _ houter)
      inTables := h.inTables.2 }
  stack := hstack
  cells := hcells
  skips := hskips

/-- Content below the open elements changes nothing else. -/
theorem Ready.hang (h : Ready b path) (cell : Cell) : Ready (b.hang cell) path where
  toStanding := h.toStanding.hang cell
  mode := h.mode
  textMode := h.textMode
  tableText := h.tableText
  templateModes := h.templateModes
  tracks := h.tracks
  form := h.form
  nodes := h.nodes
  inTables := h.inTables

theorem Ready.path_ne_nil (h : Ready b path) : path ≠ [] := by
  rintro rfl
  cases h.bottom

theorem Ready.not_mem_template (h : Ready b path) : .html "template" ∉ path := by
  intro hmem
  exact absurd (h.nodes _ hmem) (by decide)

/-- Whatever has been read below the innermost element, the open elements are the same. -/
theorem Standing.grown (h : Standing b path) {nodes : List Nat} {trees : List (Tree Unit)}
    (hgrown : Grown b.cells b'.cells b.current nodes trees) (hstack : b'.stack = b.stack)
    (hfostering : b'.fostering = b.fostering) : Standing b' path := by
  have hcell {id : Nat} (hid : id ∈ b.stack) :
      b'.content? id = b.content? id ∧
        b'.cells[id]?.bind Cell.inside = b.cells[id]?.bind Cell.inside := by
    rw [content?, content?]
    by_cases hcurrent : id = b.current
    · rw [hcurrent, hgrown.atParent]
      cases b.cells[b.current]? <;> exact ⟨rfl, rfl⟩
    · rw [hgrown.others id (h.lt_size id hid) hcurrent]
      exact ⟨rfl, rfl⟩
  refine ⟨?_, ?_, ?_, ?_, hfostering.trans h.fostering, h.bottom⟩
  · rw [hstack, ← h.names]
    exact List.map_congr_left fun id hid => by rw [nameOf, nameOf, (hcell hid).1]
  · rw [hstack]
    exact h.nodup
  · rw [hstack]
    exact fun id hid => Nat.lt_of_lt_of_le (h.lt_size id hid) hgrown.size_le
  · rw [hstack]
    exact fun id hid => (hcell hid).2.trans (h.inside id hid)

theorem Ready.grown (h : Ready b path) {nodes : List Nat} {trees : List (Tree Unit)}
    (hgrown : Grown b.cells b'.cells b.current nodes trees) (hstack : b'.stack = b.stack)
    (heven : Even b b') (hmode : b'.mode = b.mode) (hformatting : b'.formatting = b.formatting)
    (hform : b'.form = b.form) : Ready b' path where
  toStanding := h.toStanding.grown hgrown hstack heven.fostering
  mode := hmode.trans h.mode
  textMode := heven.textMode.trans h.textMode
  tableText := heven.tableText.trans h.tableText
  templateModes := heven.templateModes.trans h.templateModes
  tracks := by
    rw [hstack, hformatting]
    exact h.tracks
  form := by
    rw [hstack, hform]
    exact h.form
  nodes := h.nodes
  inTables := h.inTables

end Builder

end LiveTemplate.Markup
