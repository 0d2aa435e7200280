import LiveTemplate.Markup.Builder.Rules
import LiveTemplate.Proofs.Markup.Spelling

/-!
# Tree construction keeps what can be read back

The cells of the tree and the formatting elements come from the tokens or are implied.  So when the
tokens have names and comments that can be read back, then the tree has, at every step.
-/

namespace LiveTemplate.Markup

/-- The content of a cell whose names or comment are read as they are written. -/
def CellContent.Spelled : CellContent → Prop
  | .element name attributes => SpelledElement name.name attributes
  | .comment data => SpelledComment data
  | _ => True

/-- The case of a name is restored from a list, or the name is kept. -/
theorem apply_restoreCase {p : String → Prop} {names : List String} (h : ∀ name ∈ names, p name)
    {name : String} (hname : p name) : p (restoreCase names name) := by
  unfold restoreCase
  cases hfound : names.find? fun candidate => lower candidate.toList == name with
  | none => exact hname
  | some candidate => exact h candidate (List.mem_of_find?_eq_some hfound)

theorem spelled_adjustAttribute (vocabulary : Vocabulary) {name : String} (h : SpelledName name) :
    SpelledName (adjustAttribute vocabulary name) := by
  have hforeign : ∀ entry ∈ foreignAttributes, SpelledName entry.2 := by decide +kernel
  have hlookup {name : String} (h : SpelledName name) :
      SpelledName ((foreignAttributes.lookup name).getD name) := by
    cases hfound : foreignAttributes.lookup name with
    | none => exact h
    | some found =>
        obtain ⟨before, after, hsplit, -⟩ := List.lookup_eq_some_iff.1 hfound
        exact hforeign (name, found) (by simp [hsplit])
  refine hlookup ?_
  cases vocabulary with
  | svg => exact apply_restoreCase (by decide +kernel) h
  | math => exact apply_restoreCase (by decide +kernel) h
  | html => exact h

theorem spelled_adjustAttributes {attributes : List (String × String)} (vocabulary : Vocabulary)
    (h : ∀ entry ∈ attributes, SpelledName entry.1) :
    ∀ entry ∈ adjustAttributes vocabulary attributes, SpelledName entry.1 := by
  unfold adjustAttributes
  rw [List.forall_mem_map]
  exact fun entry hentry => spelled_adjustAttribute vocabulary (h entry hentry)

theorem mem_of_mem_recentFormatting {formatting : List FormatEntry} {entry : Nat × Tag}
    (h : entry ∈ Builder.recentFormatting formatting) :
    .element entry.1 entry.2 ∈ formatting := by
  fun_induction Builder.recentFormatting formatting with
  | case1 cell tag rest ih =>
      obtain rfl | h := List.mem_cons.1 h
      · exact List.mem_cons_self
      · exact List.mem_cons_of_mem _ (ih h)
  | case2 => cases h

namespace Builder

/-- Formatting elements whose names are read as they are written. -/
def SpelledFormatting (formatting : List FormatEntry) : Prop :=
  ∀ cell tag, .element cell tag ∈ formatting → SpelledElement tag.name tag.attributes

theorem SpelledFormatting.cons {formatting : List FormatEntry} (h : SpelledFormatting formatting)
    {tag : Tag} (htag : SpelledElement tag.name tag.attributes) (id : Nat) :
    SpelledFormatting (.element id tag :: formatting) := by
  intro cell other hentry
  obtain heq | hentry := List.mem_cons.1 hentry
  · cases heq
    exact htag
  · exact h cell other hentry

theorem SpelledFormatting.of_subset {formatting formatting' : List FormatEntry}
    (h : SpelledFormatting formatting) (hsub : formatting' ⊆ formatting) :
    SpelledFormatting formatting' :=
  fun cell tag hentry => h cell tag (hsub hentry)

theorem SpelledFormatting.of_recent {formatting : List FormatEntry}
    (h : SpelledFormatting formatting) {entry : Nat × Tag}
    (hentry : entry ∈ recentFormatting formatting) :
    SpelledElement entry.2.name entry.2.attributes :=
  h _ _ (mem_of_mem_recentFormatting hentry)

/-- An entry takes the place of another one. -/
theorem SpelledFormatting.replace {formatting : List FormatEntry}
    (h : SpelledFormatting formatting) {tag : Tag} (htag : SpelledElement tag.name tag.attributes)
    (p : FormatEntry → Bool) (copy : Nat) :
    SpelledFormatting (formatting.map fun entry => if p entry then .element copy tag else entry) := by
  intro cell other hentry
  obtain ⟨entry, hmem, heq⟩ := List.mem_map.1 hentry
  split at heq
  · cases heq
    exact htag
  · exact h cell other (heq ▸ hmem)

theorem insertBehind_subset (cell : Nat) (entry : FormatEntry) (formatting : List FormatEntry) :
    insertBehind cell entry formatting ⊆ entry :: formatting := by
  induction formatting with
  | nil => exact List.Subset.refl _
  | cons first rest ih =>
      unfold insertBehind
      split
      · exact List.Subset.refl _
      · intro other hother
        have := @ih other
        grind

/-- A builder all of whose names and comments are read as they are written. -/
structure Spelled (b : Builder) : Prop where
  cells : ∀ (id : Nat) (cell : Cell), b.cells[id]? = some cell → cell.content.Spelled
  formatting : SpelledFormatting b.formatting

/-- The same for what became of a token. -/
def Outcome.Spelled : Outcome → Prop
  | .done b => b.Spelled
  | .again b => b.Spelled

namespace Spelled

variable {b : Builder}

theorem start : Builder.start.Spelled where
  cells id cell hcell := by
    obtain ⟨hid, rfl⟩ := Array.getElem?_eq_some_iff.1 hcell
    obtain rfl := Nat.lt_one_iff.1 hid
    exact ⟨⟨'h', ['t', 'm', 'l'], rfl, rfl, by simp [endsTagName, isSpace]⟩, by simp⟩
  formatting _ _ htag := by cases htag

theorem of_cells {b' : Builder} (h : b.Spelled) (hcells : b'.cells = b.cells)
    (hformatting : SpelledFormatting b'.formatting) : b'.Spelled :=
  ⟨hcells ▸ h.cells, hformatting⟩

theorem withStack (h : b.Spelled) (stack : List Nat) : { b with stack }.Spelled :=
  ⟨h.cells, h.formatting⟩

theorem withMode (h : b.Spelled) (mode : Mode) : { b with mode }.Spelled :=
  ⟨h.cells, h.formatting⟩

theorem withFormatting (h : b.Spelled) {formatting : List FormatEntry}
    (hformatting : SpelledFormatting formatting) : { b with formatting }.Spelled :=
  ⟨h.cells, hformatting⟩

theorem ite {c : Prop} [Decidable c] {b' : Builder} (h : b.Spelled) (h' : b'.Spelled) :
    (if c then b else b').Spelled := by
  split
  · exact h
  · exact h'

/-! ### Cells -/

theorem modifyCell (h : b.Spelled) (id : Nat) {f : Cell → Cell}
    (hf : ∀ cell, cell.content.Spelled → (f cell).content.Spelled) :
    (b.modifyCell id f).Spelled where
  cells other cell hcell := by
    simp only [Builder.modifyCell, Array.getElem?_modify] at hcell
    split at hcell
    · obtain ⟨before, hbefore, rfl⟩ := Option.map_eq_some_iff.1 hcell
      exact hf before (h.cells _ _ hbefore)
    · exact h.cells _ _ hcell
  formatting := h.formatting

/-- The links of a cell are no part of its content. -/
theorem relink (h : b.Spelled) (id : Nat) {f : Cell → Cell}
    (hf : ∀ cell, (f cell).content = cell.content) :
    (b.modifyCell id f).Spelled :=
  h.modifyCell id fun cell hcell => (hf cell).symm ▸ hcell

theorem alloc (h : b.Spelled) (cell : Cell) (hcell : cell.content.Spelled) :
    (b.alloc cell).1.Spelled where
  cells id other hother := by
    simp only [Builder.alloc, Array.getElem?_push] at hother
    split at hother
    · cases hother
      exact hcell
    · exact h.cells _ _ hother
  formatting := h.formatting

theorem allocElement (h : b.Spelled) (name : ElementName) {attributes : List (String × String)}
    (hname : SpelledElement name.name attributes) : (b.allocElement name attributes).1.Spelled := by
  unfold Builder.allocElement
  split
  · exact (h.alloc { content := .fragment } trivial).alloc _ hname
  · exact h.alloc _ hname

theorem detach (h : b.Spelled) (id : Nat) : (b.detach id).Spelled := by
  unfold Builder.detach
  split
  · exact h
  · refine (h.relink _ ?_).relink _ ?_ <;> exact fun _ => rfl

theorem append (h : b.Spelled) (parent id : Nat) : (b.append parent id).Spelled := by
  refine ((h.detach id).relink _ ?_).relink _ ?_ <;> exact fun _ => rfl

theorem insertSibling (h : b.Spelled) (parent sibling id : Nat) :
    (b.insertSibling parent sibling id).Spelled := by
  refine ((h.detach id).relink _ ?_).relink _ ?_ <;> exact fun _ => rfl

theorem moveChildren (h : b.Spelled) (source target : Nat) :
    (b.moveChildren source target).Spelled :=
  List.foldlRecOn _ _ h fun _ h child _ => h.append target child

theorem extendText (h : b.Spelled) (id : Nat) (text : String) : (b.extendText id text).Spelled := by
  refine h.modifyCell id fun cell hcell => ?_
  split
  · exact trivial
  · exact hcell

theorem appendText (h : b.Spelled) (parent : Nat) (text : String) :
    (b.appendText parent text).Spelled := by
  have hnew := (h.alloc { content := .text text } trivial).append parent b.cells.size
  unfold Builder.appendText
  split
  · exact .ite (h.extendText _ text) hnew
  · exact hnew

theorem insertTextSibling (h : b.Spelled) (parent sibling : Nat) (text : String) :
    (b.insertTextSibling parent sibling text).Spelled := by
  have hnew := (h.alloc { content := .text text } trivial).insertSibling parent sibling
    b.cells.size
  unfold Builder.insertTextSibling
  split
  · exact .ite (h.extendText _ text) hnew
  · exact hnew

/-! ### The stack of open elements -/

theorem closeParagraphInScope (h : b.Spelled) : b.closeParagraphInScope.Spelled :=
  .ite (h.withStack _) h

theorem insertAt (h : b.Spelled) (place : Place) (id : Nat) : (b.insertAt place id).Spelled := by
  cases place with
  | lastOf parent => exact h.append parent id
  | before parent sibling => exact h.insertSibling parent sibling id

theorem insertText (h : b.Spelled) (text : String) : (b.insertText text).Spelled := by
  unfold Builder.insertText
  split
  · exact h.appendText _ text
  · exact h.insertTextSibling _ _ text

theorem insertComment (h : b.Spelled) {data : String} (hdata : SpelledComment data) :
    (b.insertComment data).Spelled :=
  (h.alloc { content := .comment data } hdata).insertAt _ _

theorem addElement (h : b.Spelled) (name : ElementName) {attributes : List (String × String)}
    (hname : SpelledElement name.name attributes) : (b.addElement name attributes).1.Spelled :=
  (h.allocElement name hname).insertAt _ _

theorem openElement (h : b.Spelled) (name : ElementName) {attributes : List (String × String)}
    (hname : SpelledElement name.name attributes) : (b.openElement name attributes).Spelled :=
  (h.addElement name hname).withStack _

variable {tag : Tag}

theorem openTag (h : b.Spelled) (htag : SpelledElement tag.name tag.attributes) :
    (b.openTag tag).Spelled :=
  h.openElement _ htag

theorem addTag (h : b.Spelled) (htag : SpelledElement tag.name tag.attributes) :
    (b.addTag tag).Spelled :=
  h.addElement _ htag

theorem openImplied (h : b.Spelled) {name : String} (hname : SpelledTag name) :
    (b.openImplied name).Spelled :=
  h.openElement _ ⟨hname, by simp⟩

theorem openTextElement (h : b.Spelled) (htag : SpelledElement tag.name tag.attributes)
    (textMode : TextMode) : (b.openTextElement tag textMode).Spelled :=
  ⟨(h.openTag htag).cells, (h.openTag htag).formatting⟩

/-! ### Foreign elements -/

theorem openForeign (h : b.Spelled) {name : ElementName} (hname : SpelledTag name.name)
    (htag : SpelledElement tag.name tag.attributes) : (b.openForeign name tag).Spelled :=
  have hadjusted := spelled_adjustAttributes name.vocabulary htag.names
  .ite (h.addElement name ⟨hname, hadjusted⟩) (h.openElement name ⟨hname, hadjusted⟩)

theorem foreignStartTag (h : b.Spelled) (htag : SpelledElement tag.name tag.attributes) :
    (b.foreignStartTag tag).Spelled := by
  unfold Builder.foreignStartTag
  extract_lets vocabulary name
  refine h.openForeign ?_ htag
  unfold name
  split
  · exact apply_restoreCase (by decide +kernel) htag.tag
  · exact htag.tag

/-! ### Formatting elements -/

theorem forget (h : b.Spelled) (cell : Nat) : (b.forget cell).Spelled :=
  h.withFormatting (h.formatting.of_subset List.filter_sublist.subset)

theorem pushMark (h : b.Spelled) : b.pushMark.Spelled :=
  h.withFormatting fun cell tag htag => h.formatting cell tag (by simpa using htag)

theorem clearToMark (h : b.Spelled) : b.clearToMark.Spelled :=
  h.withFormatting
    (h.formatting.of_subset ((List.drop_sublist _ _).trans (List.dropWhile_sublist _)).subset)

theorem openFormatting (h : b.Spelled) (htag : SpelledElement tag.name tag.attributes) :
    (b.openFormatting tag).Spelled := by
  unfold Builder.openFormatting
  extract_lets alike kept
  have hkept : kept.Spelled := by
    unfold kept
    split
    · exact .ite (h.forget _) h
    · exact h
  have hadded := hkept.addElement (.html tag.name) htag
  exact (hadded.withStack _).withFormatting (hadded.formatting.cons htag _)

theorem reopenAll (h : b.Spelled) {done : List FormatEntry} (hdone : SpelledFormatting done)
    {closed : List (Nat × Tag)}
    (hclosed : ∀ entry ∈ closed, SpelledElement entry.2.name entry.2.attributes) :
    (b.reopenAll done closed).1.Spelled ∧ SpelledFormatting (b.reopenAll done closed).2 := by
  induction closed generalizing b done with
  | nil => exact ⟨h, hdone⟩
  | cons entry closed ih =>
      obtain ⟨htag, hclosed⟩ := List.forall_mem_cons.1 hclosed
      exact ih ((h.addElement (.html entry.2.name) htag).withStack _) (hdone.cons htag _)
        hclosed

theorem reopenFormatting (h : b.Spelled) : b.reopenFormatting.Spelled := by
  unfold Builder.reopenFormatting
  extract_lets closed
  have hclosed : ∀ entry ∈ closed.reverse, SpelledElement entry.2.name entry.2.attributes :=
    fun entry hentry => h.formatting.of_recent
      ((List.takeWhile_sublist _).subset (List.mem_reverse.1 hentry))
  have hreopened := h.reopenAll (h.formatting.of_subset (List.drop_subset closed.length _)) hclosed
  exact .ite h (hreopened.1.withFormatting hreopened.2)

theorem closeNamed (h : b.Spelled) (name : String) : (b.closeNamed name).Spelled := by
  unfold Builder.closeNamed
  split
  · exact h.withStack _
  · exact h

/-- The element that is moved, or its copy, has the names of the tag that is remembered. -/
theorem relocate {state : Relocation} (h : state.builder.Spelled) (item : Nat × Nat) :
    (Builder.relocate state item).builder.Spelled := by
  unfold Builder.relocate
  dsimp only
  split
  · exact h
  · rename_i tag hfound
    obtain ⟨entry, hentry, hsame⟩ := List.exists_of_findSome?_eq_some hfound
    have htag : SpelledElement tag.name tag.attributes := by
      cases entry with
      | mark => cases hsame
      | element cell other =>
          obtain ⟨-, heq⟩ := Option.ite_none_right_eq_some.1 hsame
          cases heq
          exact h.formatting cell tag hentry
    have hcopied := h.allocElement (.html tag.name) htag
    split
    · exact h.forget item.2
    · exact (hcopied.withFormatting (hcopied.formatting.replace htag _ _)).append ..

theorem splitFormatting (h : b.Spelled) (htag : SpelledElement tag.name tag.attributes)
    (formatCell : Nat) (inner below : List Nat) :
    (b.splitFormatting formatCell tag inner below).Spelled := by
  unfold Builder.splitFormatting
  extract_lets between
  split
  · exact (h.forget _).withStack _
  · rename_i block deeper _
    extract_lets state before detached placed
    have hstate : before.Spelled :=
      List.foldlRecOn _ Builder.relocate
        (motive := fun state : Relocation => state.builder.Spelled) h
        fun _ h item _ => relocate h item
    have hadded := ((hstate.detach state.moved).insertAt _ _ : placed.Spelled).allocElement
      (.html tag.name) htag
    split
    rename_i added copy heq
    rw [heq] at hadded
    have hcopied := (hadded.moveChildren block copy).append block copy
    refine of_cells hcopied (by dsimp only) ?_
    split
    · exact (hcopied.formatting.cons htag copy).of_subset
        (List.Subset.trans List.filter_sublist.subset (insertBehind_subset ..))
    · exact hcopied.formatting.replace htag _ copy

theorem formattingRound (h : b.Spelled) (name : String) : (b.formattingRound name).1.Spelled := by
  unfold Builder.formattingRound
  split
  · exact h.closeNamed name
  · rename_i cell tag hfind
    have htag := h.formatting.of_recent (List.mem_of_find?_eq_some hfind)
    split
    · exact h.forget cell
    · split
      · exact h
      · exact h.splitFormatting htag ..

theorem formattingRounds (h : b.Spelled) (rounds : Nat) (name : String) :
    (b.formattingRounds rounds name).Spelled := by
  induction rounds generalizing b with
  | zero => exact h
  | succ rounds ih =>
      have hround := h.formattingRound name
      unfold Builder.formattingRounds
      split
      · rename_i heq
        rwa [heq] at hround
      · rename_i heq
        rw [heq] at hround
        exact ih hround

theorem closeFormatting (h : b.Spelled) (name : String) : (b.closeFormatting name).Spelled :=
  .ite (h.withStack _) (h.formattingRounds 8 name)

theorem closeOpenLink (h : b.Spelled) : b.closeOpenLink.Spelled := by
  unfold Builder.closeOpenLink
  split
  · exact h
  · exact ((h.closeFormatting "a").forget _).withStack _

end Spelled
end Builder
end LiveTemplate.Markup
