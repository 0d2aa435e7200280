import LiveTemplate.Markup.Parser

/-!
# How the tree under construction grows

Where nothing is misplaced, tree construction only adds: a new cell goes to the end of the innermost
open element, and what is older changes in nothing but that element's list of children.  So the part
of the heap that a piece of markup adds can be read as trees as soon as it is there.
-/

namespace LiveTemplate.Markup

/-! ## Cells -/

/-- The cells with a new one at the end of a parent. -/
def hangCell (cells : Array Cell) (parent : Nat) (cell : Cell) : Array Cell :=
  (cells.modify parent fun old => { old with children := old.children ++ [cells.size] }).push
    { cell with parent := some parent }

section hangCell

variable {cells : Array Cell} {parent i : Nat} {cell : Cell}

theorem size_hangCell : (hangCell cells parent cell).size = cells.size + 1 := by
  simp [hangCell]

theorem getElem?_hangCell_size :
    (hangCell cells parent cell)[cells.size]? = some { cell with parent := some parent } := by
  simp only [hangCell, Array.getElem?_push, Array.size_modify, if_true]

theorem getElem?_hangCell_parent (hparent : parent < cells.size) :
    (hangCell cells parent cell)[parent]? =
      cells[parent]?.map fun old => { old with children := old.children ++ [cells.size] } := by
  simp only [hangCell, Array.getElem?_push, Array.size_modify, Nat.ne_of_lt hparent, if_false,
    Array.getElem?_modify, if_true]

theorem getElem?_hangCell_of_ne (hi : i < cells.size) (hne : i ≠ parent) :
    (hangCell cells parent cell)[i]? = cells[i]? := by
  simp only [hangCell, Array.getElem?_push, Array.size_modify, Nat.ne_of_lt hi, if_false,
    Array.getElem?_modify, hne.symm]

end hangCell

theorem filterMap_of_map {α β : Type} {f : α → Option β} {as : List α} {bs : List β}
    (h : as.map f = bs.map some) : as.filterMap f = bs := by
  calc as.filterMap f = (as.map f).filterMap id := by rw [List.filterMap_map, Function.id_comp]
    _ = bs := by rw [h, List.filterMap_map, Function.id_comp, List.filterMap_some]

/-- Nodes have been put at the end of a parent and all else has been left as it was.  The trees below
them can be read from any heap that agrees on the cells that are new. -/
structure Grown (cells cells' : Array Cell) (parent : Nat) (nodes : List Nat)
    (trees : List (Tree Unit)) : Prop where
  size_le : cells.size ≤ cells'.size
  others : ∀ i < cells.size, i ≠ parent → cells'[i]? = cells[i]?
  atParent : cells'[parent]? =
    cells[parent]?.map fun old => { old with children := old.children ++ nodes }
  trees_eq : ∀ later : Builder,
    (∀ i, cells.size ≤ i → i < cells'.size → later.cells[i]? = cells'[i]?) →
    ∀ fuel, cells'.size - cells.size ≤ fuel → nodes.map (later.treeOf? fuel) = trees.map some

namespace Grown

variable {cells cells' cells'' : Array Cell} {parent : Nat} {nodes nodes' : List Nat}
  {trees trees' : List (Tree Unit)} {cell : Cell}

theorem refl : Grown cells cells parent [] [] where
  size_le := Nat.le_refl _
  others := fun _ _ _ => rfl
  atParent := by simp
  trees_eq := fun _ _ _ _ => rfl

theorem trans (hparent : parent < cells.size) (h : Grown cells cells' parent nodes trees)
    (h' : Grown cells' cells'' parent nodes' trees') :
    Grown cells cells'' parent (nodes ++ nodes') (trees ++ trees') where
  size_le := Nat.le_trans h.size_le h'.size_le
  others := fun i hi hne =>
    (h'.others i (Nat.lt_of_lt_of_le hi h.size_le) hne).trans (h.others i hi hne)
  atParent := by
    rw [h'.atParent, h.atParent, Option.map_map]
    simp [Function.comp_def]
  trees_eq := fun later hlater fuel hfuel => by
    have hle := h.size_le
    have hle' := h'.size_le
    rw [List.map_append, List.map_append]
    congr 1
    · refine h.trees_eq later (fun i hi hi' => ?_) fuel (by omega)
      rw [hlater i hi (by omega), h'.others i hi' (by omega)]
    · exact h'.trees_eq later (fun i hi hi' => hlater i (by omega) hi') fuel (by omega)

/-- A cell apart from the tree has been added. -/
theorem push (hparent : parent < cells.size) : Grown cells (cells.push cell) parent [] [] where
  size_le := by simp
  others := fun i hi _ => by simp [Array.getElem?_push, Nat.ne_of_lt hi]
  atParent := by simp [Array.getElem?_push, Nat.ne_of_lt hparent]
  trees_eq := fun _ _ _ _ => rfl

/-- A node without children has been put at the end of a parent. -/
theorem leaf (hparent : parent < cells.size) {tree : Tree Unit}
    (htree : ∀ (later : Builder) (fuel : Nat),
      later.cells[cells.size]? = some { cell with parent := some parent } →
      later.treeOf? (fuel + 1) cells.size = some tree) :
    Grown cells (hangCell cells parent cell) parent [cells.size] [tree] where
  size_le := by simp [size_hangCell]
  others := fun i hi hne => getElem?_hangCell_of_ne hi hne
  atParent := getElem?_hangCell_parent hparent
  trees_eq := fun later hlater fuel hfuel => by
    rw [size_hangCell] at hlater hfuel
    obtain ⟨fuel, rfl⟩ : ∃ less, fuel = less + 1 := ⟨fuel - 1, by omega⟩
    have hcell : later.cells[cells.size]? = some { cell with parent := some parent } := by
      rw [hlater cells.size (Nat.le_refl _) (Nat.lt_succ_self _), getElem?_hangCell_size]
    simp [htree later fuel hcell]

/-- An element has been put at the end of a parent, and then its children below it. -/
theorem element (hparent : parent < cells.size) {name : ElementName}
    {attributes : List (String × String)} (hcontent : cell.content = .element name attributes)
    (hchildren : cell.children = [])
    (h : Grown (hangCell cells parent cell) cells' cells.size nodes trees) :
    Grown cells cells' parent [cells.size]
      [.element () name.name (Builder.attributesOf attributes) trees] where
  size_le := by
    have := h.size_le
    rw [size_hangCell] at this
    omega
  others := fun i hi hne => by
    rw [h.others i (by rw [size_hangCell]; omega) (by omega), getElem?_hangCell_of_ne hi hne]
  atParent := by
    rw [h.others parent (by rw [size_hangCell]; omega) (by omega),
      getElem?_hangCell_parent hparent]
  trees_eq := fun later hlater fuel hfuel => by
    have hle := h.size_le
    rw [size_hangCell] at hle
    obtain ⟨fuel, rfl⟩ : ∃ less, fuel = less + 1 := ⟨fuel - 1, by omega⟩
    have hbelow : nodes.filterMap (later.treeOf? fuel) = trees := by
      refine filterMap_of_map (h.trees_eq later (fun i hi hi' => ?_) fuel ?_)
      · rw [size_hangCell] at hi
        exact hlater i (by omega) hi'
      · rw [size_hangCell]
        omega
    have hcell : later.cells[cells.size]? =
        some { cell with parent := some parent, children := nodes } := by
      rw [hlater cells.size (Nat.le_refl _) hle, h.atParent, getElem?_hangCell_size,
        Option.map_some, hchildren, List.nil_append]
    have htree : later.treeOf? (fuel + 1) cells.size =
        some (.element () name.name (Builder.attributesOf attributes) trees) := by
      rw [Builder.treeOf?, hcell, ← hbelow]
      simp only [hcontent]
    simp [htree]

end Grown

namespace Builder

variable {b : Builder}

/-- A new cell without parent is put at the end of a parent. -/
theorem append_alloc {cell : Cell} (hcell : cell.parent = none) {parent : Nat}
    (hparent : parent < b.cells.size) :
    (b.alloc cell).1.append parent b.cells.size =
      { b with cells := hangCell b.cells parent cell } := by
  have hdetach : (b.alloc cell).1.detach b.cells.size = (b.alloc cell).1 := by
    simp [detach, parentOf, alloc, hcell]
  rw [append, hdetach]
  simp only [alloc, modifyCell]
  congr 1
  refine Array.ext_getElem? fun i => ?_
  simp only [hangCell, Array.getElem?_modify, Array.getElem?_push, Array.size_modify]
  have hne : parent ≠ b.cells.size := Nat.ne_of_lt hparent
  by_cases hnew : i = b.cells.size
  · subst hnew
    simp [hne]
  · simp [hnew, Ne.symm hnew]

/-- Put a new cell at the end of the innermost open element. -/
def hang (b : Builder) (cell : Cell) : Builder :=
  { b with cells := hangCell b.cells b.current cell }

/-- Whether the last child of the innermost open element is a text, which takes up more text. -/
def endsInText (b : Builder) : Bool := (b.childrenOf b.current).getLast?.any b.isText

/-- What the last child of the innermost open element is, once a cell is put there. -/
theorem endsInText_hang (h : b.current < b.cells.size) (cell : Cell) :
    (b.hang cell).endsInText = match cell.content with
      | .text _ => true
      | _ => false := by
  have hchildren : (b.hang cell).childrenOf b.current = b.childrenOf b.current ++ [b.cells.size] := by
    simp [childrenOf, hang, getElem?_hangCell_parent h, Array.getElem?_eq_getElem h]
  have hnew : (b.hang cell).isText b.cells.size = match cell.content with
      | .text _ => true
      | _ => false := by
    simp only [isText, content?, hang, getElem?_hangCell_size, Option.map_some]
    cases cell.content <;> rfl
  rw [endsInText, show (b.hang cell).current = b.current from rfl, hchildren,
    List.getLast?_append, List.getLast?_singleton, Option.some_or, Option.any_some, hnew]

/-- A text behind anything but a text is a node of its own. -/
theorem appendText_of_not_endsInText (h : b.current < b.cells.size)
    (htext : b.endsInText = false) (text : String) :
    b.appendText b.current text = b.hang { content := .text text } := by
  have hnew : (b.alloc { content := .text text }).1.append b.current b.cells.size =
      b.hang { content := .text text } := append_alloc rfl h
  unfold appendText
  split
  · rename_i last hlast
    rw [endsInText, hlast, Option.any_some] at htext
    rw [if_neg (by simp [htext])]
    exact hnew
  · exact hnew

/-- More text goes to the text that is there. -/
theorem appendText_hang (h : b.current < b.cells.size) (data text : String) :
    (b.hang { content := .text data }).appendText b.current text =
      b.hang { content := .text (data ++ text) } := by
  have hchildren : ((b.hang { content := .text data }).childrenOf b.current).getLast? =
      some b.cells.size := by
    simp [childrenOf, hang, getElem?_hangCell_parent h, Array.getElem?_eq_getElem h]
  have hnew : (b.hang { content := .text data }).isText b.cells.size = true := by
    simp [isText, content?, hang, getElem?_hangCell_size]
  rw [appendText, hchildren]
  simp only [hnew, if_true]
  simp only [extendText, modifyCell, hang]
  congr 1
  refine Array.ext_getElem? fun i => ?_
  rw [Array.getElem?_modify]
  split
  · rename_i hi
    subst hi
    rw [getElem?_hangCell_size, getElem?_hangCell_size]
    rfl
  · rename_i hi
    simp only [hangCell, Array.getElem?_push, Array.size_modify, Ne.symm hi, if_false]

end Builder

end LiveTemplate.Markup
