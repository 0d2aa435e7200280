import LiveTemplate.Markup.Serializer

/-!
# Marks and runs of text

A serializer writes marks, which are start tags with their attributes, end tags and comments, and
between them runs of escaped text.  Escaped text has no character that could end or begin a mark, so
the marks of a document can be told from its runs whatever the texts are.
-/

namespace LiveTemplate

/-- What a serializer writes besides texts. -/
inductive Markup.Mark
  | opening (tag : String) (attributes : List (String × String))
  | closing (tag : String)
  | comment (data : String)
deriving DecidableEq, Repr

/-- A mark as it is written. -/
def Markup.Mark.chars : Markup.Mark → List Char
  | opening tag attributes => Tree.startTagChars tag attributes
  | closing tag => Tree.endTagChars tag
  | comment data => ['<', '!', '-', '-'] ++ data.toList ++ ['-', '-', '>']

/-- The marks of an element, given those of its children. -/
def Markup.Mark.around (tag : String) (attributes : List (String × String))
    (inside : List Markup.Mark) : List Markup.Mark :=
  if Tree.isVoidTag tag then [opening tag attributes]
  else opening tag attributes :: inside ++ [closing tag]

namespace Tree

variable {ι : Type}

/-- The marks of a tree, in document order. -/
def marks : Tree ι → List Markup.Mark
  | element _ tag attributes children => Markup.Mark.around tag attributes (marksOf children)
  | text _ _ => []
  | comment _ data => [.comment data]
  | document _ children => marksOf children
where
  /-- The marks of several trees. -/
  marksOf : List (Tree ι) → List Markup.Mark
    | [] => []
    | tree :: rest => tree.marks ++ marksOf rest

end Tree

/-- The character means nothing in markup, as regards marks and quoted values. -/
def Text.Inert (c : Char) : Prop := c ∉ ['<', '>', '"', '\'']

instance : DecidablePred Text.Inert := fun c => inferInstanceAs (Decidable (c ∉ _))

/-- Marks have been written in order, with runs of inert characters before, between and behind
them. -/
inductive Woven : List Markup.Mark → List Char → Prop
  | run {run : List Char} (hinert : ∀ c ∈ run, Text.Inert c) : Woven [] run
  | mark {run rest : List Char} {mark : Markup.Mark} {marks : List Markup.Mark}
      (hinert : ∀ c ∈ run, Text.Inert c) (hrest : Woven marks rest) :
      Woven (mark :: marks) (run ++ mark.chars ++ rest)

namespace Woven

variable {marks later : List Markup.Mark} {chars more : List Char}

theorem prepend {run : List Char} (h : Woven marks chars) (hinert : ∀ c ∈ run, Text.Inert c) :
    Woven marks (run ++ chars) := by
  cases h with
  | run hchars => exact .run (List.forall_mem_append.2 ⟨hinert, hchars⟩)
  | mark hrun hrest =>
      rw [← List.append_assoc, ← List.append_assoc]
      exact .mark (List.forall_mem_append.2 ⟨hinert, hrun⟩) hrest

theorem append (h : Woven marks chars) (hlater : Woven later more) :
    Woven (marks ++ later) (chars ++ more) := by
  induction h with
  | run hinert => exact hlater.prepend hinert
  | mark hinert _ ih =>
      rw [List.append_assoc]
      exact .mark hinert ih

theorem nil : Woven [] [] := .run fun _ h => absurd h List.not_mem_nil

/-- One mark, with nothing around it. -/
theorem single (mark : Markup.Mark) : Woven [mark] mark.chars := by
  have h : Woven [mark] ([] ++ mark.chars ++ []) :=
    .mark (fun _ h => absurd h List.not_mem_nil) nil
  rwa [List.nil_append, List.append_nil] at h

end Woven

/-- Escaped text is inert. -/
theorem Text.inert_escapeChars (cs : List Char) : ∀ c ∈ Text.escapeChars cs, Text.Inert c := by
  intro c hc
  obtain ⟨d, -, hc⟩ := List.mem_flatMap.1 hc
  unfold Text.escapeChar at hc
  cases href : Text.reference? d with
  | some reference =>
      simp only [href] at hc
      have hall : ∀ reference ∈ ["&amp;", "&lt;", "&gt;", "&quot;", "&#x27;", "&#x2f;"],
          (reference.toList.all fun c => decide (Text.Inert c)) = true := by decide
      have hinert : (reference.toList.all fun c => decide (Text.Inert c)) = true := by
        refine hall reference ?_
        unfold Text.reference? at href
        split at href <;> simp_all
      exact of_decide_eq_true (List.all_eq_true.1 hinert c hc)
  | none =>
      simp only [href, List.mem_singleton] at hc
      subst hc
      -- The characters that mean something have references.
      unfold Text.reference? at href
      split at href <;> simp_all [Text.Inert]

namespace Tree

variable {ι : Type}

/-- What a tree is written as are its marks, with inert runs around them. -/
theorem woven (tree : Tree ι) : Woven tree.marks tree.outerChars := by
  refine marks.induct (fun trees : List (Tree ι) =>
      Woven (marks.marksOf trees) (outerChars.forestChars trees))
    (fun tree : Tree ι => Woven tree.marks tree.outerChars)
    ?element ?text ?comment ?document ?nil ?cons tree
  case element =>
    intro label tag attributes children ih
    rw [marks, outerChars, Markup.Mark.around]
    split
    · exact .single (.opening tag attributes)
    · exact ((Woven.single (.opening tag attributes)).append ih).append
        (.single (.closing tag))
  case text => exact fun label data => .run (Text.inert_escapeChars _)
  case comment => exact fun label data => .single (.comment data)
  case document => exact fun label children ih => ih
  case nil => exact .nil
  case cons => exact fun tree rest ih ihrest => ih.append ihrest

end Tree

end LiveTemplate
