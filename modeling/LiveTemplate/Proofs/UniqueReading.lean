import LiveTemplate.Markup.Token
import LiveTemplate.Proofs.Dom.Trees
import LiveTemplate.Proofs.Markup.Bare
import LiveTemplate.Proofs.Markup.Escaping
import Mathlib.Data.List.Basic

/-!
# Serialized trees are told apart

A serialized node says what its tree is: which tags, attributes, texts and comments it has, and in
which order.  From the front, `<` opens a mark and every other character a text; the mark says what
it is and where it ends; and whether children follow a start tag depends on its tag alone.
-/

namespace LiveTemplate

namespace Tree

variable {ι κ : Type}

/-- A tag of ASCII letters, digits and hyphens. -/
def LegibleTag (tag : String) : Prop := tag ≠ "" ∧ ∀ c ∈ tag.toList, c.isAlphanum ∨ c = '-'

/-- A name of an attribute without white space and without characters that mean something in a
tag. -/
def LegibleName (name : String) : Prop :=
  name ≠ "" ∧ ∀ c ∈ name.toList, Markup.isSpace c = false ∧ c ∉ ['"', '=', '/', '<', '>']

/-- No two texts are neighbours. -/
def Separate (trees : List (Tree ι)) : Prop :=
  trees.IsChain fun tree next => ¬(tree.isText = true ∧ next.isText = true)

/-- Elements, texts and comments that serialized markup shows as they are: tags and names of
attributes can be told from what follows, no comment contains its own end, elements without end tag
have no children, and texts are not empty and never neighbours. -/
def Legible : Tree ι → Prop
  | element _ tag attributes children =>
    LegibleTag tag ∧ (∀ entry ∈ attributes, LegibleName entry.1) ∧
      (isVoidTag tag = true → children = []) ∧ Separate children ∧ LegibleForest children
  | text _ data => data ≠ ""
  | comment _ data => ¬ ['-', '-', '>'] <:+: data.toList
  | document _ _ => False
where
  /-- Each of several trees is legible. -/
  LegibleForest : List (Tree ι) → Prop
    | [] => True
    | tree :: rest => tree.Legible ∧ LegibleForest rest

/-! ## Reading from the front -/

/-- Nothing follows, or a mark or a quotation mark. -/
def Stops (rest : List Char) : Prop := ∀ c ∈ rest.head?, ¬ Text.Inert c

/-- Nothing follows, or an end tag. -/
def Closes (rest : List Char) : Prop := rest = [] ∨ ∃ more, rest = '<' :: '/' :: more

theorem Closes.stops {rest : List Char} (h : Closes rest) : Stops rest := by
  obtain rfl | ⟨more, rfl⟩ := h
  · exact fun c hc => absurd hc (by simp)
  · intro c hc
    obtain rfl : '<' = c := by simpa using hc
    decide

/-- The attributes of a start tag, up to its closing bracket. -/
theorem attributes_append_inj {attributes attributes' : List (String × String)}
    {rest rest' : List Char} (hnames : ∀ entry ∈ attributes, LegibleName entry.1)
    (hnames' : ∀ entry ∈ attributes', LegibleName entry.1)
    (h : attributes.flatMap attributeChars ++ '>' :: rest =
      attributes'.flatMap attributeChars ++ '>' :: rest') :
    attributes = attributes' ∧ rest = rest' := by
  induction attributes generalizing attributes' with
  | nil =>
      cases attributes' with
      | nil => exact ⟨rfl, (List.cons.inj h).2⟩
      | cons entry' later' => simp [attributeChars] at h
  | cons entry later ih =>
      cases attributes' with
      | nil => simp [attributeChars] at h
      | cons entry' later' =>
          obtain ⟨name, value⟩ := entry
          obtain ⟨name', value'⟩ := entry'
          simp only [List.flatMap_cons, attributeChars, List.append_assoc, List.cons_append,
            List.nil_append, List.cons.injEq, true_and] at h
          -- The name ends before the equals sign, the value before the quotation mark.
          have hplain {name : String} (hname : LegibleName name) :
              ∀ c ∈ name.toList, c ≠ '=' := by
            rintro c hc rfl
            exact (hname.2 _ hc).2 (by decide)
          obtain ⟨hname, hrest⟩ := List.append_inj_of_forall
            (hplain (hnames _ List.mem_cons_self)) (hplain (hnames' _ List.mem_cons_self))
            (by simp) (by simp) h
          obtain ⟨hvalue, hlater⟩ := Text.escapeChars_append_inj
            (by simp [Text.Inert]) (by simp [Text.Inert]) (List.cons.inj (List.cons.inj hrest).2).2
          obtain ⟨rfl, hsame⟩ := ih (fun e he => hnames e (List.mem_cons_of_mem _ he))
            (fun e he => hnames' e (List.mem_cons_of_mem _ he)) (List.cons.inj hlater).2
          obtain rfl := String.toList_inj.1 hname
          obtain rfl := String.toList_inj.1 hvalue
          exact ⟨rfl, hsame⟩

/-- A start tag and what follows it. -/
theorem startTag_append_inj {tag tag' : String} {attributes attributes' : List (String × String)}
    {rest rest' : List Char} (htag : LegibleTag tag) (htag' : LegibleTag tag')
    (hnames : ∀ entry ∈ attributes, LegibleName entry.1)
    (hnames' : ∀ entry ∈ attributes', LegibleName entry.1)
    (h : startTagChars tag attributes ++ rest = startTagChars tag' attributes' ++ rest') :
    tag = tag' ∧ attributes = attributes' ∧ rest = rest' := by
  simp only [startTagChars, List.append_assoc, List.cons_append, List.nil_append,
    List.cons.injEq, true_and] at h
  -- Behind the tag stands a blank or the closing bracket.
  have hends (attributes : List (String × String)) (rest : List Char) :
      ∀ c ∈ (attributes.flatMap attributeChars ++ '>' :: rest).head?,
        ¬(c.isAlphanum = true ∨ c = '-') := by
    cases attributes <;> simp [attributeChars]
  obtain ⟨htags, hrest⟩ := List.append_inj_of_forall htag.2 htag'.2 (hends _ _) (hends _ _) h
  obtain ⟨hattributes, hsame⟩ := attributes_append_inj hnames hnames' hrest
  exact ⟨String.toList_inj.1 htags, hattributes, hsame⟩

/-- A comment ends where its end mark stands first. -/
theorem comment_append_inj {data data' rest rest' : List Char}
    (hdata : ¬ ['-', '-', '>'] <:+: data) (hdata' : ¬ ['-', '-', '>'] <:+: data')
    (h : data ++ '-' :: '-' :: '>' :: rest = data' ++ '-' :: '-' :: '>' :: rest') :
    data = data' ∧ rest = rest' := by
  -- If one comment were longer, the end mark of the other one would reach into it.
  have hlonger {data more rest rest' : List Char} (hmore : more ≠ [])
      (hdata : ¬ ['-', '-', '>'] <:+: data ++ more)
      (h : '-' :: '-' :: '>' :: rest' = more ++ '-' :: '-' :: '>' :: rest) : False := by
    rcases more with _ | ⟨a, _ | ⟨b, _ | ⟨c, more⟩⟩⟩
    · exact hmore rfl
    · simp at h
    · simp at h
    · simp only [List.cons_append, List.cons.injEq] at h
      obtain ⟨rfl, rfl, rfl, -⟩ := h
      exact hdata ⟨data, more, by simp⟩
  obtain ⟨more, rfl, hmore⟩ | ⟨more, rfl, hmore⟩ := List.append_eq_append_iff.1 h
  · cases more with
    | nil => simpa using hmore
    | cons c more => exact (hlonger (by simp) hdata' hmore).elim
  · cases more with
    | nil => simpa [eq_comm] using hmore
    | cons c more => exact (hlonger (by simp) hdata hmore).elim

/-! ## Trees -/

/-- What a legible tree is written as begins with a character that means nothing if the tree is a
text, and else with a mark that is no end tag. -/
theorem outerChars_eq_cons {tree : Tree ι} (h : tree.Legible) :
    ∃ c more, tree.outerChars = c :: more ∧ (tree.isText = true → Text.Inert c) ∧
      (tree.isText = false → c = '<' ∧ ∃ d later, more = d :: later ∧ d ≠ '/') := by
  cases tree with
  | element label tag attributes children =>
      obtain ⟨⟨hne, hchars⟩, -⟩ := h
      obtain ⟨d, later, htag⟩ : ∃ d later, tag.toList = d :: later :=
        List.exists_cons_of_ne_nil (by simpa using hne)
      have hd : d ≠ '/' := by
        rintro rfl
        have := hchars '/' (by simp [htag])
        revert this
        decide
      obtain ⟨more, hmore⟩ : ∃ more,
          (element label tag attributes children).outerChars = '<' :: d :: more := by
        rw [outerChars]
        split <;> exact ⟨_, by simp only [startTagChars, htag, List.cons_append]; rfl⟩
      exact ⟨'<', d :: more, hmore, by simp [isText], fun _ => ⟨rfl, d, more, rfl, hd⟩⟩
  | text label data =>
      obtain ⟨d, later, hdata⟩ : ∃ d later, data.toList = d :: later :=
        List.exists_cons_of_ne_nil (by simpa [Legible] using h)
      obtain ⟨c, more, hpiece⟩ := Text.exists_escapeChar_eq_cons d
      refine ⟨c, more ++ Text.escapeChars later, ?_, fun _ => ?_, by simp [isText]⟩
      · simp [outerChars, hdata, Text.escapeChars, hpiece]
      · exact Text.inert_escapeChars data.toList c (by simp [hdata, Text.escapeChars, hpiece])
  | comment label data =>
      exact ⟨'<', _, rfl, by simp [isText], fun _ => ⟨rfl, '!', _, rfl, by decide⟩⟩
  | document label children => exact h.elim

/-- Behind a text stands a mark or nothing, if what follows the whole does not begin with text. -/
theorem stops_forestChars {tree : Tree ι} {trees : List (Tree ι)} {rest : List Char}
    (hseparate : Separate (tree :: trees)) (hlegible : Legible.LegibleForest trees)
    (hrest : Closes rest) (htext : tree.isText = true) :
    Stops (outerChars.forestChars trees ++ rest) := by
  cases trees with
  | nil => exact hrest.stops
  | cons next later =>
      obtain ⟨c, more, hchars, -, hmark⟩ := outerChars_eq_cons hlegible.1
      have hnext : next.isText = false := by
        simpa [htext] using (List.isChain_cons_cons.1 hseparate).1
      obtain ⟨rfl, -⟩ := hmark hnext
      intro d hd
      obtain rfl : '<' = d := by simpa [outerChars.forestChars, hchars] using hd
      decide

/-- Trees do not begin like an end tag. -/
theorem not_closes_forestChars {tree : Tree ι} {trees : List (Tree ι)} {rest : List Char}
    (h : Legible.LegibleForest (tree :: trees))
    (hcloses : Closes (outerChars.forestChars (tree :: trees) ++ rest)) : False := by
  obtain ⟨c, more, hchars, htext, hmark⟩ := outerChars_eq_cons h.1
  simp only [outerChars.forestChars, hchars, List.cons_append] at hcloses
  obtain hnil | ⟨later, hclose⟩ := hcloses
  · cases hnil
  · obtain ⟨rfl, hmore⟩ := List.cons.inj hclose
    cases hkind : tree.isText with
    | true => exact absurd (htext hkind) (by decide)
    | false =>
        obtain ⟨-, d, later', rfl, hd⟩ := hmark hkind
        exact hd (List.cons.inj hmore).1

/-- A text is not taken for a mark. -/
theorem isText_eq_of_append {tree : Tree ι} {tree' : Tree κ} {rest rest' : List Char}
    (h : tree.Legible) (h' : tree'.Legible)
    (heq : tree.outerChars ++ rest = tree'.outerChars ++ rest') : tree.isText = tree'.isText := by
  obtain ⟨c, more, hchars, htext, hmark⟩ := outerChars_eq_cons h
  obtain ⟨c', more', hchars', htext', hmark'⟩ := outerChars_eq_cons h'
  obtain rfl : c = c' := by simpa [hchars, hchars'] using congrArg List.head? heq
  have hopen : ¬ Text.Inert '<' := by decide
  cases hkind : tree.isText <;> cases hkind' : tree'.isText
  · rfl
  · exact absurd ((hmark hkind).1 ▸ htext' hkind') hopen
  · exact absurd ((hmark' hkind').1 ▸ htext hkind) hopen
  · rfl

/-- Whether children and an end tag follow the start tag is up to the tag. -/
theorem outerChars_element_append (label : ι) (tag : String) (attributes : List (String × String))
    (children : List (Tree ι)) (rest : List Char) :
    (element label tag attributes children).outerChars ++ rest =
      startTagChars tag attributes ++
        if isVoidTag tag = true then rest
        else outerChars.forestChars children ++ (endTagChars tag ++ rest) := by
  rw [outerChars]
  split <;> simp only [List.append_assoc]

/-- An element is not taken for a comment. -/
theorem outerChars_element_ne_comment {label : ι} {label' : κ} {tag data : String}
    {attributes : List (String × String)} {children : List (Tree ι)} {rest rest' : List Char}
    (htag : LegibleTag tag) :
    (element label tag attributes children).outerChars ++ rest ≠
      (comment label' data).outerChars ++ rest' := by
  intro heq
  obtain ⟨d, later, hchars⟩ : ∃ d later, tag.toList = d :: later :=
    List.exists_cons_of_ne_nil (by simpa using htag.1)
  have hd : d = '!' := by
    rw [outerChars_element_append] at heq
    simp_all [startTagChars, outerChars]
  have := htag.2 '!' (by simp [hchars, hd])
  revert this
  decide

/-- A legible tree in front of other markup is read in one way, and so are several. -/
theorem outerChars_append_inj (tree : Tree ι) :
    ∀ {tree' : Tree κ} {rest rest' : List Char}, tree.Legible → tree'.Legible →
      (tree.isText = true → Stops rest) → (tree'.isText = true → Stops rest') →
      tree.outerChars ++ rest = tree'.outerChars ++ rest' →
      tree.bare = tree'.bare ∧ rest = rest' := by
  refine bare.induct
    (fun trees : List (Tree ι) => ∀ {trees' : List (Tree κ)} {rest rest' : List Char},
      Legible.LegibleForest trees → Legible.LegibleForest trees' →
      Separate trees → Separate trees' → Closes rest → Closes rest' →
      outerChars.forestChars trees ++ rest = outerChars.forestChars trees' ++ rest' →
      bare.bareForest trees = bare.bareForest trees' ∧ rest = rest')
    (fun tree : Tree ι => ∀ {tree' : Tree κ} {rest rest' : List Char},
      tree.Legible → tree'.Legible →
      (tree.isText = true → Stops rest) → (tree'.isText = true → Stops rest') →
      tree.outerChars ++ rest = tree'.outerChars ++ rest' →
      tree.bare = tree'.bare ∧ rest = rest') ?element ?text ?comment ?document ?nil ?cons tree
  case element =>
    intro label tag attributes children ih tree' rest rest' h h' _ _ heq
    cases tree' with
    | element label' tag' attributes' children' =>
        obtain ⟨htag, hnames, hvoid, hseparate, hlegible⟩ := h
        obtain ⟨htag', hnames', hvoid', hseparate', hlegible'⟩ := h'
        rw [outerChars_element_append, outerChars_element_append] at heq
        -- The start tags are the same, so children follow both of them or neither.
        obtain ⟨rfl, rfl, hbehind⟩ := startTag_append_inj htag htag' hnames hnames' heq
        by_cases hkind : isVoidTag tag = true
        · rw [if_pos hkind, if_pos hkind] at hbehind
          obtain rfl := hvoid hkind
          obtain rfl := hvoid' hkind
          exact ⟨rfl, hbehind⟩
        · rw [if_neg hkind, if_neg hkind] at hbehind
          have hcloses (rest : List Char) : Closes (endTagChars tag ++ rest) := .inr ⟨_, rfl⟩
          obtain ⟨hchildren, hrest⟩ :=
            ih hlegible hlegible' hseparate hseparate' (hcloses rest) (hcloses rest') hbehind
          exact ⟨by rw [bare, bare, hchildren], List.append_cancel_left hrest⟩
    | text label' data' => exact absurd (isText_eq_of_append h h' heq) (by simp [isText])
    | comment label' data' => exact absurd heq (outerChars_element_ne_comment h.1)
    | document label' children' => exact h'.elim
  case text =>
    intro label data tree' rest rest' h h' hrest hrest' heq
    cases tree' with
    | text label' data' =>
        obtain ⟨hdata, hsame⟩ := Text.escapeChars_append_inj (hrest rfl) (hrest' rfl) heq
        exact ⟨by rw [bare, bare, String.toList_inj.1 hdata], hsame⟩
    | element label' tag' attributes' children' =>
        exact absurd (isText_eq_of_append h h' heq) (by simp [isText])
    | comment label' data' => exact absurd (isText_eq_of_append h h' heq) (by simp [isText])
    | document label' children' => exact h'.elim
  case comment =>
    intro label data tree' rest rest' h h' _ _ heq
    cases tree' with
    | comment label' data' =>
        simp only [outerChars, List.append_assoc, List.append_cancel_left_eq] at heq
        obtain ⟨hdata, hsame⟩ := comment_append_inj h h' heq
        exact ⟨by rw [bare, bare, String.toList_inj.1 hdata], hsame⟩
    | element label' tag' attributes' children' =>
        exact absurd heq.symm (outerChars_element_ne_comment h'.1)
    | text label' data' => exact absurd (isText_eq_of_append h h' heq) (by simp [isText])
    | document label' children' => exact h'.elim
  case document => exact fun label children _ _ _ _ h => h.elim
  case nil =>
    intro trees' rest rest' _ hlegible' _ _ hrest _ heq
    cases trees' with
    | nil => exact ⟨rfl, heq⟩
    | cons tree' later' =>
        refine (not_closes_forestChars hlegible' (?_ : Closes (_ ++ rest'))).elim
        rw [← heq]
        exact hrest
  case cons =>
    intro tree trees ih ihtrees trees' rest rest' hlegible hlegible' hseparate hseparate' hrest
      hrest' heq
    cases trees' with
    | nil =>
        refine (not_closes_forestChars hlegible (?_ : Closes (_ ++ rest))).elim
        rw [heq]
        exact hrest'
    | cons tree' trees' =>
        simp only [outerChars.forestChars, List.append_assoc] at heq
        obtain ⟨hfirst, hbehind⟩ := ih hlegible.1 hlegible'.1
          (stops_forestChars hseparate hlegible.2 hrest)
          (stops_forestChars hseparate' hlegible'.2 hrest') heq
        obtain ⟨hlater, hsame⟩ := ihtrees hlegible.2 hlegible'.2 hseparate.of_cons
          hseparate'.of_cons hrest hrest' hbehind
        exact ⟨by rw [bare.bareForest, bare.bareForest, hfirst, hlater], hsame⟩

end Tree

/-! ## Nodes -/

/-- Two legible nodes, of one document or of two, have the same markup exactly if they are equal
node by node: in tags, in names, values and order of attributes, in texts and in comments. -/
theorem Dom.markup_determines_tree {dom dom' : Dom} {node node' : NodeId} {tree tree' : Tree NodeId}
    (htree : dom.tree? node = some tree) (htree' : dom'.tree? node' = some tree')
    (hlegible : tree.Legible) (hlegible' : tree'.Legible) :
    dom.outerMarkup? node = dom'.outerMarkup? node' ↔ tree.bare = tree'.bare := by
  rw [outerMarkup?_of_tree? htree, outerMarkup?_of_tree? htree', Option.some_inj]
  constructor
  · intro hmarkup
    have hchars : tree.outerChars ++ [] = tree'.outerChars ++ [] := by
      rw [String.ofList_injective hmarkup]
    have hstops : Tree.Stops [] := fun c hc => absurd hc (by simp)
    exact (tree.outerChars_append_inj hlegible hlegible' (fun _ => hstops) (fun _ => hstops)
      hchars).1
  · intro hbare
    rw [Tree.outerMarkup, Tree.outerMarkup, ← tree.outerChars_bare, ← tree'.outerChars_bare, hbare]

/-- A card that stands twice in a heap: a text that looks like markup, a line break and a comment
that ends in hyphens. -/
def twinCards : Dom :=
  ⟨#[.element "my-card" [("title", "\"a\">")] [1, 2, 3], .text "<b>&amp;</b>",
    .element "br" [] [], .comment "note--", .comment "note--", .element "br" [] [],
    .text "<b>&amp;</b>", .element "my-card" [("title", "\"a\">")] [6, 5, 4]]⟩

/-- The two cards of the heap, told by their markup. -/
theorem Dom.markup_determines_tree_twinCards :
    ∃ tree tree', twinCards.tree? 0 = some tree ∧ twinCards.tree? 7 = some tree' ∧
      tree.Legible ∧ tree'.Legible ∧
      twinCards.outerMarkup? 0 = twinCards.outerMarkup? 7 ∧ tree.bare = tree'.bare := by
  have hlegible (a b c d : NodeId) : (Tree.element a "my-card" [("title", "\"a\">")]
      [.text b "<b>&amp;</b>", .element c "br" [] [], .comment d "note--"]).Legible := by
    have hcard : Tree.LegibleTag "my-card" := ⟨by decide, List.forall_iff_forall_mem.1 (by decide)⟩
    have hbr : Tree.LegibleTag "br" := ⟨by decide, List.forall_iff_forall_mem.1 (by decide)⟩
    have htitle : Tree.LegibleName "title" := ⟨by decide, List.forall_iff_forall_mem.1 (by decide)⟩
    have htext : "<b>&amp;</b>" ≠ "" := by decide
    have hnote : ¬ ['-', '-', '>'] <:+: "note--".toList := by decide
    have hfull : Tree.isVoidTag "my-card" ≠ true := by decide +kernel
    refine ⟨hcard, ?_, fun h => absurd h hfull, ?_, htext,
      ⟨hbr, ?_, fun _ => rfl, ?_, trivial⟩, hnote, trivial⟩
    · simpa only [List.mem_singleton, forall_eq] using htitle
    · simp only [Tree.Separate, List.isChain_cons_cons, Tree.isText]
      simp
    · exact fun entry hentry => absurd hentry List.not_mem_nil
    · exact .nil
  have hsame : twinCards.outerMarkup? 0 = twinCards.outerMarkup? 7 := by decide +kernel
  exact ⟨_, _, rfl, rfl, hlegible 0 1 2 3, hlegible 7 6 5 4, hsame,
    (markup_determines_tree rfl rfl (hlegible 0 1 2 3) (hlegible 7 6 5 4)).1 hsame⟩

end LiveTemplate
