import Mathlib.Data.List.Nodup
import LiveTemplate.Proofs.Markup.Reading
import LiveTemplate.Proofs.Reactive.Definitions

/-!
# Reading serialized trees

A settled tree is read back from its markup: behind it the state is between two nodes again, and the
tree is all that the run has added.  The induction follows the tree; inside an element the state is
that behind its start tag.
-/

namespace LiveTemplate

open Text

namespace Tree

open Markup

variable {ι : Type}

/-- What may stand behind a node: a text ends at a mark, and a byte order mark behind a script is
dropped. -/
def EndsBefore (rest : List Char) : Tree ι → Prop
  | text _ _ => ∀ c ∈ rest.head?, c = '<'
  | element _ tag _ _ => tag = "script" → rest.head? ≠ some '\ufeff'
  | _ => True

theorem isKept_iff {data : String} :
    isKept data = true ↔ '\r' ∉ data.toList ∧ '\x00' ∉ data.toList := by
  simp [isKept]

/-- What a settled element holds, by its kind. -/
inductive Holds (path : List ElementName) (element : ElementName) (tag : String)
    (children : List (Tree Unit)) : Prop
  | nothing (hinside : insideOf element = .nothing) (hchildren : children = [])
      (hends : (isVoidTag tag || tag == "template" || !endsForeign path tag) = true)
  | references (hinside : insideOf element = .references) (hlength : children.length ≤ 1)
      (hcontent : ∀ child ∈ children, ∃ data, child = .text () data ∧ data ≠ "" ∧
        isKept data = true ∧ (tag = "textarea" → data.toList.head? ≠ some '\n'))
  | characters (hinside : insideOf element = .characters) (hlength : children.length ≤ 1)
      (hcontent : ∀ child ∈ children, ∃ data, child = .text () data ∧ data ≠ "" ∧
        isKept data = true ∧ isUnescaped data = true)
  | nodes (hinside : insideOf element = .nodes) (hvoid : isVoidTag tag = false)
      (hfirst : element.isOneOf ["pre", "listing"] = true →
        ∀ child ∈ children.head?, child.startsWith '\n' = false)
      (hchildren : settled.settledForest (element :: path) children = true)

theorem holds_of_settled {path : List ElementName} {tag : String}
    {attributes : List (String × String)} {children : List (Tree Unit)}
    (h : (element () tag attributes children).settled path = true) :
    Holds path (elementAt path (readTag tag attributes).name) tag children := by
  rw [settled, Bool.and_eq_true] at h
  have hinside := h.2
  split at hinside
  · rename_i hnothing
    rw [Bool.and_eq_true, List.isEmpty_iff] at hinside
    exact .nothing hnothing hinside.1 hinside.2
  · rename_i hcharacters
    simp only [Bool.and_eq_true, decide_eq_true_eq, List.all_eq_true] at hinside
    refine .characters hcharacters hinside.1 fun child hchild => ?_
    have hdata := hinside.2 child hchild
    split at hdata
    · simp only [Bool.and_eq_true, bne_iff_ne] at hdata
      exact ⟨_, rfl, hdata.1.1, hdata.1.2, hdata.2⟩
    · cases hdata
  · rename_i hreferences
    simp only [Bool.and_eq_true, decide_eq_true_eq, List.all_eq_true] at hinside
    refine .references hreferences hinside.1 fun child hchild => ?_
    have hdata := hinside.2 child hchild
    split at hdata
    · simp only [Bool.and_eq_true, bne_iff_ne] at hdata
      exact ⟨_, rfl, hdata.1.1, hdata.1.2, by
        simpa [startsWith, ← imp_iff_not_or] using hdata.2⟩
    · cases hdata
  · rename_i hnodes
    simp only [Bool.and_eq_true, Bool.not_eq_true', Bool.and_eq_false_iff] at hinside
    obtain ⟨⟨hvoid, hfirst⟩, hchildren⟩ := hinside
    refine .nodes hnodes hvoid (fun hpre child hmem => ?_) hchildren
    have hnone := hfirst.resolve_left (by simp [hpre])
    rw [Option.mem_def] at hmem
    simpa [hmem] using hnone

end Tree

namespace Markup.Builder

variable {b b' p : Builder} {path : List ElementName}

/-! ## What has been read last -/

theorem isText_of_treeOf? {fuel id : Nat} {tree : Tree Unit} (h : b.treeOf? fuel id = some tree) :
    b.isText id = tree.isText := by
  cases fuel with
  | zero => cases h
  | succ fuel =>
      rw [treeOf?] at h
      rw [isText, content?]
      split at h <;> rename_i hcell <;> cases h <;> rw [hcell] <;> rfl

/-- The last child of the innermost element is the tree that has been read last. -/
theorem Gained.endsInText_eq {trees : List (Tree Unit)} {tree : Tree Unit}
    (hlt : b.current < b.cells.size) (h : Gained b b' path trees)
    (hlast : trees.getLast? = some tree) : b'.endsInText = tree.isText := by
  obtain ⟨nodes, hgrown⟩ := h.grown
  have hcurrent : b'.current = b.current := by rw [current, current, h.stack]
  have hchildren : b'.childrenOf b'.current = b.childrenOf b.current ++ nodes := by
    rw [hcurrent, childrenOf, childrenOf, hgrown.atParent, Array.getElem?_eq_getElem hlt]
    rfl
  have htrees := hgrown.trees_eq b' (fun _ _ _ => rfl) b'.cells.size (Nat.sub_le _ _)
  have hlast' := congrArg List.getLast? htrees
  rw [List.getLast?_map, List.getLast?_map, hlast, Option.map_some, Option.map_eq_some_iff] at hlast'
  obtain ⟨last, hnode, htree⟩ := hlast'
  rw [endsInText, hchildren, List.getLast?_append, hnode, Option.some_or, Option.any_some,
    isText_of_treeOf? htree]

theorem Opened.endsInText_eq {element : ElementName} {attributes : List (String × String)}
    (h : Opened b b' path element attributes) : b'.endsInText = false := by
  simp [endsInText, current, h.stack, childrenOf, h.cells, getElem?_hangCell_size]

theorem Gained.of_readied {name : String} {trees : List (Tree Unit)}
    (h : Gained (b.readied name) b' path trees) : Gained b b' path trees :=
  ⟨h.ready, h.stack, h.grown⟩

theorem Gained.readied {trees : List (Tree Unit)} (h : Gained b b' path trees) (name : String) :
    Gained b (b'.readied name) path trees :=
  ⟨h.ready.readied name, h.stack, h.grown⟩

/-! ## Leaves -/

/-- A tree is read from its markup, wherever it is settled. -/
def TreeReads (path : List ElementName) (tree : Tree Unit) : Prop :=
  ∀ ⦃p b : Builder⦄ ⦃rest : List Char⦄, Ready b path → Awaits p b →
    (b.endsInText = true → tree.isText = false) →
    (p.skipsLineFeed = true → tree.startsWith '\n' = false) → tree.EndsBefore rest →
    ∃ p' b', Reads p (tree.outerChars ++ rest) p' rest ∧ Awaits p' b' ∧ Gained b b' path [tree] ∧
      p'.skipsLineFeed = false

theorem treeReads_text {data : String} (hsettled : (Tree.text () data).settled path = true) :
    TreeReads path (.text () data) := by
  intro p b rest h hp hends hskips hrest
  simp only [Tree.settled, Bool.and_eq_true, bne_iff_ne] at hsettled
  obtain ⟨⟨hne, hkept⟩, hholds⟩ := hsettled
  have hafter : b.endsInText = false := by
    rw [← Bool.not_eq_true]
    intro htext
    cases hends htext
  obtain rfl := hp.eq_of_endsInText hafter
  have hchars : data.toList ≠ [] := by simpa using hne
  have hnull := (Tree.isKept_iff.1 hkept).2
  have hfirst (hskip : p.skipsLineFeed = true) : data.toList.head? ≠ some '\n' := by
    simpa [Tree.startsWith] using hskips hskip
  rw [← String.ofList_toList (s := data)] at hholds
  obtain ⟨hdone, b', hawaits, hgained⟩ := h.takes_text hafter hchars hnull hholds hfirst
  rw [String.ofList_toList] at hgained
  exact ⟨_, b', reads_text (fun before after => h.textMode_takes hafter hnull hholds hfirst) hrest,
    hawaits, hgained, hdone⟩

theorem treeReads_comment {data : String} (hspelled : (Tree.comment () data).Spelled) :
    TreeReads path (.comment () data) := by
  intro p b rest h hp hends hskips hrest
  have hready := h.readied p.lastStartTag
  refine ⟨_, _, hp.reads_comment hspelled (hready.rule_comment data) rest, (hready.hang _).awaits,
    (Gained.hang_comment hready data).of_readied, rfl⟩

/-! ## Elements -/

/-- An element whose start tag is read back. -/
structure Written (path : List ElementName) (tag : String) (attributes : List (String × String)) :
    Prop where
  spelledTag : SpelledTag tag
  spelledAttributes : SpelledAttributes attributes
  opens : opens path (readTag tag attributes) = true
  name_eq : (elementAt path (readTag tag attributes).name).name = tag
  attributes_eq : attributesAt (elementAt path (readTag tag attributes).name)
    (readTag tag attributes).attributes = attributes
  nodup : (attributes.map Prod.fst).Nodup

/-- Names that the attributes of a vocabulary come from are as different as these. -/
theorem nodup_readAttribute {element : ElementName} {attributes : List (String × String)}
    (hsame : attributesAt element (attributes.map readAttribute) = attributes)
    (hnodup : (attributes.map Prod.fst).Nodup) :
    (attributes.map fun entry => (readAttribute entry).1).Nodup := by
  have hnames : attributes.map (fun entry => (readAttribute entry).1) =
      (attributes.map readAttribute).map Prod.fst := by
    rw [List.map_map]
    rfl
  rw [hnames]
  rw [attributesAt] at hsame
  split at hsame
  · rwa [hsame]
  · refine List.Nodup.of_map (adjustAttribute element.vocabulary) ?_
    have hadjusted := congrArg (List.map Prod.fst) hsame
    rw [adjustAttributes, List.map_map] at hadjusted
    rw [List.map_map]
    exact hadjusted ▸ hnodup

theorem Written.of_settled {tag : String} {attributes : List (String × String)}
    {children : List (Tree Unit)} (hspelled : (Tree.element () tag attributes children).Spelled)
    (hsettled : (Tree.element () tag attributes children).settled path = true) :
    Written path tag attributes := by
  obtain ⟨htag, hnames, hnodup, -⟩ := hspelled
  simp only [Tree.settled, Bool.and_eq_true, beq_iff_eq, List.all_eq_true] at hsettled
  obtain ⟨⟨⟨⟨hopens, hname⟩, hsame⟩, hvalues⟩, -⟩ := hsettled
  exact ⟨htag, ⟨hnames, fun entry hentry => (Tree.isKept_iff.1 (hvalues entry hentry)).2,
    nodup_readAttribute hsame hnodup⟩, hopens, hname, hsame, hnodup⟩

/-- The tree that its element gives. -/
theorem Written.tree_eq {tag : String} {attributes : List (String × String)}
    (h : Written path tag attributes) (children : List (Tree Unit)) :
    Tree.element () (elementAt path (readTag tag attributes).name).name
      (attributesOf (attributesAt (elementAt path (readTag tag attributes).name)
        (readTag tag attributes).attributes)) children =
      Tree.element () tag attributes children := by
  rw [h.name_eq, h.attributes_eq, attributesOf, Table.ofEntries_of_nodup h.nodup]

/-- Several trees are read from their markup, wherever they are settled. -/
def ForestReads (path : List ElementName) (trees : List (Tree Unit)) : Prop :=
  ∀ ⦃p b : Builder⦄ ⦃rest : List Char⦄, Ready b path → Awaits p b →
    (b.endsInText = true → ∀ tree ∈ trees.head?, tree.isText = false) →
    (p.skipsLineFeed = true → ∀ tree ∈ trees.head?, tree.startsWith '\n' = false) →
    (∀ c ∈ rest.head?, c = '<') →
    ∃ p' b', Reads p (Tree.outerChars.forestChars trees ++ rest) p' rest ∧ Awaits p' b' ∧
      Gained b b' path trees ∧ (p'.skipsLineFeed = true → p.skipsLineFeed = true)

/-- The names of the elements that hold text alone. -/
theorem of_mem_textNames {s : String} (h : s ∈ referenceNames ++ characterNames) :
    LowerLetters s ∧ Tree.isVoidTag s = false := by
  have hfacts := of_contains (p := fun s => lower s.toList == s && s.toList.all Char.isAlpha &&
    !Tree.isVoidTag s) (List.contains_iff_mem.2 h) rfl
  simp only [Bool.and_eq_true, beq_iff_eq, List.all_eq_true, Bool.not_eq_true'] at hfacts
  exact ⟨hfacts.1, hfacts.2⟩

section elements

variable {tag : String} {attributes : List (String × String)} (hwritten : Written path tag attributes)

include hwritten

/-- An element that holds nodes is read, by way of its children. -/
theorem treeReads_nodes {children : List (Tree Unit)}
    (hnodes : insideOf (elementAt path (readTag tag attributes).name) = .nodes)
    (hvoid : Tree.isVoidTag tag = false)
    (hfirst : (elementAt path (readTag tag attributes).name).isOneOf ["pre", "listing"] = true →
      ∀ tree ∈ children.head?, tree.startsWith '\n' = false)
    (hinner : ForestReads (elementAt path (readTag tag attributes).name :: path) children) :
    TreeReads path (.element () tag attributes children) := by
  intro p b rest h hp hends hskips hrest
  obtain ⟨opened, hrule, hopened⟩ := (h.readied (lower tag.toList)).startTag_opened hwritten.opens rfl
    hnodes
  have hstart := hp.reads_startTag hwritten.spelledTag hwritten.spelledAttributes hrule
    (Tree.outerChars.forestChars children ++ (Tree.endTagChars tag ++ rest))
  have hclosing : ∀ c ∈ (Tree.endTagChars tag ++ rest).head?, c = '<' := by simp [Tree.endTagChars]
  obtain ⟨p', inner, hread, hp', hgained, -⟩ := hinner hopened.ready hopened.ready.awaits
    (fun htext => by rw [hopened.endsInText_eq] at htext; cases htext)
    (fun hskip => hfirst ((hopened.skips hskip).resolve_left (by simp [readied]))) hclosing
  have hlower : lower (elementAt path (readTag tag attributes).name).name.toList =
      (readTag tag attributes).name := by
    rw [hwritten.name_eq]
    rfl
  obtain ⟨closed, hrule', hclosed⟩ := (hgained.ready.readied p'.lastStartTag).endTag_closed
    h.path_ne_nil hwritten.opens hlower
  have hend := hp'.reads_endTag hwritten.spelledTag hrule' rest
  have hwhole := Gained.element (h.readied _) hopened (hgained.readied _) hclosed
  rw [hwritten.tree_eq] at hwhole
  refine ⟨closed, closed, ?_, hclosed.ready.awaits, hwhole.of_readied, hclosed.skips⟩
  rw [Tree.outerChars, hvoid, if_neg (by decide), List.append_assoc, List.append_assoc]
  exact hstart.trans (hread.trans hend)

/-- Only an ordinary element holds anything but nodes. -/
theorem Written.ordinary
    (hinside : insideOf (elementAt path (readTag tag attributes).name) ≠ .nodes) :
    opensForeign path tag = false ∧ elementAt path (readTag tag attributes).name = .html tag ∧
      readTag tag attributes = { name := tag, attributes } := by
  have hname := hwritten.name_eq
  have hattributes := hwritten.attributes_eq
  have hread : readTag tag attributes =
      { name := (readTag tag attributes).name, attributes := (readTag tag attributes).attributes } :=
    rfl
  rw [hread]
  generalize (readTag tag attributes).name = name at *
  generalize (readTag tag attributes).attributes = entries at *
  have hhtml : (elementAt path name).vocabulary = .html := by
    by_contra hforeign
    exact hinside (insideOf_of_foreign hforeign)
  cases hforeign : opensForeign path name with
  | true =>
      rw [elementAt, if_pos hforeign] at hhtml
      simp only [opensForeign, Bool.and_eq_true, bne_iff_ne] at hforeign
      exact absurd hhtml hforeign.1
  | false =>
      have helement : elementAt path name = .html name := by
        rw [elementAt, hforeign, if_neg (by decide)] at hhtml ⊢
        split at hhtml
        · cases hhtml
        · split at hhtml
          · cases hhtml
          · simp [*]
      rw [helement] at hname hattributes ⊢
      obtain rfl : name = tag := hname
      obtain rfl : entries = attributes := hattributes
      exact ⟨hforeign, rfl, rfl⟩

theorem Written.opens_ordinary
    (hinside : insideOf (elementAt path (readTag tag attributes).name) ≠ .nodes) :
    Opens path { name := tag, attributes } := by
  obtain ⟨hforeign, -, hread⟩ := hwritten.ordinary hinside
  have hopens := hwritten.opens
  rw [hread, Markup.opens, hforeign, if_neg (by decide)] at hopens
  exact opens_of_opensOrdinary hopens

/-- The start tag of an ordinary element is read. -/
theorem Written.reads_startTag {p b b' : Builder} (hp : Awaits p b)
    (hinside : insideOf (elementAt path (readTag tag attributes).name) ≠ .nodes)
    (hrule : (b.readied tag).rule (.startTag { name := tag, attributes }) = .done b')
    (rest : List Char) : Reads p (Tree.startTagChars tag attributes ++ rest) b' rest := by
  obtain ⟨-, -, hread⟩ := hwritten.ordinary hinside
  have hlower : lower tag.toList = tag := congrArg Tag.name hread
  refine hp.reads_startTag hwritten.spelledTag hwritten.spelledAttributes ?_ rest
  rwa [hread, hlower]

/-- The end tag of an ordinary element is read. -/
theorem Written.reads_endTag {p b b' : Builder} (hp : Awaits p b)
    (hinside : insideOf (elementAt path (readTag tag attributes).name) ≠ .nodes)
    (hrule : (b.readied p.lastStartTag).rule (.endTag tag) = .done b')
    (rest : List Char) : Reads p (Tree.endTagChars tag ++ rest) b' rest := by
  obtain ⟨-, -, hread⟩ := hwritten.ordinary hinside
  have hlower : lower tag.toList = tag := congrArg Tag.name hread
  refine hp.reads_endTag hwritten.spelledTag ?_ rest
  rwa [hlower]

/-- A template is read; its end tag closes it again. -/
theorem treeReads_template (htemplate : tag = "template")
    (hinside : insideOf (elementAt path (readTag tag attributes).name) ≠ .nodes) :
    TreeReads path (.element () tag attributes []) := by
  subst htemplate
  intro p b rest h hp htext hskips hrest
  obtain ⟨hforeign, -, -⟩ := hwritten.ordinary hinside
  have hopens := hwritten.opens_ordinary hinside
  have hready := h.readied "template"
  have hstart := hwritten.reads_startTag hp hinside
    (hready.startTag_template hopens hforeign rfl) (Tree.endTagChars "template" ++ rest)
  have hawaits : Awaits ((b.readied "template").templateOpened attributes)
      ((b.readied "template").templateOpened attributes) := ⟨h.textMode, .inl rfl⟩
  have hend := hwritten.reads_endTag hawaits hinside
    (hready.rule_templateEnd attributes) rest
  have hgained := hready.hangTemplate_gained attributes
  rw [attributesOf, Table.ofEntries_of_nodup hwritten.nodup] at hgained
  refine ⟨_, _, ?_, hgained.ready.awaits, hgained.of_readied, rfl⟩
  have hvoid : Tree.isVoidTag "template" = false := by decide
  rw [Tree.outerChars, hvoid, if_neg (by decide), List.append_assoc, List.append_assoc]
  exact hstart.trans hend

/-- An element without content is read. -/
theorem treeReads_empty (htemplate : tag ≠ "template")
    (hnothing : insideOf (elementAt path (readTag tag attributes).name) = .nothing)
    (hends : (Tree.isVoidTag tag || !endsForeign path tag) = true) :
    TreeReads path (.element () tag attributes []) := by
  intro p b rest h hp htext hskips hrest
  have hinside : insideOf (elementAt path (readTag tag attributes).name) ≠ .nodes := by simp [hnothing]
  obtain ⟨hforeign, helement, hread⟩ := hwritten.ordinary hinside
  have hopens := hwritten.opens_ordinary hinside
  have hready := h.readied tag
  rw [helement] at hnothing
  have hstart := hwritten.reads_startTag hp hinside
    (hready.startTag_empty hopens hforeign hnothing htemplate)
  have hgained := Gained.hang_element hready (.html tag) attributes
  rw [attributesOf, Table.ofEntries_of_nodup hwritten.nodup] at hgained
  by_cases hvoid : Tree.isVoidTag tag = true
  · refine ⟨_, _, ?_, hgained.ready.awaits, hgained.of_readied, rfl⟩
    rw [Tree.outerChars, hvoid, if_pos rfl]
    exact hstart rest
  · -- The end tag is ignored.
    have hlower : String.ofList (tag.toList.map Char.toLower) = tag := congrArg Tag.name hread
    have hlisted : ¬Tree.voidTags.contains tag = true := by
      rwa [Tree.isVoidTag, hlower] at hvoid
    have hplain : ["basefont", "bgsound", "keygen", "param"].contains tag = true := by
      have hcases := of_contains (p := fun s => Tree.voidTags.contains s || s == "template" ||
        ["basefont", "bgsound", "keygen", "param"].contains s)
        (List.contains_iff_mem.2 ((mem_names_of_insideOf _).1 hnothing)) rfl
      rw [Bool.or_eq_true, Bool.or_eq_true] at hcases
      exact hcases.resolve_left (not_or.2 ⟨hlisted, by simpa using htemplate⟩)
    have hready' := hgained.ready.readied tag
    have hrule := hready'.endTag_ignored hopens hplain (by simpa [hvoid] using hends)
    have hend := hwritten.reads_endTag hgained.ready.awaits hinside hrule rest
    refine ⟨_, _, ?_, hready'.awaits, (hgained.readied _).of_readied, rfl⟩
    rw [Tree.outerChars, if_neg hvoid, List.append_assoc, List.append_assoc]
    exact (hstart _).trans hend

/-- An element that holds text alone is read. -/
theorem treeReads_textElement {children : List (Tree Unit)}
    (htext : tag ∈ referenceNames ++ characterNames)
    (hinside : insideOf (elementAt path (readTag tag attributes).name) ≠ .nodes)
    (hcontent : ∀ child ∈ children, ∃ data, child = .text () data ∧ data.toList ≠ [] ∧
      (tag = "textarea" → data.toList.head? ≠ some '\n') ∧
      ∀ c ∈ data.toList, ∀ inForeign elementName rest,
        scan (textModeOf tag) inForeign elementName (escapeChar c ++ rest) =
          { token := some (.characters [c]), mode := textModeOf tag, rest })
    (hlength : children.length ≤ 1) : TreeReads path (.element () tag attributes children) := by
  intro p b rest h hp hends hskips hrest
  obtain ⟨hforeign, -, -⟩ := hwritten.ordinary hinside
  obtain ⟨hlower, hvoid⟩ := of_mem_textNames htext
  have hready := h.readied tag
  let skips := (b.readied tag).skipsLineFeed || tag == "textarea"
  let opened := (b.readied tag).textOpened { name := tag, attributes } skips
  have hstart : ∀ rest, Reads p (Tree.startTagChars tag attributes ++ rest) opened rest :=
    hwritten.reads_startTag hp hinside
      (hready.startTag_text (hwritten.opens_ordinary hinside) hforeign htext)
  -- Whatever has been read inside, the end tag goes back.
  have hend {cells : Array Cell} {nodes : List Nat} (skips' : Bool)
      (hgrown : Grown opened.cells cells b.cells.size nodes children) :=
    hready.reads_textEnd hgrown hwritten.spelledTag hlower rfl hrest skips'
  simp only [attributesOf, Table.ofEntries_of_nodup hwritten.nodup] at hend
  rw [Tree.outerChars, hvoid, if_neg (by decide), List.append_assoc, List.append_assoc]
  rcases children with _ | ⟨child, _ | ⟨next, children⟩⟩
  · obtain ⟨b', hread, hgained, hskips'⟩ := hend skips .refl
    exact ⟨b', b', (hstart _).trans hread, hgained.ready.awaits, hgained.of_readied, hskips'⟩
  · obtain ⟨data, rfl, hne, hfirst, hscan⟩ := hcontent child List.mem_cons_self
    have hskip : skips = true → data.toList.head? ≠ some '\n' := by
      intro hskip
      exact hfirst (by simpa [skips, Builder.readied] using hskip)
    have hinner : Reads opened (escapeChars data.toList ++ (Tree.endTagChars tag ++ rest))
        (((b.readied tag).textOpened { name := tag, attributes } false).hang
          { content := .text (String.ofList data.toList) }) (Tree.endTagChars tag ++ rest) :=
      hready.reads_content hne hskip hscan
    rw [String.ofList_toList] at hinner
    have hleaf : Grown opened.cells (hangCell opened.cells b.cells.size { content := .text data })
        b.cells.size [opened.cells.size] [.text () data] := by
      refine .leaf ?_ fun later fuel hcell => by rw [treeOf?, hcell]
      simp [opened, textOpened, push, hang, size_hangCell, Builder.readied]
    obtain ⟨b', hread, hgained, hskips'⟩ := hend false hleaf
    refine ⟨b', b', ?_, hgained.ready.awaits, hgained.of_readied, hskips'⟩
    rw [Tree.outerChars.forestChars, Tree.outerChars.forestChars, Tree.outerChars, List.append_nil]
    exact (hstart _).trans (hinner.trans hread)
  · exact absurd hlength (by simp)

section

variable {children : List (Tree Unit)} (hlength : children.length ≤ 1)

include hlength

/-- An element that holds one text with references is read. -/
theorem treeReads_references
    (hreferences : insideOf (elementAt path (readTag tag attributes).name) = .references)
    (hcontent : ∀ child ∈ children, ∃ data, child = .text () data ∧ data ≠ "" ∧
      Tree.isKept data = true ∧ (tag = "textarea" → data.toList.head? ≠ some '\n')) :
    TreeReads path (.element () tag attributes children) := by
  have hinside : insideOf (elementAt path (readTag tag attributes).name) ≠ .nodes := by
    simp [hreferences]
  rw [(hwritten.ordinary hinside).2.1] at hreferences
  have hname : tag ∈ referenceNames := (mem_names_of_insideOf tag).2.1 hreferences
  have hmode : textModeOf tag = .referenceText := by
    rw [textModeOf, if_pos (by simpa using hname)]
  refine treeReads_textElement hwritten (List.mem_append_left _ hname) hinside
    (fun child hchild => ?_) hlength
  obtain ⟨data, rfl, hne, hkept, hfirst⟩ := hcontent child hchild
  exact ⟨data, rfl, by simpa using hne, hfirst,
    scan_references hmode (Tree.isKept_iff.1 hkept).2⟩

/-- An element that holds one text without references is read. -/
theorem treeReads_characters
    (hcharacters : insideOf (elementAt path (readTag tag attributes).name) = .characters)
    (hcontent : ∀ child ∈ children, ∃ data, child = .text () data ∧ data ≠ "" ∧
      Tree.isKept data = true ∧ Tree.isUnescaped data = true) :
    TreeReads path (.element () tag attributes children) := by
  have hinside : insideOf (elementAt path (readTag tag attributes).name) ≠ .nodes := by
    simp [hcharacters]
  rw [(hwritten.ordinary hinside).2.1] at hcharacters
  have hname : tag ∈ characterNames := (mem_names_of_insideOf tag).2.2 hcharacters
  refine treeReads_textElement hwritten (List.mem_append_right _ hname) hinside
    (fun child hchild => ?_) hlength
  obtain ⟨data, rfl, hne, hkept, hunescaped⟩ := hcontent child hchild
  have hnull := (Tree.isKept_iff.1 hkept).2
  refine ⟨data, rfl, by simpa using hne, ?_, scan_unescaped tag hnull fun c hc => ?_⟩
  · rintro rfl
    exact absurd hname (by decide)
  · have hnone := List.all_eq_true.1 hunescaped c hc
    rw [Option.isNone_iff_eq_none] at hnone
    rw [escapeChar, hnone]

end

end elements

/-! ## Forests -/

theorem forestReads_nil : ForestReads path [] := fun p b _ h hp _ _ _ =>
  ⟨p, b, .refl _ _, hp, .refl h, fun hskips => hskips⟩

/-- What is written behind a node ends it. -/
theorem endsBefore_forestChars {tree : Tree Unit} {trees : List (Tree Unit)} {rest : List Char}
    (hnext : ∀ next ∈ trees.head?, tree.canPrecede next = true ∧ next.settled path = true)
    (hrest : ∀ c ∈ rest.head?, c = '<') :
    tree.EndsBefore (Tree.outerChars.forestChars trees ++ rest) := by
  have hmark {more : List Char} (hmore : ∀ c ∈ more.head?, c = '<') : tree.EndsBefore more := by
    cases tree with
    | text => exact hmore
    | element _ tag =>
        intro _ hhead
        cases hmore _ hhead
    | comment => trivial
    | document => trivial
  cases trees with
  | nil => exact hmark hrest
  | cons next trees =>
      obtain ⟨hprecedes, hsettled⟩ := hnext next rfl
      rw [Tree.outerChars.forestChars, List.append_assoc]
      cases next with
      | element _ tag attributes children =>
          refine hmark fun c hc => ?_
          rw [Tree.outerChars] at hc
          split at hc <;> simpa [Tree.startTagChars, eq_comm] using hc
      | comment _ data =>
          refine hmark fun c hc => ?_
          simpa [Tree.outerChars, eq_comm] using hc
      | document => cases hsettled
      -- Behind a script a text must not begin with a byte order mark.
      | text _ data =>
          cases tree with
          | text => cases hprecedes
          | element _ tag =>
              rintro rfl hhead
              have hne : data.toList ≠ [] := by
                simp only [Tree.settled, Bool.and_eq_true, bne_iff_ne] at hsettled
                simpa using hsettled.1.1
              have hfirst : data.toList.head? ≠ some '\ufeff' := by
                simpa [Tree.canPrecede] using hprecedes
              obtain ⟨c, cs, hchars⟩ := List.exists_cons_of_ne_nil hne
              rw [Tree.outerChars, hchars, escapeChars, List.flatMap_cons] at hhead
              obtain ⟨hself, -⟩ | ⟨more, hpiece⟩ := escapeChar_eq_self_or_reference c
              · rw [hself, List.cons_append, List.cons_append, List.head?_cons] at hhead
                rw [hchars, List.head?_cons] at hfirst
                exact hfirst hhead
              · rw [hpiece, List.cons_append, List.cons_append, List.head?_cons] at hhead
                cases hhead
          | comment => trivial
          | document => trivial

theorem forestReads_cons {tree : Tree Unit} {trees : List (Tree Unit)} (htree : TreeReads path tree)
    (htrees : ForestReads path trees)
    (hnext : ∀ next ∈ trees.head?, tree.canPrecede next = true ∧ next.settled path = true) :
    ForestReads path (tree :: trees) := by
  intro p b rest h hp hends hskips hrest
  obtain ⟨p', b', hread, hp', hgained, hskips'⟩ := htree h hp (fun htext => hends htext tree rfl)
    (fun hskip => hskips hskip tree rfl) (endsBefore_forestChars hnext hrest)
  have hafter (htext : b'.endsInText = true) : ∀ next ∈ trees.head?, next.isText = false := by
    rw [hgained.endsInText_eq h.current_lt rfl] at htext
    intro next hmem
    have hprecedes := (hnext next hmem).1
    cases tree <;> cases next <;> first | rfl | (cases htext; done) | cases hprecedes
  obtain ⟨p'', b'', hread', hp'', hgained', hskips''⟩ := htrees hgained.ready hp' hafter
    (fun hskip => by rw [hskips'] at hskip; cases hskip) hrest
  refine ⟨p'', b'', ?_, hp'', hgained.trans h.current_lt hgained', fun hskip => ?_⟩
  · rw [Tree.outerChars.forestChars, List.append_assoc]
    exact hread.trans hread'
  · rw [hskips'] at hskips''
    cases hskips'' hskip

theorem settledForest_cons {tree : Tree Unit} {trees : List (Tree Unit)}
    (h : Tree.settled.settledForest path (tree :: trees) = true) :
    tree.settled path = true ∧ Tree.settled.settledForest path trees = true ∧
      ∀ next ∈ trees.head?, tree.canPrecede next = true ∧ next.settled path = true := by
  rw [Tree.settled.settledForest, Bool.and_eq_true, Bool.and_eq_true] at h
  obtain ⟨⟨htree, hnext⟩, htrees⟩ := h
  refine ⟨htree, htrees, fun next hmem => ?_⟩
  rw [Option.mem_def] at hmem
  refine ⟨by simpa [hmem] using hnext, ?_⟩
  obtain ⟨more, rfl⟩ := List.head?_eq_some_iff.1 hmem
  rw [Tree.settled.settledForest, Bool.and_eq_true, Bool.and_eq_true] at htrees
  exact htrees.1.1

/-- Settled trees are read back from their markup. -/
theorem forestReads (trees : List (Tree Unit)) (path : List ElementName)
    (hspelled : Tree.Spelled.spelledForest trees)
    (hsettled : Tree.settled.settledForest path trees = true) : ForestReads path trees := by
  refine Tree.bare.bareForest.induct
    (fun trees : List (Tree Unit) => ∀ path, Tree.Spelled.spelledForest trees →
      Tree.settled.settledForest path trees = true → ForestReads path trees)
    (fun tree : Tree Unit => ∀ path, tree.Spelled → tree.settled path = true → TreeReads path tree)
    ?element ?text ?comment ?document ?nil ?cons trees path hspelled hsettled
  case element =>
    intro label tag attributes children ih path hspelled hsettled
    have hwritten := Written.of_settled hspelled hsettled
    cases Tree.holds_of_settled hsettled with
    | nothing hinside hchildren hends =>
        subst hchildren
        by_cases htemplate : tag = "template"
        · exact treeReads_template hwritten htemplate (by simp [hinside])
        · exact treeReads_empty hwritten htemplate hinside (by simpa [htemplate] using hends)
    | references hinside hlength hcontent =>
        exact treeReads_references hwritten hlength hinside hcontent
    | characters hinside hlength hcontent =>
        exact treeReads_characters hwritten hlength hinside hcontent
    | nodes hinside hvoid hfirst hchildren =>
        exact treeReads_nodes hwritten hinside hvoid hfirst (ih _ hspelled.2.2.2 hchildren)
  case text =>
    intro label data path hspelled hsettled
    exact treeReads_text hsettled
  case comment =>
    intro label data path hspelled hsettled
    exact treeReads_comment hspelled
  case document =>
    intro label children ih path hspelled hsettled
    cases hsettled
  case nil =>
    intro path hspelled hsettled
    exact forestReads_nil
  case cons =>
    intro tree trees ih ihtrees path hspelled hsettled
    obtain ⟨htree, htrees, hnext⟩ := settledForest_cons hsettled
    exact forestReads_cons (ih path hspelled.1 htree) (ihtrees path hspelled.2 htrees) hnext

end Markup.Builder

end LiveTemplate
