import LiveTemplate.Proofs.Dom.Planted
import LiveTemplate.Proofs.Markup.Reparsed
import LiveTemplate.Proofs.Markup.Spelling
import LiveTemplate.Proofs.UniqueReading
import Mathlib.Data.List.Chain

/-!
# Plain trees

Trees of `div` and `span` elements and of texts are settled wherever only such elements are open: no
start tag among them closes an element, and every text stays where it is.  So the parser gives them
back from their markup.
-/

namespace LiveTemplate

open Markup

/-! ## Texts and names -/

/-- A text without null, carriage return and byte order mark. -/
def PlainText (data : String) : Prop :=
  '\x00' ∉ data.toList ∧ '\r' ∉ data.toList ∧ '\ufeff' ∉ data.toList

/-- A lower-case name of an attribute: a letter, then letters, digits and hyphens. -/
def PlainName (name : String) : Prop :=
  ∃ c cs, name.toList = c :: cs ∧ c.isLower = true ∧
    ∀ d ∈ cs, d.isLower = true ∨ d.isDigit = true ∨ d = '-'

theorem PlainText.isKept {data : String} (h : PlainText data) : Tree.isKept data = true :=
  Tree.isKept_iff.2 ⟨h.2.1, h.1⟩

theorem PlainName.mem {name : String} (h : PlainName name) {c : Char} (hc : c ∈ name.toList) :
    c.isLower = true ∨ c.isDigit = true ∨ c = '-' := by
  obtain ⟨first, more, hchars, hfirst, hmore⟩ := h
  rw [hchars] at hc
  obtain rfl | hc := List.mem_cons.1 hc
  · exact .inl hfirst
  · exact hmore c hc

/-- A plain name has no other case. -/
theorem PlainName.lower_eq {name : String} (h : PlainName name) : lower name.toList = name := by
  refine String.toList_inj.1 ?_
  rw [lower, String.toList_ofList]
  refine (List.map_congr_left fun c hc => ?_).trans (List.map_id _)
  refine Char.toLower_eq_of_not_isUpper fun hupper => ?_
  obtain hlower | hdigit | rfl := h.mem hc
  · exact Char.not_isUpper_of_isLower hlower hupper
  · simp only [Char.isDigit, Char.isUpper, Bool.and_eq_true, decide_eq_true_eq, ge_iff_le,
      UInt32.le_iff_toNat_le, Char.reduceVal, UInt32.reduceToNat] at hdigit hupper
    omega
  · cases hupper

/-- No character of a plain name means anything in a tag. -/
theorem PlainName.spelled {name : String} (h : PlainName name) : SpelledName name := by
  have hmark {c mark : Char} (hc : c ∈ name.toList) (hlower : mark.isLower = false)
      (hdigit : mark.isDigit = false) (hhyphen : mark ≠ '-') : c ≠ mark := by
    rintro rfl
    simpa [hlower, hdigit, hhyphen] using h.mem hc
  have hends {c : Char} (hc : c ∈ name.toList) : endsAttributeName c = false := by
    simp [endsAttributeName, isSpace, hmark hc]
  have hnull : '\x00' ∉ name.toList := fun hc => hmark hc rfl rfl (by decide) rfl
  obtain ⟨first, more, hchars, -, -⟩ := h
  rw [hchars] at hends hnull
  obtain ⟨hfirst, hmore⟩ := List.forall_mem_cons.1 fun c hc => hends (c := c) hc
  simp only [endsAttributeName, Bool.or_eq_false_iff, beq_eq_false_iff_ne] at hfirst
  exact ⟨first, more, hchars, hfirst.1.1.1, hfirst.1.1.2, hfirst.1.2, hmore, hnull⟩

/-! ## Trees -/

namespace Tree

variable {ι : Type}

/-- Elements `div` and `span` with distinct plain attributes, and plain texts that are not empty and
never neighbours. -/
def Plain : Tree ι → Prop
  | element _ tag attributes children =>
    (tag = "div" ∨ tag = "span") ∧ (attributes.map Prod.fst).Nodup ∧
      (∀ entry ∈ attributes, PlainName entry.1 ∧ PlainText entry.2) ∧
      Separate children ∧ plainForest children
  | text _ data => data ≠ "" ∧ PlainText data
  | comment _ _ => False
  | document _ _ => False
where
  /-- Each of several trees is plain. -/
  plainForest : List (Tree ι) → Prop
    | [] => True
    | tree :: rest => tree.Plain ∧ plainForest rest

theorem bareForest_eq_map (trees : List (Tree ι)) : bare.bareForest trees = trees.map bare := by
  induction trees with
  | nil => rfl
  | cons tree trees ih => rw [bare.bareForest, ih, List.map_cons]

theorem isText_bare (tree : Tree ι) : tree.bare.isText = tree.isText := by
  cases tree <;> rfl

theorem Separate.bareForest {trees : List (Tree ι)} (h : Separate trees) :
    Separate (bare.bareForest trees) := by
  rw [bareForest_eq_map, Separate, List.isChain_map]
  simp only [isText_bare]
  exact h

theorem Plain.bareForest (trees : List (Tree ι)) (h : Plain.plainForest trees) :
    Plain.plainForest (bare.bareForest trees) := by
  refine bare.bareForest.induct
    (fun trees : List (Tree ι) => Plain.plainForest trees →
      Plain.plainForest (bare.bareForest trees))
    (fun tree : Tree ι => tree.Plain → tree.bare.Plain)
    ?element ?text ?comment ?document ?nil ?cons trees h
  case element =>
    intro label tag attributes children ih h
    exact ⟨h.1, h.2.1, h.2.2.1, h.2.2.2.1.bareForest, ih h.2.2.2.2⟩
  case text => exact fun _ _ h => h
  case comment => exact fun _ _ h => h
  case document => exact fun _ _ _ h => h
  case nil => exact id
  case cons => exact fun tree rest ih ihrest h => ⟨ih h.1, ihrest h.2⟩

end Tree

/-! ## Open elements -/

namespace Markup

/-- Only plain elements are open below the root. -/
inductive PlainPath : List ElementName → Prop
  | root : PlainPath [.html "html"]
  | inside {path : List ElementName} {tag : String} (htag : tag = "div" ∨ tag = "span")
      (h : PlainPath path) : PlainPath (.html tag :: path)

namespace PlainPath

variable {path : List ElementName} (h : PlainPath path)
include h

theorem ne_nil : path ≠ [] := by
  cases h <;> simp

theorem modeAt_eq : modeAt path = .inBody := by
  induction h with
  | root => rfl
  | inside htag h ih =>
      rw [Builder.modeAt_cons h.ne_nil, ih]
      obtain rfl | rfl := htag <;> decide

theorem vocabulary_hostAt : (hostAt path).vocabulary = .html := by
  cases h with
  | root => rfl
  | inside htag h => rw [Builder.hostAt_cons h.ne_nil]; rfl

/-- No paragraph is open. -/
theorem scopeHasNamed_p (bounds : ElementName → Bool) : scopeHasNamed bounds "p" path = false := by
  unfold scopeHasNamed
  induction h with
  | root => simp [scopeHas, ElementName.html]
  | inside htag h ih =>
      have hne (tag : String) : (ElementName.html tag == .html "p") = (tag == "p") := by
        simp [ElementName.html]
      obtain rfl | rfl := htag <;> simp [scopeHas, ih, hne]

/-- A plain start tag only opens its element. -/
theorem opensOrdinary {tag : Tag} (htag : tag.name = "div" ∨ tag.name = "span") :
    opensOrdinary path tag = true := by
  have hfits : disturbsBody path tag.name = false := by
    obtain hname | hname := htag <;>
    simp [hname, disturbsBody, Builder.isMisplaced, endsParagraph, ElementName.isHeading,
      h.scopeHasNamed_p]
  simp [Markup.opensOrdinary, h.modeAt_eq, hfits]

theorem opensForeign (name : String) : opensForeign path name = false := by
  simp [Markup.opensForeign, h.vocabulary_hostAt]

theorem elementAt_eq {tag : String} (htag : tag = "div" ∨ tag = "span") :
    elementAt path tag = .html tag := by
  obtain rfl | rfl := htag <;> simp [elementAt, h.opensForeign]

end PlainPath

end Markup

/-! ## Plain trees are settled -/

namespace Tree

theorem readTag_of_plain {tag : String} (htag : tag = "div" ∨ tag = "span")
    {attributes : List (String × String)}
    (hattributes : ∀ entry ∈ attributes, PlainName entry.1 ∧ PlainText entry.2) :
    readTag tag attributes = ⟨tag, attributes, false⟩ := by
  have hsame : attributes.map readAttribute = attributes :=
    (List.map_congr_left fun entry hentry => by
      rw [readAttribute, (hattributes entry hentry).1.lower_eq, id]).trans (List.map_id _)
  rw [readTag, hsame]
  obtain rfl | rfl := htag <;> rfl

/-- Plain trees stay as they are where only plain elements are open. -/
theorem settledForest_of_plain (trees : List (Tree Unit)) (hplain : Plain.plainForest trees)
    (hseparate : Separate trees) {path : List ElementName} (hpath : PlainPath path) :
    settled.settledForest path trees = true := by
  refine bare.bareForest.induct
    (fun trees : List (Tree Unit) => ∀ path, Plain.plainForest trees → Separate trees →
      PlainPath path → settled.settledForest path trees = true)
    (fun tree : Tree Unit => ∀ path, tree.Plain → PlainPath path → tree.settled path = true)
    ?element ?text ?comment ?document ?nil ?cons trees path hplain hseparate hpath
  case element =>
    rintro label tag attributes children ih path ⟨htag, -, hattributes, hseparate, hchildren⟩ hpath
    have hinside := ih _ hchildren hseparate (.inside htag hpath)
    have hkept : attributes.all (fun entry => isKept entry.2) = true :=
      List.all_eq_true.2 fun entry hentry => (hattributes entry hentry).2.isKept
    have hopens : opensOrdinary path ⟨tag, attributes, false⟩ = true := hpath.opensOrdinary htag
    have hnodes : insideOf (.html tag) = .nodes ∧ isVoidTag tag = false ∧
        (ElementName.html tag).isOneOf ["pre", "listing"] = false := by
      obtain rfl | rfl := htag <;> decide +kernel
    have hname : (ElementName.html tag).vocabulary = .html ∧ (ElementName.html tag).name = tag :=
      ⟨rfl, rfl⟩
    simp [settled, readTag_of_plain htag hattributes, hpath.elementAt_eq htag, opens,
      hpath.opensForeign, hopens, attributesAt, hkept, hnodes, hname, hinside]
  case text =>
    rintro label data path ⟨hne, hdata⟩ hpath
    simp [settled, hne, hdata.isKept, holdsText, hpath.modeAt_eq]
  case comment => exact fun _ _ _ h => h.elim
  case document => exact fun _ _ _ _ h => h.elim
  case nil => exact fun _ _ _ _ => rfl
  case cons =>
    rintro tree rest ih ihrest path ⟨htree, hrest⟩ hseparate hpath
    have hlater := ihrest path hrest hseparate.of_cons hpath
    have hnext : rest.head?.all tree.canPrecede = true := by
      cases rest with
      | nil => rfl
      | cons next later =>
          have hneighbours := (List.isChain_cons_cons.1 hseparate).1
          unfold canPrecede
          simp only [List.head?_cons, Option.all_some]
          split
          · simp [isText] at hneighbours
          · -- A plain element is no script.
            cases htree.1 <;> contradiction
          · rfl
    rw [settled.settledForest, ih path htree hpath, hnext, hlater, Bool.and_self, Bool.and_self]

theorem spelledForest_of_plain (trees : List (Tree Unit)) (h : Plain.plainForest trees) :
    Spelled.spelledForest trees := by
  refine bare.bareForest.induct
    (fun trees : List (Tree Unit) => Plain.plainForest trees → Spelled.spelledForest trees)
    (fun tree : Tree Unit => tree.Plain → tree.Spelled)
    ?element ?text ?comment ?document ?nil ?cons trees h
  case element =>
    rintro label tag attributes children ih ⟨htag, hnodup, hattributes, -, hchildren⟩
    have hspelled : SpelledTag tag := by obtain rfl | rfl := htag <;> decide +kernel
    exact ⟨hspelled, fun entry hentry => (hattributes entry hentry).1.spelled, hnodup, ih hchildren⟩
  case text => exact fun _ _ _ => trivial
  case comment => exact fun _ _ h => h.elim
  case document => exact fun _ _ _ _ => trivial
  case nil => exact fun _ => trivial
  case cons => exact fun tree rest ih ihrest h => ⟨ih h.1, ihrest h.2⟩

/-- A plain forest is not taken to start with a byte order mark. -/
theorem head?_forestChars_of_plain {trees : List (Tree Unit)} (h : Plain.plainForest trees) :
    (outerChars.forestChars trees).head? ≠ some '\ufeff' := by
  cases trees with
  | nil => simp [outerChars.forestChars]
  | cons tree rest =>
      cases tree with
      | element label tag attributes children =>
          rw [outerChars.forestChars, outerChars]
          split <;> simp [startTagChars]
      | text label data =>
          obtain ⟨hne, -, -, hmark⟩ := h.1
          obtain ⟨c, more, hdata⟩ : ∃ c more, data.toList = c :: more :=
            List.exists_cons_of_ne_nil (by simpa using hne)
          have hc : c ≠ '\ufeff' := by
            rintro rfl
            simp [hdata] at hmark
          rw [outerChars.forestChars, outerChars, hdata, Text.escapeChars, List.flatMap_cons]
          obtain ⟨hpiece, -⟩ | ⟨later, hpiece⟩ := escapeChar_eq_self_or_reference c
          · simpa [hpiece] using hc
          · simp [hpiece]
      | comment label data => exact h.1.elim
      | document label children => exact h.1.elim

/-- The parser gives back plain trees from their markup. -/
theorem parseMarkup_of_plain {ι : Type} {trees : List (Tree ι)} (hplain : Plain.plainForest trees)
    (hseparate : Separate trees) : parseMarkup (forestMarkup trees) = bare.bareForest trees := by
  have hbare := Plain.bareForest trees hplain
  rw [← forestMarkup_bareForest]
  exact parseMarkup_forestMarkup (spelledForest_of_plain _ hbare)
    (settledForest_of_plain _ hbare hseparate.bareForest .root) (head?_forestChars_of_plain hbare)

end Tree

end LiveTemplate
