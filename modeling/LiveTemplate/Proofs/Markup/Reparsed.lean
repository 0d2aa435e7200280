import LiveTemplate.Proofs.Markup.Restored

/-!
# Parsing what was serialized

The parser gives back every settled forest from its markup.  Before the first token the line breaks
of a text are made alike and a byte order mark at its front is dropped, so the forest may hold no
carriage return and its markup may not start with that mark.
-/

namespace LiveTemplate

open Text

namespace Markup

/-! ## Line breaks -/

theorem breaks_eq_self {cs : List Char} (h : '\r' ∉ cs) : normalize.breaks cs = cs := by
  induction cs with
  | nil => rfl
  | cons c cs ih =>
      obtain ⟨hc, hcs⟩ : '\r' ≠ c ∧ '\r' ∉ cs := by simpa using h
      rw [normalize.breaks]
      · rw [ih hcs]
      · exact fun _ hreturn => absurd hreturn.symm hc
      · exact fun hreturn => absurd hreturn.symm hc

/-- A text is read as it is without a carriage return and a byte order mark at its front. -/
theorem normalize_eq {cs : List Char} (h : '\r' ∉ cs) (hmark : cs.head? ≠ some '\ufeff') :
    normalize (String.ofList cs) = cs := by
  have hsame : dropByteOrderMark cs = cs := by
    unfold dropByteOrderMark
    split
    · exact absurd rfl hmark
    · rfl
  rw [normalize, String.toList_ofList, hsame, breaks_eq_self h]

theorem not_mem_escapeChars {cs : List Char} (h : '\r' ∉ cs) : '\r' ∉ escapeChars cs := by
  intro hmem
  obtain ⟨c, hc, hpiece⟩ := List.mem_flatMap.1 hmem
  obtain ⟨hself, -⟩ | ⟨-, href⟩ | ⟨-, href⟩ | ⟨-, href⟩ | ⟨-, href⟩ | ⟨-, href⟩ | ⟨-, href⟩ :=
    escapeChar_cases c
  · rw [hself, List.mem_singleton] at hpiece
    exact h (hpiece ▸ hc)
  all_goals
    rw [href] at hpiece
    simp at hpiece

theorem SpelledTag.not_mem {tag : String} (h : SpelledTag tag) : '\r' ∉ tag.toList := by
  obtain ⟨c, cs, hchars, -, hends⟩ := h
  rw [hchars]
  intro hmem
  exact absurd (hends _ hmem).1 (by decide)

theorem SpelledName.not_mem {name : String} (h : SpelledName name) : '\r' ∉ name.toList := by
  obtain ⟨c, cs, hchars, hspace, -, -, hends, -⟩ := h
  rw [hchars, List.mem_cons, not_or]
  refine ⟨?_, fun hmem => absurd (hends _ hmem) (by decide)⟩
  rintro rfl
  exact absurd hspace (by decide)

end Markup

namespace Tree

open Markup

theorem not_mem_startTagChars {tag : String} {attributes : List (String × String)}
    (htag : SpelledTag tag) (hnames : ∀ entry ∈ attributes, SpelledName entry.1)
    (hvalues : ∀ entry ∈ attributes, isKept entry.2 = true) :
    '\r' ∉ startTagChars tag attributes := by
  have hattributes : '\r' ∉ attributes.flatMap attributeChars := by
    intro hmem
    obtain ⟨entry, hentry, hchars⟩ := List.mem_flatMap.1 hmem
    have hname := (hnames entry hentry).not_mem
    have hvalue : '\r' ∉ escapeChars entry.2.toList :=
      not_mem_escapeChars (isKept_iff.1 (hvalues entry hentry)).1
    simp [attributeChars, hname, hvalue] at hchars
  simp [startTagChars, htag.not_mem, hattributes]

theorem not_mem_forestChars {trees : List (Tree Unit)} (h : ∀ tree ∈ trees, '\r' ∉ tree.outerChars) :
    '\r' ∉ outerChars.forestChars trees := by
  induction trees with
  | nil => exact List.not_mem_nil
  | cons tree trees ih =>
      obtain ⟨htree, htrees⟩ := List.forall_mem_cons.1 h
      rw [outerChars.forestChars, List.mem_append, not_or]
      exact ⟨htree, ih htrees⟩

/-- What settled trees are written as holds no carriage return. -/
theorem not_mem_forestChars_of_settled (trees : List (Tree Unit)) (path : List ElementName)
    (hspelled : Spelled.spelledForest trees) (hsettled : settled.settledForest path trees = true) :
    '\r' ∉ outerChars.forestChars trees := by
  refine bare.bareForest.induct
    (fun trees : List (Tree Unit) => ∀ path, Spelled.spelledForest trees →
      settled.settledForest path trees = true → '\r' ∉ outerChars.forestChars trees)
    (fun tree : Tree Unit => ∀ path, tree.Spelled → tree.settled path = true →
      '\r' ∉ tree.outerChars)
    ?element ?text ?comment ?document ?nil ?cons trees path hspelled hsettled
  case element =>
    intro label tag attributes children ih path hspelled hsettled
    have hvalues : ∀ entry ∈ attributes, isKept entry.2 = true := by
      rw [settled, Bool.and_eq_true, Bool.and_eq_true] at hsettled
      exact List.all_eq_true.1 hsettled.1.2
    have hstart := not_mem_startTagChars hspelled.1 hspelled.2.1 hvalues
    have hend : '\r' ∉ endTagChars tag := by
      simp [endTagChars, hspelled.1.not_mem]
    have htexts (hcontent : ∀ child ∈ children, ∃ data, child = .text () data ∧ isKept data = true) :
        '\r' ∉ outerChars.forestChars children := by
      refine not_mem_forestChars fun child hchild => ?_
      obtain ⟨data, rfl, hkept⟩ := hcontent child hchild
      exact not_mem_escapeChars (isKept_iff.1 hkept).1
    -- What is inside are texts that are kept, or nodes to which the induction applies.
    have hinner : '\r' ∉ outerChars.forestChars children := by
      cases holds_of_settled hsettled with
      | nothing _ hchildren _ =>
          subst hchildren
          exact List.not_mem_nil
      | references _ _ hcontent =>
          refine htexts fun child hchild => ?_
          obtain ⟨data, rfl, -, hkept, -⟩ := hcontent child hchild
          exact ⟨data, rfl, hkept⟩
      | characters _ _ hcontent =>
          refine htexts fun child hchild => ?_
          obtain ⟨data, rfl, -, hkept, -⟩ := hcontent child hchild
          exact ⟨data, rfl, hkept⟩
      | nodes _ _ _ hchildren => exact ih _ hspelled.2.2.2 hchildren
    rw [outerChars]
    split
    · exact hstart
    · simp [hstart, hinner, hend]
  case text =>
    intro label data path hspelled hsettled
    simp only [settled, Bool.and_eq_true] at hsettled
    exact not_mem_escapeChars (isKept_iff.1 hsettled.1.2).1
  case comment =>
    intro label data path hspelled hsettled
    simpa [outerChars] using (isKept_iff.1 hsettled).1
  case document =>
    intro label children ih path hspelled hsettled
    cases hsettled
  case nil =>
    intro path hspelled hsettled
    exact List.not_mem_nil
  case cons =>
    intro tree trees ih ihtrees path hspelled hsettled
    obtain ⟨htree, htrees, -⟩ := Builder.settledForest_cons hsettled
    rw [outerChars.forestChars, List.mem_append, not_or]
    exact ⟨ih path hspelled.1 htree, ihtrees path hspelled.2 htrees⟩

end Tree

/-! ## The whole text -/

namespace Markup

namespace Builder

theorem ready_start : Ready start [.html "html"] where
  names := rfl
  nodup := by decide
  lt_size := by decide
  inside := by decide
  fostering := rfl
  bottom := rfl
  mode := rfl
  textMode := rfl
  tableText := rfl
  templateModes := rfl
  tracks := .plain rfl .nil
  form := rfl
  nodes := by decide
  inTables := ⟨by rintro ⟨⟩, trivial⟩

/-- The end of the text changes nothing where nothing is open but the root. -/
theorem Ready.rule_endOfText {b : Builder} (h : Ready b [.html "html"]) :
    b.rule .endOfText = .done b := by
  rw [h.rule_eq rfl, modeRule, h.mode]
  rfl

end Builder

open Builder

/-- The parser gives back settled trees from their markup. -/
theorem parseMarkup_forestMarkup {trees : List (Tree Unit)} (hspelled : Tree.Spelled.spelledForest trees)
    (hsettled : Tree.settled.settledForest [.html "html"] trees = true)
    (hmark : (Tree.outerChars.forestChars trees).head? ≠ some '\ufeff') :
    parseMarkup (Tree.forestMarkup trees) = trees := by
  have hreturn := Tree.not_mem_forestChars_of_settled trees _ hspelled hsettled
  have hnothing : ∀ c ∈ ([] : List Char).head?, c = '<' := by simp
  obtain ⟨p, b, hread, hawaits, hgained, hskips⟩ := forestReads trees _ hspelled hsettled
    ready_start ready_start.awaits (by rintro ⟨⟩) (by rintro ⟨⟩) hnothing
  rw [List.append_nil] at hread
  have hend : p.accept .endOfText = b.readied p.lastStartTag := by
    have hkept : p.readied p.lastStartTag = p := by
      have hskip : p.skipsLineFeed = false := by
        rw [← Bool.not_eq_true]
        intro hskip
        cases hskips hskip
      rw [readied, ← hskip]
    have haccept := hawaits.accept (by simp) (hgained.ready.readied p.lastStartTag).rule_endOfText
    rwa [hkept] at haccept
  obtain ⟨nodes, hgrown⟩ := hgained.grown
  have hchildren : (b.readied p.lastStartTag).childrenOf 0 = nodes := by
    have hroot : b.cells[0]? = start.cells[0]?.map fun old =>
      { old with children := old.children ++ nodes } := hgrown.atParent
    simp [childrenOf, readied, hroot, start]
  have htrees := hgrown.trees_eq (b.readied p.lastStartTag) (fun _ _ _ => rfl)
    (b.readied p.lastStartTag).cells.size (Nat.sub_le _ _)
  rw [parseMarkup, Tree.forestMarkup, normalize_eq hreturn hmark]
  simp only [hread.run_eq, hend, hchildren]
  exact filterMap_of_map htrees

end Markup

end LiveTemplate
