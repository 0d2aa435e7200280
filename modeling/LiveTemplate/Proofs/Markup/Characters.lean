import Mathlib.Data.List.Induction
import LiveTemplate.Proofs.Markup.Scanning
import LiveTemplate.Proofs.Markup.Steps

/-!
# Text and comments that stay where they are

A character goes to the text at the end of the innermost element.  Between the parts of a table white
space is held back until something else follows, so the state behind it only stands for the state in
which it has been put in its place.
-/

namespace LiveTemplate.Markup.Builder

variable {b b' : Builder} {path : List ElementName} {tag : Tag}

/-! ## Modes -/

/-- Only some modes are those of settled markup. -/
theorem modeAt_cases (path : List ElementName) :
    isBodyMode (modeAt path) ∨ isTableMode (modeAt path) ∨ isSelectMode (modeAt path) ∨
      modeAt path = .inColumnGroup := by
  induction path with
  | nil => exact .inl (.inl rfl)
  | cons element outer ih =>
      cases outer with
      | nil => exact .inl (.inl rfl)
      | cons next outer =>
          rw [modeAt]
          · split
            · exact .inr (.inr (.inl (selectMode_eq_or _)))
            split
            · exact .inl (.inr (.inl rfl))
            split
            · exact .inr (.inl (.inr (.inr rfl)))
            split
            · exact .inr (.inl (.inr (.inl rfl)))
            split
            · exact .inl (.inr (.inr rfl))
            split
            · exact .inr (.inr (.inr rfl))
            split
            · exact .inr (.inl (.inl rfl))
            · exact ih
          · simp

/-! ## Comments -/

/-- A comment goes to the end of the innermost element. -/
theorem Ready.rule_comment (h : Ready b path) (data : String) :
    b.rule (.comment data) = .done (b.hang { content := .comment data }) := by
  rw [← h.insertComment_eq, rule]
  split
  · rfl
  · rw [modeRule, h.mode]
    obtain (hmode | hmode | hmode) | (hmode | hmode | hmode) | (hmode | hmode) | hmode :=
      modeAt_cases path <;>
    · rw [hmode]
      rfl

/-! ## End tags that are ignored -/

theorem foreignEndStack_of_endsForeign {name : String} (stack : List Nat) (isFirst : Bool)
    (h : endsForeign (stack.map b.nameOf) name = false)
    (hfirst : isFirst = true → ∀ id ∈ stack.head?, (b.nameOf id).vocabulary ≠ .html) :
    b.foreignEndStack name stack isFirst = none ∨
      b.foreignEndStack name stack isFirst = some b.stack := by
  induction stack generalizing isFirst with
  | nil => exact .inr (by rw [foreignEndStack])
  | cons id rest ih =>
      cases rest with
      | nil => exact .inr (by rw [foreignEndStack])
      | cons next rest =>
          rw [foreignEndStack]
          · by_cases hhtml : (b.nameOf id).vocabulary = .html
            · cases isFirst with
              | true => exact absurd hhtml (hfirst rfl id rfl)
              | false => exact .inl (by simp [hhtml])
            · rw [endsForeign, List.map_cons, List.takeWhile_cons_of_pos (by simpa using hhtml),
                List.any_cons, Bool.or_eq_false_iff] at h
              simp only [beq_iff_eq, hhtml, Bool.and_eq_true, and_false, if_false, h.1,
                Bool.false_eq_true]
              exact ih false h.2 (fun hfalse => by cases hfalse)
          · simp

/-- The end tag of an element without content closes nothing. -/
theorem Ready.endTag_ignored (h : Ready b path) (hopens : Opens path tag)
    (hname : ["basefont", "bgsound", "keygen", "param"].contains tag.name = true)
    (hends : endsForeign path tag.name = false) : b.rule (.endTag tag.name) = .done b := by
  have hnone (l : List String)
      (hl : ["basefont", "bgsound", "keygen", "param"].all (fun s => !l.contains s) = true) :
      l.contains tag.name ≠ true := by
    simpa using of_contains (p := fun s => !l.contains s) hname hl
  have hleaf : insideOf (.html tag.name) ≠ .nodes := by
    simpa using of_contains (p := fun s => insideOf (.html s) != .nodes) hname rfl
  have hmodeRule : b.modeRule (.endTag tag.name) = .done b := by
    cases hopens.leaf hleaf with
    | ordinary hmode hfits =>
        have htable : tag.name ≠ "table" := fun htable => hnone ["table"] rfl (by simp [htable])
        rw [modeRule_endTag (h.mode ▸ hmode) hfits htable, h.bodyEnd_eq_self hname]
    | besideParts _ hbeside =>
        obtain hbeside | ⟨hbeside, -⟩ := hbeside
        · exact absurd hbeside (hnone _ rfl)
        · exact absurd (by rw [hbeside]; rfl) (hnone ["input"] rfl)
    | column _ hcolumn => exact absurd hcolumn (hnone _ rfl)
    | besideOptions _ hbeside => exact absurd hbeside (hnone _ rfl)
    | separator _ _ _ hhr => exact absurd (by rw [hhr]; rfl) (hnone ["hr"] rfl)
  -- Foreign elements are asked first, and none of them is meant.
  by_cases hhost : (hostAt path).vocabulary = .html
  · rw [h.rule_eq hhost, hmodeRule]
  · have htakes : b.takesForeign (.endTag tag.name) = true := by
      simp only [takesForeign, h.adjustedCurrentName_eq]
      rw [if_neg (by simpa using hhost)]
    have hbreaks : ¬(tag.name == "br" || tag.name == "p") = true := by
      have := hnone ["br", "p"] rfl
      simpa using this
    have hstack : b.foreignEndStack tag.name b.stack true = none ∨
        b.foreignEndStack tag.name b.stack true = some b.stack := by
      refine foreignEndStack_of_endsForeign b.stack true (by rw [h.names]; exact hends) ?_
      rintro - id hid
      have hcurrent : b.nameOf id = b.currentName := by
        rw [currentName, current, List.headD_eq_head?_getD, hid, Option.getD_some]
      have hne := hhost
      rw [← h.apply_currentName (p := ElementName.vocabulary) rfl] at hne
      rwa [hcurrent]
    rw [rule, htakes, if_pos rfl, foreignRule, if_neg hbreaks]
    obtain hstack | hstack := hstack
    · rw [hstack]
      exact hmodeRule
    · rw [hstack]

/-! ## Characters -/

/-- The same state, in which a line feed is content. -/
def keeping (b : Builder) : Builder := { b with skipsLineFeed := false }

/-- Take in a text character by character. -/
def takes (b : Builder) (cs : List Char) : Builder :=
  cs.foldl (fun b c => b.take (.characters [c])) b

theorem takes_concat (b : Builder) (cs : List Char) (c : Char) :
    b.takes (cs ++ [c]) = (b.takes cs).take (.characters [c]) := by
  rw [takes, List.foldl_append]
  rfl

theorem take_eq_accept {token : Token}
    (h : b.skipsLineFeed = true → token ≠ .characters ['\n']) :
    b.take token = b.keeping.accept token := by
  rw [take]
  split
  · rename_i hskip
    rw [Bool.and_eq_true, beq_iff_eq] at hskip
    exact absurd hskip.2 (h hskip.1)
  · rfl

theorem Standing.insertText_eq (h : Standing b path) (text : String) :
    b.insertText text = b.appendText b.current text := by
  simp only [insertText, h.placeFor_current]

theorem Standing.keeping (h : Standing b path) : Standing b.keeping path :=
  h.of_same rfl rfl rfl

theorem Ready.keeping (h : Ready b path) : Ready b.keeping path where
  toStanding := h.toStanding.keeping
  mode := h.mode
  textMode := h.textMode
  tableText := h.tableText
  templateModes := h.templateModes
  tracks := h.tracks
  form := h.form
  nodes := h.nodes
  inTables := h.inTables

/-- Where each character goes to the end of the innermost element, a text does. -/
theorem Standing.takes_eq_hang (h : Standing b path) (hends : b.endsInText = false) {cs : List Char}
    (hne : cs ≠ []) (hskips : b.skipsLineFeed = true → cs.head? ≠ some '\n')
    (hfirst : ∀ c ∈ cs, b.keeping.rule (.characters [c]) =
      .done (b.keeping.insertText (String.singleton c)))
    (hlater : ∀ cell, ∀ c ∈ cs, (b.keeping.hang cell).rule (.characters [c]) =
      .done ((b.keeping.hang cell).insertText (String.singleton c))) :
    b.takes cs = b.keeping.hang { content := .text (String.ofList cs) } := by
  -- The last character goes to the text that the others have left.
  induction cs using List.reverseRecOn with
  | nil => exact absurd rfl hne
  | append_singleton cs c ih =>
      have hlast : c ∈ cs ++ [c] := List.mem_append_right _ (List.mem_singleton_self c)
      rw [takes_concat]
      by_cases hcs : cs = []
      · subst hcs
        have hskips : b.skipsLineFeed = true → Token.characters [c] ≠ .characters ['\n'] := by
          simpa using hskips
        rw [takes, List.foldl_nil, take_eq_accept hskips, accept_of_rule (hfirst c hlast),
          h.keeping.insertText_eq, appendText_of_not_endsInText h.keeping.current_lt hends]
        rfl
      · obtain ⟨first, more, rfl⟩ := List.exists_cons_of_ne_nil hcs
        have hbefore := ih (List.cons_ne_nil _ _) hskips
          (fun d hd => hfirst d (List.mem_append_left _ hd))
          (fun cell d hd => hlater cell d (List.mem_append_left _ hd))
        rw [hbefore, take_eq_accept (by rintro ⟨⟩)]
        refine (accept_of_rule (hlater _ c hlast)).trans ?_
        rw [(h.keeping.hang _).insertText_eq]
        refine (appendText_hang h.keeping.current_lt _ _).trans ?_
        rw [String.ofList_append, String.singleton_eq_ofList]

/-- Where content is ordinary or foreign, and in selection lists, a character stays where it is;
among columns white space does. -/
theorem Ready.rule_character (h : Ready b path) {c : Char} (hnull : c ≠ '\x00')
    (htable : ¬isTableMode (modeAt path))
    (hspace : modeAt path = .inColumnGroup → isSpace c = true) :
    b.rule (.characters [c]) = .done (b.insertText (String.singleton c)) := by
  have hchar : bodyCharacter b c = b.insertText (String.singleton c) := by
    rw [bodyCharacter, if_neg (by simpa using hnull), h.reopenFormatting_eq]
  rw [rule]
  split
  · rw [foreignRule, map_replaceNull (by simpa using hnull.symm), String.singleton_eq_ofList]
  · rw [modeRule, h.mode]
    obtain (hmode | hmode | hmode) | hmode | (hmode | hmode) | hmode := modeAt_cases path
    · rw [hmode, ← hchar]
      rfl
    · rw [hmode, ← hchar]
      rfl
    · rw [hmode, ← hchar]
      rfl
    · exact absurd hmode htable
    · rw [hmode]
      simp [selectRule, hnull]
    · rw [hmode]
      simp [selectInTableRule, selectRule, hnull]
    · rw [hmode]
      simp [columnsRule, hspace hmode]

/-! ## Text between the parts of a table -/

/-- The state behind white space that is held back. -/
def holding (b : Builder) (cs : List Char) : Builder :=
  { b with mode := .inTableText, returnMode := b.mode, tableText := cs.reverse }

section holding

variable (h : Ready b path) (htable : isTableMode (modeAt path))
  (hhost : (hostAt path).isTablePart = true)

include h hhost

omit hhost in
theorem Ready.standing_holding (cs : List Char) : Standing (b.holding cs) path :=
  h.of_same rfl rfl rfl

omit h in
theorem vocabulary_of_isTablePart : (hostAt path).vocabulary = .html := by
  rw [ElementName.isTablePart, ElementName.isOneOf, Bool.and_eq_true, beq_iff_eq] at hhost
  exact hhost.1

/-- One more character is held back. -/
theorem Ready.take_holding (cs : List Char) {c : Char} (hnull : c ≠ '\x00') :
    (b.keeping.holding cs).take (.characters [c]) = b.keeping.holding (cs ++ [c]) := by
  have hrule : (b.keeping.holding cs).rule (.characters [c]) =
      .done (b.keeping.holding (cs ++ [c])) := by
    rw [(h.keeping.standing_holding cs).rule_eq (vocabulary_of_isTablePart hhost)]
    simp [modeRule, holding, tableTextRule, hnull]
  rw [take_eq_accept (by rintro ⟨⟩)]
  exact accept_of_rule hrule

include htable

/-- The first character is held back. -/
theorem Ready.take_holding_first {c : Char} (hnull : c ≠ '\x00')
    (hskips : b.skipsLineFeed = true → c ≠ '\n') :
    b.take (.characters [c]) = b.keeping.holding [c] := by
  have hpart : b.keeping.currentName.isTablePart = true := by
    rw [h.keeping.apply_currentName (p := ElementName.isTablePart) rfl, hhost]
  have hfirst : b.keeping.rule (.characters [c]) = .again (b.keeping.holding []) := by
    have hmode := h.keeping.mode
    have hheld : b.keeping.holding [] =
        { b.keeping with mode := .inTableText, returnMode := b.keeping.mode } := by
      have htext : b.keeping.tableText = [] := h.tableText
      rw [holding, List.reverse_nil, ← htext]
    rw [h.keeping.rule_eq (vocabulary_of_isTablePart hhost), modeRule, hheld]
    obtain htable | htable | htable := htable <;>
    · rw [htable] at hmode
      rw [hmode]
      simp [rowsRule, rowRule, tableRule, hpart, retryIn, hmode]
  have hsecond : (b.keeping.holding []).rule (.characters [c]) = .done (b.keeping.holding [c]) := by
    rw [(h.keeping.standing_holding _).rule_eq (vocabulary_of_isTablePart hhost)]
    simp [modeRule, holding, tableTextRule, hnull]
  rw [take_eq_accept (by simpa using hskips)]
  exact accept_of_rule_again hfirst hsecond

theorem Ready.takes_eq_holding {cs : List Char} (hne : cs ≠ []) (hnull : '\x00' ∉ cs)
    (hskips : b.skipsLineFeed = true → cs.head? ≠ some '\n') :
    b.takes cs = b.keeping.holding cs := by
  induction cs using List.reverseRecOn with
  | nil => exact absurd rfl hne
  | append_singleton cs c ih =>
      obtain ⟨hbefore, hc⟩ : '\x00' ∉ cs ∧ '\x00' ≠ c := by simpa using hnull
      rw [takes_concat]
      by_cases hcs : cs = []
      · subst hcs
        exact h.take_holding_first htable hhost hc.symm (by simpa using hskips)
      · obtain ⟨first, more, rfl⟩ := List.exists_cons_of_ne_nil hcs
        rw [ih (List.cons_ne_nil _ _) hbefore hskips, h.take_holding hhost _ hc.symm]

end holding

/-- The same state at the next tag or comment, behind the last start tag of a name. -/
def readied (b : Builder) (name : String) : Builder :=
  { b with lastStartTag := name, skipsLineFeed := false }

theorem Ready.readied (h : Ready b path) (name : String) : Ready (b.readied name) path where
  toStanding := h.of_same rfl rfl rfl
  mode := h.mode
  textMode := h.textMode
  tableText := h.tableText
  templateModes := h.templateModes
  tracks := h.tracks
  form := h.form
  nodes := h.nodes
  inTables := h.inTables

/-- A state stands for another one if the next tag, comment or end leads there first. -/
structure Awaits (b b' : Builder) : Prop where
  textMode : b.textMode = .markup
  again : b = b' ∨ b'.endsInText = true ∧ ∀ (name : String) (token : Token),
    (∀ cs, token ≠ .characters cs) → (b.readied name).rule token = .again (b'.readied name)

theorem Ready.awaits (h : Ready b path) : Awaits b b := ⟨h.textMode, .inl rfl⟩

/-- Text follows only where nothing is held back. -/
theorem Awaits.eq_of_endsInText (h : Awaits b b') (hends : b'.endsInText = false) : b = b' := by
  obtain heq | ⟨htext, -⟩ := h.again
  · exact heq
  · rw [hends] at htext
    cases htext

theorem Awaits.accept {b'' : Builder} {name : String} {token : Token} (h : Awaits b b')
    (htoken : ∀ cs, token ≠ .characters cs) (hrule : (b'.readied name).rule token = .done b'') :
    (b.readied name).accept token = b'' := by
  obtain rfl | ⟨-, hagain⟩ := h.again
  · exact accept_of_rule hrule
  · exact accept_of_rule_again (hagain name token htoken) hrule

/-- The state in which white space that was held back is in its place. -/
def released (b : Builder) (cs : List Char) : Builder :=
  { b.hang { content := .text (String.ofList cs) } with returnMode := b.mode }

theorem tableTextRule_eq {token : Token} (htoken : ∀ cs, token ≠ .characters cs)
    (hne : b.tableText ≠ []) (hspace : b.tableText.reverse.all isSpace = true)
    (hinsert : ({ b with tableText := [] } : Builder).insertText (String.ofList b.tableText.reverse) = b') :
    b.tableTextRule token = b'.retryIn b'.returnMode := by
  have hempty : b.tableText.reverse.isEmpty = false := by simpa using hne
  cases token with
  | characters cs => exact absurd rfl (htoken cs)
  | _ => simp only [tableTextRule, hspace, hempty, if_true, Bool.false_eq_true, if_false, hinsert]

section holding

variable (h : Ready b path) (hhost : (hostAt path).isTablePart = true)
  (hends : b.endsInText = false) {cs : List Char} (hne : cs ≠ []) (hspace : cs.all isSpace = true)

include h hhost hends hne hspace

/-- White space that was held back goes where it was written. -/
theorem Ready.rule_holding {token : Token} (htoken : ∀ cs, token ≠ .characters cs) :
    (b.holding cs).rule token = .again (b.released cs) := by
  let emptied : Builder := { b.holding cs with tableText := [] }
  have hstanding : Standing emptied path := h.of_same rfl rfl rfl
  have hheld : (b.holding cs).tableText.reverse = cs := List.reverse_reverse cs
  have hinsert : emptied.insertText (String.ofList (b.holding cs).tableText.reverse) =
      emptied.hang { content := .text (String.ofList cs) } := by
    have hafter : emptied.endsInText = false := hends
    rw [hstanding.insertText_eq, hheld, appendText_of_not_endsInText hstanding.current_lt hafter]
  have htext : b.tableText = [] := h.tableText
  have hreleased : b.released cs = { b.released cs with tableText := [] } := by
    rw [← htext]
    rfl
  rw [(h.standing_holding cs).rule_eq (vocabulary_of_isTablePart hhost)]
  change (b.holding cs).tableTextRule token = _
  rw [tableTextRule_eq htoken (by simpa [holding] using hne) (by rw [hheld]; exact hspace) hinsert,
    hreleased]
  rfl

theorem Ready.awaits_holding : Awaits (b.holding cs) (b.released cs) where
  textMode := h.textMode
  again := by
    refine .inr ⟨?_, fun name token htoken => ?_⟩
    · exact endsInText_hang h.current_lt { content := .text (String.ofList cs) }
    · exact (h.readied name).rule_holding hhost hends hne hspace htoken

end holding

theorem Ready.gained_released (h : Ready b path) (cs : List Char) :
    Gained b (b.released cs) path [.text () (String.ofList cs)] where
  ready :=
    { toStanding := (h.toStanding.hang _).of_same rfl rfl rfl
      mode := h.mode
      textMode := h.textMode
      tableText := h.tableText
      templateModes := h.templateModes
      tracks := h.tracks
      form := h.form
      nodes := h.nodes
      inTables := h.inTables }
  stack := rfl
  grown := (Gained.hang_text h _).grown

/-! ## Texts -/

theorem Gained.of_keeping {trees : List (Tree Unit)} (h : Gained b.keeping b' path trees) :
    Gained b b' path trees :=
  ⟨h.ready, h.stack, h.grown⟩

/-- A text that is settled is read, and stays where it is at the latest when something follows. -/
theorem Ready.takes_text (h : Ready b path) (hends : b.endsInText = false) {cs : List Char}
    (hne : cs ≠ []) (hnull : '\x00' ∉ cs) (hholds : holdsText path (String.ofList cs) = true)
    (hskips : b.skipsLineFeed = true → cs.head? ≠ some '\n') :
    (b.takes cs).skipsLineFeed = false ∧
      ∃ b', Awaits (b.takes cs) b' ∧ Gained b b' path [.text () (String.ofList cs)] := by
  by_cases htable : isTableMode (modeAt path)
  · obtain ⟨hhost, hspace⟩ : (hostAt path).isTablePart = true ∧ cs.all isSpace = true := by
      rw [holdsText] at hholds
      obtain hmode | hmode | hmode := htable <;>
      · rw [hmode] at hholds
        simpa using hholds
    rw [h.takes_eq_holding htable hhost hne hnull hskips]
    exact ⟨rfl, _, h.keeping.awaits_holding hhost hends hne hspace,
      (h.keeping.gained_released cs).of_keeping⟩
  · have hspace (hmode : modeAt path = .inColumnGroup) : ∀ c ∈ cs, isSpace c = true := by
      rw [holdsText, hmode] at hholds
      simpa using (Bool.and_eq_true_iff.1 hholds).2
    have hchar {p : Builder} (hp : Ready p path) : ∀ c ∈ cs,
        p.rule (.characters [c]) = .done (p.insertText (String.singleton c)) := fun c hc =>
      hp.rule_character (ne_of_mem_of_not_mem hc hnull) htable fun hmode => hspace hmode c hc
    rw [h.takes_eq_hang hends hne hskips (hchar h.keeping) fun cell => hchar (h.keeping.hang cell)]
    exact ⟨rfl, _, (h.keeping.hang _).awaits, (Gained.hang_text h.keeping _).of_keeping⟩

/-- The start of a text that stays where it is does so. -/
theorem holdsText_of_append {before after : List Char}
    (h : holdsText path (String.ofList (before ++ after)) = true) :
    holdsText path (String.ofList before) = true := by
  rw [holdsText] at h ⊢
  split at h <;> simp_all

/-- While a settled text is read, characters are read as markup. -/
theorem Ready.textMode_takes (h : Ready b path) (hends : b.endsInText = false) {cs : List Char}
    (hnull : '\x00' ∉ cs) (hholds : holdsText path (String.ofList cs) = true)
    (hskips : b.skipsLineFeed = true → cs.head? ≠ some '\n') {before after : List Char}
    (hcs : cs = before ++ after) : (b.takes before).textMode = .markup := by
  by_cases hne : before = []
  · rw [hne]
    exact h.textMode
  · obtain ⟨first, more, rfl⟩ := List.exists_cons_of_ne_nil hne
    subst hcs
    obtain ⟨-, b', hawaits, -⟩ := h.takes_text hends hne
      (fun hmem => hnull (List.mem_append_left _ hmem)) (holdsText_of_append hholds) hskips
    exact hawaits.textMode

/-! ## The content of elements that hold text alone -/

theorem endsInText_push_hang (element : ElementName) (attributes : List (String × String)) :
    ((b.hang { content := .element element attributes }).push b.cells.size).endsInText = false := by
  simp [endsInText, push, current, childrenOf, hang, getElem?_hangCell_size]

theorem Standing.rule_textCharacter (h : Standing b path) (hhost : (hostAt path).vocabulary = .html)
    (hmode : b.mode = .text) (c : Char) :
    b.rule (.characters [c]) = .done (b.insertText (String.singleton c)) := by
  rw [h.rule_eq hhost, modeRule, hmode, String.singleton_eq_ofList]
  rfl

/-- The text goes into the element as it was read. -/
theorem Ready.takes_textOpened (h : Ready b path) {skips : Bool} {cs : List Char} (hne : cs ≠ [])
    (hskips : skips = true → cs.head? ≠ some '\n') :
    (b.textOpened tag skips).takes cs =
      (b.textOpened tag false).hang { content := .text (String.ofList cs) } := by
  have hstanding : Standing (b.textOpened tag skips) (.html tag.name :: path) :=
    h.standing_textOpened skips
  have hhost : (hostAt (.html tag.name :: path)).vocabulary = .html := by
    rw [hostAt_cons h.path_ne_nil]
    rfl
  refine hstanding.takes_eq_hang (endsInText_push_hang _ _) hne hskips (fun c _ => ?_)
    fun cell c _ => ?_
  · exact hstanding.keeping.rule_textCharacter hhost rfl c
  · exact (hstanding.keeping.hang cell).rule_textCharacter hhost rfl c

end LiveTemplate.Markup.Builder
