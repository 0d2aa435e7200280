import LiveTemplate.Proofs.Markup.Characters

/-!
# Reading back the pieces of serialized markup

A run takes in the tokens of a text one after the other.  Each piece of what a serializer writes, a
tag, a comment or a text, is read as a whole, and the run goes on behind it.
-/

namespace LiveTemplate.Markup.Builder

open Text

variable {b b' : Builder} {path : List ElementName}

/-! ## Runs -/

/-- A run leads from a state in front of a text to a state in front of what is left of it, whatever
fuel is left behind. -/
def Reads (b : Builder) (cs : List Char) (b' : Builder) (rest : List Char) : Prop :=
  ∃ steps, steps + rest.length ≤ cs.length ∧
    ∀ fuel, run (steps + fuel) b cs = run fuel b' rest

namespace Reads

variable {b'' : Builder} {cs rest rest' : List Char}

theorem refl (b : Builder) (cs : List Char) : Reads b cs b cs :=
  ⟨0, by omega, fun fuel => by rw [Nat.zero_add]⟩

theorem trans (h : Reads b cs b' rest) (h' : Reads b' rest b'' rest') : Reads b cs b'' rest' := by
  obtain ⟨steps, hsteps, hrun⟩ := h
  obtain ⟨steps', hsteps', hrun'⟩ := h'
  refine ⟨steps + steps', by omega, fun fuel => ?_⟩
  rw [Nat.add_assoc, hrun, hrun']

/-- One token is scanned and taken in. -/
theorem token {token : Token} {mode : TextMode}
    (hscan : scan b.textMode b.isForeign b.lastStartTag cs = { token := some token, mode, rest })
    (hrest : rest.length < cs.length) :
    Reads b cs ({ b with textMode := mode }.takeScanned token) rest := by
  refine ⟨1, by omega, fun fuel => ?_⟩
  have hne : cs.isEmpty = false := by
    cases cs with
    | nil => exact absurd hrest (Nat.not_lt_zero _)
    | cons c cs => rfl
  rw [Nat.add_comm, run, if_neg (by simp [hne])]
  simp only [hscan, Bool.not_false, Bool.and_true]

/-- The run over a whole text, with as much fuel as there are characters. -/
theorem run_eq (h : Reads b cs b' []) : b.run cs.length cs = b' := by
  obtain ⟨steps, hsteps, hrun⟩ := h
  obtain ⟨fuel, hfuel⟩ : ∃ fuel, cs.length = steps + fuel :=
    ⟨cs.length - steps, by rw [List.length_nil] at hsteps; omega⟩
  rw [hfuel, hrun]
  cases fuel <;> simp [run]

end Reads

/-! ## Texts -/

section texts

variable {cs rest : List Char}

theorem takes_append (b : Builder) (before after : List Char) :
    b.takes (before ++ after) = (b.takes before).takes after := List.foldl_append

/-- A token of characters is taken in one by one. -/
theorem Reads.characters {mode : TextMode} {text run : List Char} (hmode : b.textMode = mode)
    (hscan : scan mode b.isForeign b.lastStartTag text =
      { token := some (.characters run), mode, rest }) (hrest : rest.length < text.length) :
    Reads b text (b.takes run) rest := by
  subst hmode
  exact Reads.token hscan hrest

/-- A text whose characters are scanned one by one is taken in. -/
theorem reads_characters {mode : TextMode}
    (hmode : ∀ before after, cs = before ++ after → (b.takes before).textMode = mode)
    (hscan : ∀ c ∈ cs, ∀ inForeign name rest, scan mode inForeign name (escapeChar c ++ rest) =
      { token := some (.characters [c]), mode, rest }) (rest : List Char) :
    Reads b (escapeChars cs ++ rest) (b.takes cs) rest := by
  induction cs generalizing b with
  | nil => exact .refl _ _
  | cons c cs ih =>
      have hwhole : escapeChars (c :: cs) ++ rest = escapeChar c ++ (escapeChars cs ++ rest) := by
        simp [escapeChars]
      have hfirst : Reads b (escapeChar c ++ (escapeChars cs ++ rest)) (b.takes [c])
          (escapeChars cs ++ rest) := by
        refine Reads.characters (hmode [] _ rfl) (hscan c List.mem_cons_self _ _ _) ?_
        obtain ⟨first, more, hpiece⟩ := exists_escapeChar_eq_cons c
        have hlater := (List.sublist_append_right more (escapeChars cs ++ rest)).length_le
        rw [hpiece, List.cons_append, List.length_cons]
        omega
      rw [hwhole]
      refine hfirst.trans (ih (fun before after hcs => ?_)
        fun d hd => hscan d (List.mem_cons_of_mem _ hd))
      rw [← takes_append]
      exact hmode (c :: before) after (by rw [hcs]; rfl)

theorem escapeChars_of_forall (h : ∀ c ∈ cs, escapeChar c = [c]) : escapeChars cs = cs := by
  induction cs with
  | nil => rfl
  | cons c cs ih =>
      obtain ⟨hc, hcs⟩ := List.forall_mem_cons.1 h
      rw [escapeChars, List.flatMap_cons, hc]
      exact congrArg (c :: ·) (ih hcs)

/-- Behind a run of characters that are written by themselves stands a reference or what follows the
text. -/
theorem head?_escapeChars_dropWhile (hrest : ∀ d ∈ rest.head?, d = '<') :
    ∀ d ∈ (escapeChars (cs.dropWhile fun d => escapeChar d == [d]) ++ rest).head?,
      d = '&' ∨ d = '<' := by
  intro d hd
  cases hafter : cs.dropWhile fun d => escapeChar d == [d] with
  | nil =>
      rw [hafter] at hd
      exact .inr (hrest d hd)
  | cons c after =>
      have hc : (escapeChar c == [c]) = false := by
        have := List.head?_dropWhile_not (fun d => escapeChar d == [d]) cs
        simpa [hafter] using this
      obtain ⟨hself, -⟩ | ⟨more, hpiece⟩ := escapeChar_eq_self_or_reference c
      · simp [hself] at hc
      · rw [hafter, escapeChars, List.flatMap_cons, hpiece, List.cons_append, List.cons_append,
          List.head?_cons, Option.mem_some_iff] at hd
        exact .inl hd.symm

/-- A character that is written as it is begins no reference and no tag. -/
theorem plain_of_escapeChar {c : Char} (h : escapeChar c = [c]) : c ≠ '&' ∧ c ≠ '<' := by
  obtain ⟨-, hamp, hlt, -⟩ | ⟨more, hpiece⟩ := escapeChar_eq_self_or_reference c
  · exact ⟨hamp, hlt⟩
  · rw [h] at hpiece
    obtain ⟨rfl, rfl⟩ := List.cons.inj hpiece
    cases h

/-- A text among tags is taken in, in runs of characters that are written by themselves and in
references. -/
theorem reads_text {b : Builder} {cs : List Char} (hmode : ∀ before after, cs = before ++ after →
      (b.takes before).textMode = .markup) (hrest : ∀ d ∈ rest.head?, d = '<') :
    Reads b (escapeChars cs ++ rest) (b.takes cs) rest :=
  match cs, hmode with
  | [], _ => .refl _ _
  | c :: cs, hmode => by
    obtain ⟨hself, hamp, hlt, -⟩ | ⟨more, hpiece⟩ := escapeChar_eq_self_or_reference c
    · -- All characters up to the next reference or tag are one token.
      let run := cs.takeWhile fun d => escapeChar d == [d]
      let after := cs.dropWhile fun d => escapeChar d == [d]
      have hsplit : cs = run ++ after := List.takeWhile_append_dropWhile.symm
      have hrun : ∀ d ∈ run, escapeChar d = [d] := fun d hd => by
        simpa using List.all_eq_true.1 List.all_takeWhile d hd
      have hplain : ∀ d ∈ run, d ≠ '&' ∧ d ≠ '<' := fun d hd => plain_of_escapeChar (hrun d hd)
      have hwhole : escapeChars (c :: cs) ++ rest = c :: (run ++ (escapeChars after ++ rest)) := by
        rw [hsplit, escapeChars, List.flatMap_cons, hself, List.flatMap_append]
        change [c] ++ (escapeChars run ++ escapeChars after) ++ rest = _
        rw [escapeChars_of_forall hrun]
        simp
      have hfirst : Reads b (c :: (run ++ (escapeChars after ++ rest))) (b.takes (c :: run))
          (escapeChars after ++ rest) := by
        refine Reads.characters (hmode [] _ rfl)
          (scan_plain ⟨hamp, hlt⟩ hplain (head?_escapeChars_dropWhile hrest) _ _) ?_
        simp only [List.length_cons, List.length_append]
        omega
      have hlater : ∀ before further, after = before ++ further →
          ((b.takes (c :: run)).takes before).textMode = .markup := by
        intro before further hafter
        rw [← takes_append]
        exact hmode (c :: run ++ before) further (by rw [hsplit, hafter]; simp)
      have hshort : after.length < (c :: cs).length := by
        rw [hsplit, List.length_cons, List.length_append]
        omega
      have hall : b.takes (c :: cs) = (b.takes (c :: run)).takes after := by
        rw [← takes_append, List.cons_append, ← hsplit]
      rw [hwhole, hall]
      exact hfirst.trans (reads_text hlater hrest)
    · -- A reference is a token of its own.
      have hwhole : escapeChars (c :: cs) ++ rest = '&' :: (more ++ (escapeChars cs ++ rest)) := by
        rw [escapeChars, List.flatMap_cons, hpiece]
        simp [escapeChars]
      have hfirst : Reads b ('&' :: (more ++ (escapeChars cs ++ rest))) (b.takes [c])
          (escapeChars cs ++ rest) := by
        refine Reads.characters (hmode [] _ rfl) (scan_reference hpiece (.inl rfl) _ _ _) ?_
        simp only [List.length_cons, List.length_append]
        omega
      have hlater : ∀ before further, cs = before ++ further →
          ((b.takes [c]).takes before).textMode = .markup := by
        intro before further hcs
        rw [← takes_append]
        exact hmode (c :: before) further (by rw [hcs]; rfl)
      rw [hwhole, show b.takes (c :: cs) = (b.takes [c]).takes cs from rfl]
      exact hfirst.trans (reads_text hlater hrest)
termination_by cs.length
decreasing_by
  · exact hshort
  · exact Nat.lt_succ_self _

end texts

/-! ## Tags and comments -/

namespace Awaits

variable {p : Builder} (h : Awaits p b)

include h

/-- A start tag is read. -/
theorem reads_startTag {tag : String} {attributes : List (String × String)} (htag : SpelledTag tag)
    (hattributes : SpelledAttributes attributes)
    (hrule : (b.readied (lower tag.toList)).rule (.startTag (readTag tag attributes)) = .done b')
    (rest : List Char) : Reads p (Tree.startTagChars tag attributes ++ rest) b' rest := by
  have hscan := scan_startTagChars htag hattributes p.isForeign p.lastStartTag rest
  rw [← h.textMode] at hscan
  have hread := Reads.token hscan (by simp [Tree.startTagChars]; omega)
  have htake : ({ p with textMode := p.textMode } : Builder).takeScanned
      (.startTag (readTag tag attributes)) = b' := by
    rw [takeScanned, take_eq_accept (by simp)]
    exact h.accept (by simp) hrule
  rwa [htake] at hread

/-- An end tag is read. -/
theorem reads_endTag {tag : String} (htag : SpelledTag tag)
    (hrule : (b.readied p.lastStartTag).rule (.endTag (lower tag.toList)) = .done b')
    (rest : List Char) : Reads p (Tree.endTagChars tag ++ rest) b' rest := by
  have hscan := scan_endTagChars htag p.isForeign p.lastStartTag rest
  rw [← h.textMode] at hscan
  have hread := Reads.token hscan (by simp [Tree.endTagChars]; omega)
  have htake : ({ p with textMode := p.textMode } : Builder).takeScanned
      (.endTag (lower tag.toList)) = b' := by
    rw [takeScanned, take_eq_accept (by simp)]
    · exact h.accept (by simp) hrule
    · simp
    · simp
  rwa [htake] at hread

/-- A comment is read. -/
theorem reads_comment {data : String} (hdata : SpelledComment data)
    (hrule : (b.readied p.lastStartTag).rule (.comment data) = .done b') (rest : List Char) :
    Reads p (['<', '!', '-', '-'] ++ data.toList ++ ['-', '-', '>'] ++ rest) b' rest := by
  have hscan := scan_comment hdata p.isForeign p.lastStartTag rest
  rw [← h.textMode] at hscan
  have hread := Reads.token hscan (by simp; omega)
  have htake : ({ p with textMode := p.textMode } : Builder).takeScanned (.comment data) = b' := by
    rw [takeScanned, take_eq_accept (by simp)]
    · exact h.accept (by simp) hrule
    · simp
    · simp
  rwa [htake] at hread

end Awaits

/-! ## Elements that hold text alone -/

theorem textModeOf_cases (name : String) :
    textModeOf name = .referenceText ∨ textModeOf name = .rawText ∨ textModeOf name = .script := by
  rw [textModeOf]
  split
  · exact .inl rfl
  · split
    · exact .inr (.inr rfl)
    · exact .inr (.inl rfl)

/-- Characters and references are read where references are. -/
theorem scan_references {name : String} (hname : textModeOf name = .referenceText) {cs : List Char}
    (hnull : '\x00' ∉ cs) : ∀ c ∈ cs, ∀ inForeign elementName rest,
      scan (textModeOf name) inForeign elementName (escapeChar c ++ rest) =
        { token := some (.characters [c]), mode := textModeOf name, rest } := by
  intro c hc inForeign elementName rest
  rw [hname]
  obtain ⟨hself, hamp, hlt, -⟩ | ⟨more, hpiece⟩ := escapeChar_eq_self_or_reference c
  · rw [hself]
    exact scan_character (.inl rfl) ⟨hamp, hlt⟩ (ne_of_mem_of_not_mem hc hnull) _ _ _
  · rw [hpiece]
    exact scan_reference hpiece (.inr rfl) _ _ _

/-- Elsewhere the characters are read that are written by themselves. -/
theorem scan_unescaped (name : String) {cs : List Char} (hnull : '\x00' ∉ cs)
    (hself : ∀ c ∈ cs, escapeChar c = [c]) : ∀ c ∈ cs, ∀ inForeign elementName rest,
      scan (textModeOf name) inForeign elementName (escapeChar c ++ rest) =
        { token := some (.characters [c]), mode := textModeOf name, rest } := by
  intro c hc inForeign elementName rest
  obtain ⟨-, hamp, hlt, -⟩ | ⟨more, hpiece⟩ := escapeChar_eq_self_or_reference c
  · rw [hself c hc]
    exact scan_character (textModeOf_cases name) ⟨hamp, hlt⟩ (ne_of_mem_of_not_mem hc hnull) _ _ _
  · rw [hself c hc] at hpiece
    obtain ⟨rfl, rfl⟩ := List.cons.inj hpiece
    cases hself _ hc

section

variable {tag : Tag} {cs rest : List Char} (h : Ready b path)

include h

/-- The text in such an element is read. -/
theorem Ready.reads_content {skips : Bool} (hne : cs ≠ [])
    (hskips : skips = true → cs.head? ≠ some '\n')
    (hscan : ∀ c ∈ cs, ∀ inForeign elementName rest,
      scan (textModeOf tag.name) inForeign elementName (escapeChar c ++ rest) =
        { token := some (.characters [c]), mode := textModeOf tag.name, rest }) :
    Reads (b.textOpened tag skips) (escapeChars cs ++ rest)
      ((b.textOpened tag false).hang { content := .text (String.ofList cs) }) rest := by
  rw [← h.takes_textOpened hne hskips]
  refine reads_characters (fun before after hcs => ?_) hscan rest
  by_cases hbefore : before = []
  · rw [hbefore]
    rfl
  · obtain ⟨first, more, rfl⟩ := List.exists_cons_of_ne_nil hbefore
    subst hcs
    rw [h.takes_textOpened hbefore hskips]
    rfl

/-- Its end tag is read. -/
theorem Ready.reads_textEnd {skips : Bool} {cells : Array Cell} {nodes : List Nat}
    {trees : List (Tree Unit)}
    (hgrown : Grown (b.textOpened tag skips).cells cells b.cells.size nodes trees)
    (htag : SpelledTag tag.name) (hname : LowerLetters tag.name) (hlast : b.lastStartTag = tag.name)
    (hrest : tag.name = "script" → rest.head? ≠ some '\ufeff') (skips' : Bool) :
    ∃ b', Reads { b.textOpened tag skips with cells, skipsLineFeed := skips' }
        (Tree.endTagChars tag.name ++ rest) b' rest ∧
      Gained b b' path [.element () tag.name (attributesOf tag.attributes) trees] ∧
      b'.skipsLineFeed = false := by
  obtain ⟨b', hrule, hgained, hskips⟩ := h.rule_textEnd hgrown tag.name
  refine ⟨b', ?_, hgained, hskips⟩
  let inner : Builder := { b.textOpened tag skips with cells, skipsLineFeed := skips' }
  have hscript : inner.textMode = .script → rest.head? ≠ some '\ufeff' := by
    intro hmode
    refine hrest ?_
    change textModeOf tag.name = .script at hmode
    rw [textModeOf] at hmode
    split at hmode
    · cases hmode
    · split at hmode
      · exact eq_of_beq ‹_›
      · cases hmode
  have hscan : scan inner.textMode inner.isForeign inner.lastStartTag
      (Tree.endTagChars tag.name ++ rest) =
        { token := some (.endTag tag.name), mode := .markup, rest } := by
    rw [show inner.lastStartTag = tag.name from hlast]
    exact scan_closingTag hname htag (textModeOf_cases tag.name) hscript inner.isForeign
  have hread := Reads.token hscan (by simp [Tree.endTagChars]; omega)
  have htake : ({ inner with textMode := .markup } : Builder).takeScanned (.endTag tag.name) = b' := by
    rw [takeScanned, take_eq_accept (by simp)]
    · exact accept_of_rule hrule
    · simp
    · simp
  rwa [htake] at hread

end

end LiveTemplate.Markup.Builder
