import LiveTemplate.Markup.Scanner
import LiveTemplate.Proofs.Markup.Escaping

/-!
# Scanning what a serializer writes

The pieces of serialized markup are scanned one by one: references, attributes, tags, comments and
runs of text.  Each lemma gives the token of a piece in front of arbitrary markup, and what is left
is that markup.
-/

namespace LiveTemplate

open Text

namespace Markup

/-! ## Runs -/

/-- A run of characters with a property, in front of a character without it. -/
theorem takeWhile_append_cons {p : Char → Bool} {run rest : List Char} {c : Char}
    (hrun : ∀ d ∈ run, p d = true) (hc : p c = false) :
    (run ++ c :: rest).takeWhile p = run := by
  rw [List.takeWhile_append_of_pos hrun, List.takeWhile_cons_of_neg (by simp [hc]),
    List.append_nil]

/-- What is left behind such a run. -/
theorem dropWhile_append_cons {p : Char → Bool} {run rest : List Char} {c : Char}
    (hrun : ∀ d ∈ run, p d = true) (hc : p c = false) :
    (run ++ c :: rest).dropWhile p = c :: rest := by
  rw [List.dropWhile_append_of_pos hrun, List.dropWhile_cons_of_neg (by simp [hc])]

theorem map_replaceNull {cs : List Char} (h : '\x00' ∉ cs) : cs.map replaceNull = cs := by
  refine (List.map_congr_left fun c hc => ?_).trans (List.map_id cs)
  simp [replaceNull, ne_of_mem_of_not_mem hc h]

/-! ## References -/

theorem named?_of_common {inAttribute : Bool} {name : List Char} {characters : List Char}
    (hname : ∀ c ∈ name, c.isAlphanum = true)
    (hcommon : commonReferences.lookup (String.ofList name) = some characters)
    (rest : List Char) :
    named? inAttribute (name ++ ';' :: rest) = some { characters, rest } := by
  have hend : Char.isAlphanum ';' = false := by decide
  simp only [named?, takeWhile_append_cons hname hend, dropWhile_append_cons hname hend,
    namedReference?, hcommon, Option.map_some]

theorem numeric?_of_hex {digits : List Char} (hdigits : ∀ c ∈ digits, isHexDigit c = true)
    (hne : digits ≠ []) (rest : List Char) :
    numeric? ('x' :: (digits ++ ';' :: rest)) =
      some { characters := [numberedCharacter (hexValue digits)], rest } := by
  have hend : isHexDigit ';' = false := by decide
  simp only [numeric?, takeWhile_append_cons hdigits hend, dropWhile_append_cons hdigits hend,
    List.isEmpty_iff, hne, if_false, Reference.close]

/-- The reference that is written for a character stands for it. -/
theorem reference_of_escapeChar {c : Char} {more : List Char} (h : escapeChar c = '&' :: more)
    (inAttribute : Bool) (rest : List Char) :
    reference inAttribute (more ++ rest) = { characters := [c], rest } := by
  have hnamed (name characters : List Char) (hname : ∀ d ∈ name, d.isAlphanum = true)
      (hcommon : commonReferences.lookup (String.ofList name) = some characters) :
      reference inAttribute (name ++ ';' :: rest) = { characters, rest } := by
    unfold reference
    split
    · rename_i heq
      cases name with
      | nil => simp at heq
      | cons d name =>
          have hd := hname d List.mem_cons_self
          rw [(List.cons.inj heq).1] at hd
          exact absurd hd (by decide)
    · rw [named?_of_common hname hcommon, Option.getD_some]
  have hhex (digits : List Char) (hdigits : ∀ d ∈ digits, isHexDigit d = true)
      (hne : digits ≠ []) :
      reference inAttribute ('#' :: 'x' :: (digits ++ ';' :: rest)) =
        { characters := [numberedCharacter (hexValue digits)], rest } := by
    simp only [reference, numeric?_of_hex hdigits hne, Option.getD_some]
  obtain ⟨hc, hamp, -⟩ | ⟨rfl, hc⟩ | ⟨rfl, hc⟩ | ⟨rfl, hc⟩ | ⟨rfl, hc⟩ | ⟨rfl, hc⟩ | ⟨rfl, hc⟩ :=
    escapeChar_cases c <;> obtain ⟨hfirst, rfl⟩ := List.cons.inj (hc.symm.trans h)
  · exact absurd hfirst hamp
  · exact hnamed ['a', 'm', 'p'] ['&'] (by simp) rfl
  · exact hnamed ['l', 't'] ['<'] (by simp) rfl
  · exact hnamed ['g', 't'] ['>'] (by simp) rfl
  · exact hnamed ['q', 'u', 'o', 't'] ['"'] (by simp) rfl
  · exact hhex ['2', '7'] (by simp [isHexDigit]) (by simp)
  · exact hhex ['2', 'f'] (by simp [isHexDigit]) (by simp)

/-- A character is written as it is, or as a reference. -/
theorem escapeChar_eq_self_or_reference (c : Char) :
    (escapeChar c = [c] ∧ c ≠ '&' ∧ c ≠ '<' ∧ c ≠ '"') ∨
      ∃ more, escapeChar c = '&' :: more := by
  obtain ⟨hc, hamp, hlt, -, hquot, -⟩ | ⟨-, hc⟩ | ⟨-, hc⟩ | ⟨-, hc⟩ | ⟨-, hc⟩ | ⟨-, hc⟩ | ⟨-, hc⟩ :=
    escapeChar_cases c
  · exact .inl ⟨hc, hamp, hlt, hquot⟩
  all_goals exact .inr ⟨_, hc⟩

theorem length_le_length_flatMap {α β : Type} {f : α → List β} (hf : ∀ a, f a ≠ []) (as : List α) :
    as.length ≤ (as.flatMap f).length := by
  induction as with
  | nil => exact Nat.le_refl _
  | cons a as ih =>
      have hpos : 0 < (f a).length := List.length_pos_iff.2 (hf a)
      rw [List.flatMap_cons, List.length_append, List.length_cons]
      omega

theorem length_le_length_escapeChars (cs : List Char) : cs.length ≤ (escapeChars cs).length := by
  refine length_le_length_flatMap (fun c => ?_) cs
  obtain ⟨first, more, hpiece⟩ := exists_escapeChar_eq_cons c
  simp [hpiece]

/-! ## Tags -/

/-- A quoted value is read up to its quotation mark. -/
theorem attributeValue?_escapeChars {cs : List Char} (hnull : '\x00' ∉ cs) {fuel : Nat}
    (hfuel : cs.length < fuel) (value rest : List Char) :
    attributeValue? (.quote '"') fuel value (escapeChars cs ++ '"' :: rest) =
      some (String.ofList (value.reverse ++ cs), '"' :: rest) := by
  induction cs generalizing fuel value with
  | nil =>
      cases fuel with
      | zero => exact absurd hfuel (Nat.not_lt_zero _)
      | succ fuel => simp [escapeChars, attributeValue?, ValueEnd.stops]
  | cons c cs ih =>
      obtain ⟨hc, hcs⟩ : '\x00' ≠ c ∧ '\x00' ∉ cs := by simpa using hnull
      cases fuel with
      | zero => exact absurd hfuel (Nat.not_lt_zero _)
      | succ fuel =>
          have hlater := ih hcs (Nat.lt_of_succ_lt_succ hfuel) (c :: value)
          rw [List.reverse_cons, List.append_assoc, List.singleton_append] at hlater
          rw [escapeChars, List.flatMap_cons, List.append_assoc]
          obtain ⟨hpiece, hamp, -, hquot⟩ | ⟨more, hpiece⟩ := escapeChar_eq_self_or_reference c
          · rw [hpiece, List.singleton_append, attributeValue?, if_neg (by simpa [ValueEnd.stops]),
              if_neg (by simpa), replaceNull, if_neg (by simpa using hc.symm)]
            exact hlater
          · rw [hpiece, List.cons_append, attributeValue?, if_neg (by simp [ValueEnd.stops]),
              if_pos (by simp)]
            simp only [reference_of_escapeChar hpiece]
            exact hlater

/-- A name of an attribute that is read as it is written but for its case: its characters do not
end it. -/
def SpelledName (name : String) : Prop :=
  ∃ c cs, name.toList = c :: cs ∧ isSpace c = false ∧ c ≠ '/' ∧ c ≠ '>' ∧
    (∀ d ∈ cs, endsAttributeName d = false) ∧ '\x00' ∉ c :: cs

/-- An attribute as it is read. -/
def readAttribute (entry : String × String) : String × String := (lower entry.1.toList, entry.2)

/-- A start tag as it is read. -/
def readTag (tag : String) (attributes : List (String × String)) : Tag :=
  ⟨lower tag.toList, attributes.map readAttribute, false⟩

/-- One attribute is read, and the next ones are left. -/
theorem tagRest?_attributeChars {entry : String × String} (hname : SpelledName entry.1)
    (hvalue : '\x00' ∉ entry.2.toList) {fuel : Nat} (attributes : List (String × String))
    (hnew : ∀ other ∈ attributes, other.1 ≠ lower entry.1.toList) (rest : List Char) :
    tagRest? (fuel + 1) attributes (Tree.attributeChars entry ++ rest) =
      tagRest? fuel (attributes ++ [readAttribute entry]) rest := by
  obtain ⟨name, value⟩ := entry
  obtain ⟨c, cs, hchars, hspace, hslash, hclose, hends, hnull⟩ := hname
  have hblank : isSpace ' ' = true := by decide
  have hequals : isSpace '=' = false := by decide
  have hquote : isSpace '"' = false := by decide
  have hrun : ∀ d ∈ cs, (!endsAttributeName d) = true := by simpa using hends
  have hend : (!endsAttributeName '=') = false := by decide
  have hwhole : attributeName (c :: (cs ++ '=' :: '"' :: (escapeChars value.toList ++ '"' :: rest))) =
      (lower name.toList, '=' :: '"' :: (escapeChars value.toList ++ '"' :: rest)) := by
    simp only [attributeName, takeWhile_append_cons hrun hend, dropWhile_append_cons hrun hend,
      map_replaceNull hnull, hchars]
  have hread : attributeValue? (.quote '"') ((escapeChars value.toList ++ '"' :: rest).length + 1) []
      (escapeChars value.toList ++ '"' :: rest) = some (value, '"' :: rest) := by
    have hlength : value.toList.length < (escapeChars value.toList ++ '"' :: rest).length + 1 := by
      have := length_le_length_escapeChars value.toList
      simp only [List.length_append, List.length_cons]
      omega
    simpa using attributeValue?_escapeChars hvalue hlength [] rest
  have hadd : addAttribute attributes (lower name.toList) value =
      attributes ++ [(lower name.toList, value)] := by
    rw [addAttribute, if_neg]
    rw [List.any_eq_true]
    rintro ⟨other, hother, hsame⟩
    exact hnew other hother (by simpa using hsame)
  have hdrop : (' ' :: c :: (cs ++ '=' :: '"' :: (escapeChars value.toList ++ '"' :: rest))).dropWhile
      isSpace = c :: (cs ++ '=' :: '"' :: (escapeChars value.toList ++ '"' :: rest)) := by
    rw [List.dropWhile_cons_of_pos hblank, List.dropWhile_cons_of_neg (by simp [hspace])]
  simp only [Tree.attributeChars, hchars, List.cons_append, List.append_assoc, List.nil_append]
  -- What follows the blank is neither a bracket nor a slash.
  rw [tagRest?, hdrop]
  split
  · rename_i heq
    cases heq
  · rename_i heq
    exact absurd (List.cons.inj heq).1 hclose
  · rename_i heq
    exact absurd (List.cons.inj heq).1 hslash
  · rename_i heq
    exact absurd (List.cons.inj heq).1 hslash
  · simp only [hwhole, List.dropWhile_cons_of_neg (by simp [hequals] : ¬ isSpace '=' = true),
      List.dropWhile_cons_of_neg (by simp [hquote] : ¬ isSpace '"' = true), hread, hadd,
      List.drop_one, List.tail_cons, readAttribute]

/-- Attributes that are read as they are written but for the case of their names. -/
structure SpelledAttributes (attributes : List (String × String)) : Prop where
  names : ∀ entry ∈ attributes, SpelledName entry.1
  values : ∀ entry ∈ attributes, '\x00' ∉ entry.2.toList
  distinct : (attributes.map fun entry => (readAttribute entry).1).Nodup

/-- The attributes of a tag are read up to its closing bracket. -/
theorem tagRest?_attributes {attributes : List (String × String)}
    (h : SpelledAttributes attributes) {fuel : Nat} (hfuel : attributes.length < fuel)
    (before : List (String × String))
    (hbefore : ∀ entry ∈ attributes, ∀ other ∈ before, other.1 ≠ lower entry.1.toList)
    (rest : List Char) :
    tagRest? fuel before (attributes.flatMap Tree.attributeChars ++ '>' :: rest) =
      some (before ++ attributes.map readAttribute, false, rest) := by
  induction attributes generalizing fuel before with
  | nil =>
      cases fuel with
      | zero => exact absurd hfuel (Nat.not_lt_zero _)
      | succ fuel =>
          have hclose : isSpace '>' = false := by decide
          simp only [List.flatMap_nil, List.nil_append, tagRest?,
            List.dropWhile_cons_of_neg (by simp [hclose] : ¬ isSpace '>' = true), List.map_nil,
            List.append_nil]
  | cons entry attributes ih =>
      obtain ⟨hfirst, hnames⟩ := List.forall_mem_cons.1 h.names
      obtain ⟨hvalue, hvalues⟩ := List.forall_mem_cons.1 h.values
      obtain ⟨hfresh, hdistinct⟩ := List.nodup_cons.1 h.distinct
      cases fuel with
      | zero => exact absurd hfuel (Nat.not_lt_zero _)
      | succ fuel =>
          rw [List.flatMap_cons, List.append_assoc,
            tagRest?_attributeChars hfirst hvalue before
              (hbefore entry List.mem_cons_self),
            ih ⟨hnames, hvalues, hdistinct⟩ (by simpa using hfuel), List.append_assoc,
            List.singleton_append, List.map_cons]
          intro later hlater other hother
          rcases List.mem_append.1 hother with hother | hother
          · exact hbefore later (List.mem_cons_of_mem _ hlater) other hother
          · obtain rfl := List.mem_singleton.1 hother
            exact fun hsame => hfresh (List.mem_map.2 ⟨later, hlater, hsame.symm⟩)

/-- A tag that is read as it is written but for its case: a letter, and no character that ends
it. -/
def SpelledTag (tag : String) : Prop :=
  ∃ c cs, tag.toList = c :: cs ∧ c.isAlpha = true ∧
    ∀ d ∈ c :: cs, endsTagName d = false ∧ d ≠ '\x00'

/-- A start tag without its bracket is read. -/
theorem tag?_attributes {tag : String} (htag : SpelledTag tag)
    {attributes : List (String × String)} (h : SpelledAttributes attributes) (rest : List Char) :
    tag? (tag.toList ++ (attributes.flatMap Tree.attributeChars ++ '>' :: rest)) =
      some (readTag tag attributes, rest) := by
  obtain ⟨c, cs, hchars, -, hends⟩ := htag
  have hrun : ∀ d ∈ tag.toList, (!endsTagName d) = true := by
    rw [hchars]
    exact fun d hd => by simp [(hends d hd).1]
  have hnull : '\x00' ∉ tag.toList := by
    rw [hchars]
    exact fun hd => (hends _ hd).2 rfl
  have hlength : attributes.length <
      (attributes.flatMap Tree.attributeChars ++ '>' :: rest).length + 1 := by
    have hle := length_le_length_flatMap (f := Tree.attributeChars)
      (fun entry => by simp [Tree.attributeChars]) attributes
    rw [List.length_append]
    omega
  have hread := tagRest?_attributes h hlength [] (by simp) rest
  -- A blank or the closing bracket ends the name.
  obtain ⟨d, more, hbehind, hd⟩ : ∃ d more,
      attributes.flatMap Tree.attributeChars ++ '>' :: rest = d :: more ∧
        (!endsTagName d) = false := by
    cases attributes with
    | nil => exact ⟨'>', rest, rfl, by decide⟩
    | cons entry attributes => exact ⟨' ', _, rfl, by decide⟩
  rw [hbehind] at hread ⊢
  simp only [tag?, takeWhile_append_cons hrun hd, dropWhile_append_cons hrun hd, hread,
    map_replaceNull hnull, Option.map_some, List.nil_append, readTag]

theorem SpelledTag.exists_cons {tag : String} (h : SpelledTag tag) :
    ∃ c cs, tag.toList = c :: cs ∧ c.isAlpha = true :=
  let ⟨c, cs, hchars, halpha, _⟩ := h
  ⟨c, cs, hchars, halpha⟩

/-- Letters are no marks. -/
theorem ne_of_isAlpha {c d : Char} (hc : c.isAlpha = true) (hd : d.isAlpha = false) : c ≠ d := by
  rintro rfl
  simp [hc] at hd

theorem tagOpen_of_letter {c : Char} (hc : c.isAlpha = true) {cs rest : List Char} {tag : Tag}
    (htag : tag? (c :: cs) = some (tag, rest)) (inForeign : Bool) :
    tagOpen inForeign (c :: cs) = (some (.startTag tag), rest) := by
  have hletter {d : Char} (hd : d.isAlpha = false) : c ≠ d := ne_of_isAlpha hc hd
  unfold tagOpen
  split
  · rename_i heq
    exact absurd (List.cons.inj heq).1 (hletter (by decide))
  · rename_i heq
    exact absurd (List.cons.inj heq).1 (hletter (by decide))
  · rename_i heq
    exact absurd (List.cons.inj heq).1 (hletter (by decide))
  · rename_i heq
    exact absurd (List.cons.inj heq).1 (hletter (by decide))
  · rename_i heq
    exact absurd (List.cons.inj heq).1 (hletter (by decide))
  · rename_i heq
    obtain ⟨rfl, rfl⟩ := List.cons.inj heq
    rw [if_pos hc, htag]
  · rename_i heq
    cases heq

theorem tagOpen_of_slash_letter {c : Char} (hc : c.isAlpha = true) {cs rest : List Char} {tag : Tag}
    (htag : tag? (c :: cs) = some (tag, rest)) (inForeign : Bool) :
    tagOpen inForeign ('/' :: c :: cs) = (some (.endTag tag.name), rest) := by
  have hclose : c ≠ '>' := ne_of_isAlpha hc (by decide)
  simp only [tagOpen, hc, if_true, htag]

/-- In markup a mark opens a tag, a comment or text, whichever `tagOpen` finds. -/
theorem scan_mark (inForeign : Bool) (elementName : String) (rest : List Char) :
    scan .markup inForeign elementName ('<' :: rest) =
      { token := (tagOpen inForeign rest).1, mode := .markup, rest := (tagOpen inForeign rest).2 } :=
  rfl

/-- A start tag is scanned. -/
theorem scan_startTagChars {tag : String} (htag : SpelledTag tag)
    {attributes : List (String × String)} (h : SpelledAttributes attributes) (inForeign : Bool)
    (elementName : String) (rest : List Char) :
    scan .markup inForeign elementName (Tree.startTagChars tag attributes ++ rest) =
      { token := some (.startTag (readTag tag attributes)), mode := .markup, rest } := by
  have hread := tag?_attributes htag h rest
  obtain ⟨c, cs, hchars, halpha⟩ := htag.exists_cons
  have hwhole : Tree.startTagChars tag attributes ++ rest = '<' ::
      (tag.toList ++ (attributes.flatMap Tree.attributeChars ++ '>' :: rest)) := by
    simp [Tree.startTagChars]
  rw [hchars, List.cons_append] at hread
  rw [hwhole, hchars, List.cons_append, scan_mark, tagOpen_of_letter halpha hread]

theorem tag?_name {tag : String} (htag : SpelledTag tag) (rest : List Char) :
    tag? (tag.toList ++ '>' :: rest) = some (⟨lower tag.toList, [], false⟩, rest) := by
  have hnone : SpelledAttributes [] := ⟨by simp, by simp, by simp⟩
  simpa [readTag] using tag?_attributes htag hnone rest

/-- An end tag is scanned. -/
theorem scan_endTagChars {tag : String} (htag : SpelledTag tag) (inForeign : Bool)
    (elementName : String) (rest : List Char) :
    scan .markup inForeign elementName (Tree.endTagChars tag ++ rest) =
      { token := some (.endTag (lower tag.toList)), mode := .markup, rest } := by
  have hread := tag?_name htag rest
  obtain ⟨c, cs, hchars, halpha⟩ := htag.exists_cons
  have hwhole : Tree.endTagChars tag ++ rest = '<' :: '/' :: (tag.toList ++ '>' :: rest) := by
    simp [Tree.endTagChars]
  rw [hchars, List.cons_append] at hread
  rw [hwhole, hchars, List.cons_append, scan_mark, tagOpen_of_slash_letter halpha hread]

/-! ## Comments -/

/-- Where a comment stands behind one more character; nothing where the character ends it. -/
def CommentState.step : CommentState → Char → Option CommentState
  | .start, '>' => none
  | .start, '-' => some .startDash
  | .start, _ => some .inside
  | .startDash, '>' => none
  | .startDash, '-' => some .endDashes
  | .startDash, _ => some .inside
  | .inside, '-' => some .endDash
  | .inside, _ => some .inside
  | .endDash, '-' => some .endDashes
  | .endDash, _ => some .inside
  | .endDashes, '>' => none
  | .endDashes, '!' => some .endBang
  | .endDashes, '-' => some .endDashes
  | .endDashes, _ => some .inside
  | .endBang, '>' => none
  | .endBang, '-' => some .endDash
  | .endBang, _ => some .inside

/-- What was read of a comment and may still belong to its end, last character first. -/
def CommentState.held : CommentState → List Char
  | .start => []
  | .startDash => ['-']
  | .inside => []
  | .endDash => ['-']
  | .endDashes => ['-', '-']
  | .endBang => ['!', '-', '-']

/-- A comment that is read as it is written: nothing in it ends it. -/
def SpelledComment (data : String) : Prop :=
  (data.toList.foldlM CommentState.step .start).isSome = true ∧ '\x00' ∉ data.toList

/-- One character of a comment: it ends the comment, or it is read and some of what was held back is
kept. -/
theorem commentRest_cons (state : CommentState) (data : List Char) (c : Char) (rest : List Char) :
    commentRest state data (c :: rest) =
      match state.step c with
      | some next =>
        commentRest next ((replaceNull c :: (state.held ++ data)).drop next.held.length) rest
      | none => (String.ofList data.reverse, rest) := by
  by_cases hclose : c = '>'
  · subst hclose
    cases state <;> rfl
  by_cases hdash : c = '-'
  · subst hdash
    cases state <;> rfl
  by_cases hbang : c = '!'
  · subst hbang
    cases state <;> rfl
  cases state <;> simp [commentRest, CommentState.step, CommentState.held, *]

/-- Nothing of what was read is lost. -/
theorem CommentState.held_step {state next : CommentState} {c : Char}
    (h : state.step c = some next) (data : List Char) :
    next.held ++ (c :: (state.held ++ data)).drop next.held.length = c :: (state.held ++ data) := by
  have hprefix : next.held <+: c :: state.held := by
    by_cases hdash : c = '-'
    · subst hdash
      cases state <;> cases h <;> decide
    by_cases hbang : c = '!'
    · subst hbang
      cases state <;> cases h <;> decide
    have hinside : next = .inside := by
      by_cases hclose : c = '>'
      · subst hclose
        cases state <;> cases h <;> rfl
      cases state <;> simpa [CommentState.step, *, eq_comm] using h
    simp [hinside, CommentState.held]
  obtain ⟨more, hmore⟩ := hprefix
  rw [← List.cons_append, ← hmore, List.append_assoc, List.drop_left]

/-- A comment is read as long as nothing ends it. -/
theorem commentRest_append {cs : List Char} (hnull : '\x00' ∉ cs) {state last : CommentState}
    (h : cs.foldlM CommentState.step state = some last) (data rest : List Char) :
    ∃ data', commentRest state data (cs ++ rest) = commentRest last data' rest ∧
      last.held ++ data' = cs.reverse ++ (state.held ++ data) := by
  induction cs generalizing state data with
  | nil =>
      obtain rfl := Option.some.inj h
      exact ⟨data, rfl, rfl⟩
  | cons c cs ih =>
      obtain ⟨hc, hcs⟩ : '\x00' ≠ c ∧ '\x00' ∉ cs := by simpa using hnull
      have hsame : replaceNull c = c := by simp [replaceNull, hc.symm]
      rw [List.foldlM_cons, Option.bind_eq_bind, Option.bind_eq_some_iff] at h
      obtain ⟨next, hstep, hlater⟩ := h
      obtain ⟨data', hread, hheld⟩ :=
        ih hcs hlater ((c :: (state.held ++ data)).drop next.held.length)
      refine ⟨data', ?_, ?_⟩
      · rw [List.cons_append, commentRest_cons]
        simp only [hstep, hsame, hread]
      · rw [hheld, state.held_step hstep, List.reverse_cons, List.append_assoc,
          List.singleton_append]

/-- Its end mark ends a comment wherever it stands. -/
theorem commentRest_endMark (state : CommentState) (data rest : List Char) :
    commentRest state data ('-' :: '-' :: '>' :: rest) =
      (String.ofList (state.held ++ data).reverse, rest) := by
  cases state <;> rfl

/-- A comment is scanned. -/
theorem scan_comment {data : String} (h : SpelledComment data) (inForeign : Bool)
    (elementName : String) (rest : List Char) :
    scan .markup inForeign elementName
        (['<', '!', '-', '-'] ++ data.toList ++ ['-', '-', '>'] ++ rest) =
      { token := some (.comment data), mode := .markup, rest } := by
  obtain ⟨last, hlast⟩ := Option.isSome_iff_exists.1 h.1
  obtain ⟨data', hread, hheld⟩ := commentRest_append h.2 hlast [] ('-' :: '-' :: '>' :: rest)
  have hwhole : commentRest .start [] (data.toList ++ '-' :: '-' :: '>' :: rest) = (data, rest) := by
    rw [hread, commentRest_endMark, hheld]
    simp [CommentState.held]
  simp only [List.append_assoc, List.cons_append, List.nil_append, scan_mark, tagOpen, declaration,
    hwhole]

/-! ## Text -/

/-- Text up to the next mark or reference is one token. -/
theorem scan_plain {c : Char} {cs rest : List Char} (hc : c ≠ '&' ∧ c ≠ '<')
    (hcs : ∀ d ∈ cs, d ≠ '&' ∧ d ≠ '<') (hrest : ∀ d ∈ rest.head?, d = '&' ∨ d = '<')
    (inForeign : Bool) (elementName : String) :
    scan .markup inForeign elementName (c :: (cs ++ rest)) =
      { token := some (.characters (c :: cs)), mode := .markup, rest } := by
  have hrun : ∀ d ∈ cs, (d != '&' && d != '<') = true := fun d hd => by simp [hcs d hd]
  have hsplit : (cs ++ rest).takeWhile (fun d => d != '&' && d != '<') = cs ∧
      (cs ++ rest).dropWhile (fun d => d != '&' && d != '<') = rest := by
    cases rest with
    | nil => exact ⟨(List.takeWhile_append_of_pos hrun).trans (List.append_nil cs),
        List.dropWhile_append_of_pos hrun⟩
    | cons d rest =>
        have hd : (d != '&' && d != '<') = false := by
          have := hrest d (by simp)
          grind
        exact ⟨takeWhile_append_cons hrun hd, dropWhile_append_cons hrun hd⟩
  simp [scan, hc, hsplit]

/-- A reference is one token. -/
theorem scan_reference {c : Char} {more : List Char} (h : escapeChar c = '&' :: more)
    {mode : TextMode} (hmode : mode = .markup ∨ mode = .referenceText) (inForeign : Bool)
    (elementName : String) (rest : List Char) :
    scan mode inForeign elementName ('&' :: (more ++ rest)) =
      { token := some (.characters [c]), mode, rest } := by
  have hscan : scan mode inForeign elementName ('&' :: (more ++ rest)) =
      scanReference mode (more ++ rest) := by
    obtain rfl | rfl := hmode <;> rfl
  simp only [hscan, scanReference, reference_of_escapeChar h]

/-- A script is scanned by rules of its own. -/
theorem scan_script (inForeign : Bool) (elementName : String) (c : Char) (rest : List Char) :
    scan .script inForeign elementName (c :: rest) = scanScript .script elementName (c :: rest) := by
  simp only [scan]

/-- Elsewhere every character is a token. -/
theorem scan_character {mode : TextMode}
    (hmode : mode = .referenceText ∨ mode = .rawText ∨ mode = .script) {c : Char}
    (hc : c ≠ '&' ∧ c ≠ '<') (hnull : c ≠ '\x00') (inForeign : Bool) (elementName : String)
    (rest : List Char) :
    scan mode inForeign elementName (c :: rest) =
      { token := some (.characters [c]), mode, rest } := by
  obtain rfl | rfl | rfl := hmode
  · simp [scan, hc, hnull, replaceNull]
  · simp [scan, hc, hnull, replaceNull]
  · simp [scan_script, scanScript, hc, hnull, replaceNull]

/-- A name of letters in lower case. -/
def LowerLetters (name : String) : Prop :=
  lower name.toList = name ∧ ∀ c ∈ name.toList, c.isAlpha = true

/-- In text that is no script the end tag of the element that holds it is taken. -/
theorem scan_endOfText {mode : TextMode} (hmode : mode = .referenceText ∨ mode = .rawText)
    {elementName : String} {rest : List Char} (hend : isEndTagOf elementName rest = true)
    (inForeign : Bool) :
    scan mode inForeign elementName ('<' :: '/' :: rest) = closingTag rest := by
  obtain rfl | rfl := hmode <;> exact if_pos hend

/-- The end tag of an element that holds text alone is scanned. -/
theorem scan_closingTag {name : String} (hname : LowerLetters name) (htag : SpelledTag name)
    {mode : TextMode} (hmode : mode = .referenceText ∨ mode = .rawText ∨ mode = .script)
    {rest : List Char} (hrest : mode = .script → rest.head? ≠ some '\ufeff') (inForeign : Bool) :
    scan mode inForeign name (Tree.endTagChars name ++ rest) =
      { token := some (.endTag name), mode := .markup, rest } := by
  have hread := tag?_name htag rest
  have hclose : Char.isAlpha '>' = false := by decide
  have hends : endsTagName '>' = true := by decide
  have hwhole : Tree.endTagChars name ++ rest = '<' :: '/' :: (name.toList ++ '>' :: rest) := by
    simp [Tree.endTagChars]
  have hend : isEndTagOf name (name.toList ++ '>' :: rest) = true := by
    simp only [isEndTagOf, takeWhile_append_cons hname.2 hclose,
      dropWhile_append_cons hname.2 hclose, hname.1, hends, decide_true, Bool.and_self]
  rw [hwhole]
  obtain rfl | rfl | rfl := hmode
  · simp only [scan_endOfText (.inl rfl) hend, closingTag, hread, hname.1]
  · simp only [scan_endOfText (.inr rfl) hend, closingTag, hread, hname.1]
  · have hmark : dropByteOrderMark rest = rest := by
      unfold dropByteOrderMark
      split
      · exact absurd rfl (hrest rfl)
      · rfl
    simp only [scan_script, scanScript, hend, if_true, closingScript, closingTag, hread, hname.1,
      hmark]

end Markup
end LiveTemplate
