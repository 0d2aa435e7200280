import LiveTemplate.Proofs.Markup.Settled
import Mathlib

/-!
# Names and comments that are scanned can be read back

A name ends at the first mark that ends it, and its characters are read in lower case with null
replaced, which makes no mark of a character that is none.  A comment ends at its first end mark.
So whatever the text is, a tag or a comment that is scanned from it can be written again and is then
read as it is.
-/

namespace LiveTemplate.Markup

/-! ## Characters of names -/

/-- A character of a name as it is read. -/
def lowered (c : Char) : Char := (replaceNull c).toLower

theorem lower_map_replaceNull (cs : List Char) :
    (lower (cs.map replaceNull)).toList = cs.map lowered := by
  simp [lower, lowered]

/-- No other character is read as a mark. -/
theorem eq_of_lowered_eq {c mark : Char} (hmark : mark.isAlpha = false) (hkept : mark ≠ replacement)
    (h : lowered c = mark) : c = mark := by
  by_cases hnull : c = '\x00'
  · subst hnull
    exact absurd h.symm hkept
  have hread : c.toLower = mark := by simpa [lowered, replaceNull, hnull] using h
  -- Lower case makes letters of capital letters and leaves all other characters as they are.
  have hupper : ¬ c.isUpper = true := by
    intro hupper
    rw [← hread, Char.isAlpha_toLower_eq_isAlpha, Char.isAlpha, hupper] at hmark
    cases hmark
  rw [← hread, Char.toLower_eq_of_not_isUpper hupper]

theorem lowered_ne_null (c : Char) : lowered c ≠ '\x00' := fun h => by
  obtain rfl := eq_of_lowered_eq (by decide) (by decide) h
  exact absurd h (by decide)

theorem isAlpha_lowered {c : Char} (h : c.isAlpha = true) : (lowered c).isAlpha = true := by
  have hnull : c ≠ '\x00' := by
    rintro rfl
    exact absurd h (by decide)
  rw [lowered, Char.isAlpha_toLower_eq_isAlpha]
  simp [replaceNull, hnull, h]

theorem lowered_ne {c mark : Char} (hmark : mark.isAlpha = false) (hkept : mark ≠ replacement)
    (h : c ≠ mark) : lowered c ≠ mark :=
  fun hread => h (eq_of_lowered_eq hmark hkept hread)

/-- What holds of a few marks alone does not come to hold of a character by the way it is read. -/
theorem lowered_of_marks {p : Char → Bool} (marks : List Char) (hp : ∀ c, p c = true ↔ c ∈ marks)
    (hmarks : marks.all (fun mark => !mark.isAlpha && mark != replacement) = true) {c : Char}
    (h : p c = false) : p (lowered c) = false := by
  rw [Bool.eq_false_iff, ne_eq, hp] at h ⊢
  intro hread
  have hmark := List.all_eq_true.1 hmarks _ hread
  simp only [Bool.and_eq_true, Bool.not_eq_true', bne_iff_ne] at hmark
  exact h (eq_of_lowered_eq hmark.1 hmark.2 rfl ▸ hread)

theorem isSpace_lowered {c : Char} (h : isSpace c = false) : isSpace (lowered c) = false :=
  lowered_of_marks [' ', '\t', '\n', '\x0c', '\r']
    (fun c => by simp [isSpace, or_assoc]) (by decide) h

theorem endsTagName_lowered {c : Char} (h : endsTagName c = false) :
    endsTagName (lowered c) = false :=
  lowered_of_marks [' ', '\t', '\n', '\x0c', '\r', '/', '>']
    (fun c => by simp [endsTagName, isSpace, or_assoc]) (by decide) h

theorem endsAttributeName_lowered {c : Char} (h : endsAttributeName c = false) :
    endsAttributeName (lowered c) = false :=
  lowered_of_marks [' ', '\t', '\n', '\x0c', '\r', '/', '>', '=']
    (fun c => by simp [endsAttributeName, isSpace, or_assoc]) (by decide) h

/-! ## Tags -/

theorem spelledTag_iff {tag : String} :
    SpelledTag tag ↔ tag.toList.head?.any Char.isAlpha = true ∧
      tag.toList.all (fun d => !endsTagName d && d != '\x00') = true := by
  simp only [List.all_eq_true, Bool.and_eq_true, Bool.not_eq_true', bne_iff_ne]
  unfold SpelledTag
  cases tag.toList with
  | nil => simp
  | cons c cs =>
      refine ⟨?_, fun ⟨halpha, hends⟩ => ⟨c, cs, rfl, halpha, hends⟩⟩
      rintro ⟨_, _, ⟨⟩, halpha, hends⟩
      exact ⟨halpha, hends⟩

theorem spelledName_iff {name : String} :
    SpelledName name ↔
      name.toList.head?.any (fun c => !isSpace c && c != '/' && c != '>') = true ∧
        name.toList.tail.all (fun d => !endsAttributeName d) = true ∧ '\x00' ∉ name.toList := by
  unfold SpelledName
  cases name.toList with
  | nil => simp
  | cons c cs => simp [and_assoc]

instance : DecidablePred SpelledTag := fun _ => decidable_of_iff' _ spelledTag_iff

instance : DecidablePred SpelledName := fun _ => decidable_of_iff' _ spelledName_iff

/-- Names of an element and its attributes that are read as they are written but for their case. -/
structure SpelledElement (name : String) (attributes : List (String × String)) : Prop where
  tag : SpelledTag name
  names : ∀ entry ∈ attributes, SpelledName entry.1

theorem spelledTag_tag? {c : Char} (hc : c.isAlpha = true) (cs : List Char) :
    SpelledTag (lower (((c :: cs).takeWhile fun d => !endsTagName d).map replaceNull)) := by
  have hend : endsTagName c = false := by
    have hne {mark : Char} (hmark : mark.isAlpha = false) : c ≠ mark := ne_of_isAlpha hc hmark
    simp [endsTagName, isSpace, hne]
  rw [List.takeWhile_cons_of_pos (by simpa)]
  refine ⟨lowered c, (cs.takeWhile fun d => !endsTagName d).map lowered, lower_map_replaceNull _,
    isAlpha_lowered hc, ?_⟩
  rw [← List.map_cons, List.forall_mem_map]
  intro d hd
  refine ⟨endsTagName_lowered ?_, lowered_ne_null d⟩
  obtain rfl | hd := List.mem_cons.1 hd
  · exact hend
  · simpa using List.all_eq_true.1 List.all_takeWhile d hd

/-- Where a name starts, a character other than those that end a tag makes one. -/
theorem spelledName_attributeName {c : Char} (hspace : isSpace c = false) (hslash : c ≠ '/')
    (hclose : c ≠ '>') (cs : List Char) : SpelledName (attributeName (c :: cs)).1 := by
  refine ⟨lowered c, (cs.takeWhile fun d => !endsAttributeName d).map lowered,
    lower_map_replaceNull _, isSpace_lowered hspace, lowered_ne (by decide) (by decide) hslash,
    lowered_ne (by decide) (by decide) hclose, ?_, ?_⟩
  · rw [List.forall_mem_map]
    exact fun d hd => endsAttributeName_lowered (by simpa using List.all_eq_true.1 List.all_takeWhile d hd)
  · rw [← List.map_cons, List.mem_map]
    rintro ⟨d, -, hread⟩
    exact lowered_ne_null d hread

theorem spelled_addAttribute {attributes : List (String × String)}
    (h : ∀ entry ∈ attributes, SpelledName entry.1) {name : String} (hname : SpelledName name)
    (value : String) : ∀ entry ∈ addAttribute attributes name value, SpelledName entry.1 := by
  unfold addAttribute
  split
  · exact h
  · rw [List.forall_mem_append]
    exact ⟨h, by simpa using hname⟩

/-- A name is read where the rest of a tag does not end. -/
theorem spelledName_of_dropWhile {cs rest : List Char} {name : String}
    (hmore : cs.dropWhile isSpace ≠ []) (hclose : ∀ rest, cs.dropWhile isSpace ≠ '>' :: rest)
    (hslash : ∀ rest, cs.dropWhile isSpace ≠ '/' :: rest)
    (hname : attributeName (cs.dropWhile isSpace) = (name, rest)) : SpelledName name := by
  have hspace := List.head_dropWhile_not isSpace hmore
  obtain ⟨c, more, hcs⟩ := List.exists_cons_of_ne_nil hmore
  simp only [hcs, List.head_cons] at hname hclose hslash hspace
  have hspelled := spelledName_attributeName hspace (fun h => hslash more (h ▸ rfl))
    (fun h => hclose more (h ▸ rfl)) more
  rwa [hname] at hspelled

theorem spelled_tagRest? {fuel : Nat} {attributes : List (String × String)}
    (h : ∀ entry ∈ attributes, SpelledName entry.1) {cs : List Char}
    {read : List (String × String) × Bool × List Char}
    (hread : tagRest? fuel attributes cs = some read) : ∀ entry ∈ read.1, SpelledName entry.1 := by
  fun_induction tagRest? fuel attributes cs with
  -- The text ends inside the tag.
  | case1 | case2 | case8 | case10 | case12 => cases hread
  | case3 | case4 =>
      cases hread
      exact h
  -- A slash in front of something else is passed over.
  | case5 _ _ _ _ _ _ ih => exact ih h hread
  -- The tag ends where the value of an attribute should stand.
  | case6 _ _ _ _ _ _ _ _ _ hmore hclose _ hslash hname =>
      cases hread
      exact spelled_addAttribute h (spelledName_of_dropWhile hmore hclose hslash hname) _
  -- One more attribute, its value in either quotes, bare or missing.
  | case7 _ _ _ _ _ _ _ _ _ _ _ _ hmore hclose _ hslash hname ih
  | case9 _ _ _ _ _ _ _ _ _ _ _ _ hmore hclose _ hslash hname ih
  | case11 _ _ _ _ _ _ _ _ _ hmore hclose _ hslash hname _ _ _ _ ih
  | case13 _ _ _ _ _ hmore hclose _ hslash hname _ ih =>
      exact ih (spelled_addAttribute h (spelledName_of_dropWhile hmore hclose hslash hname) _) hread

/-- The names of a tag that is scanned. -/
theorem spelled_tag? {c : Char} (hc : c.isAlpha = true) {cs rest : List Char} {tag : Tag}
    (htag : tag? (c :: cs) = some (tag, rest)) : SpelledElement tag.name tag.attributes := by
  simp only [tag?, Option.map_eq_some_iff] at htag
  obtain ⟨read, hread, heq⟩ := htag
  cases heq
  exact ⟨spelledTag_tag? hc cs, spelled_tagRest? (by simp) hread⟩

/-! ## Comments -/

theorem replaceNull_ne {c mark : Char} (hkept : mark ≠ replacement) (h : c ≠ mark) :
    replaceNull c ≠ mark := by
  unfold replaceNull
  split
  · exact hkept.symm
  · exact h

theorem replaceNull_ne_null (c : Char) : replaceNull c ≠ '\x00' := by
  by_cases hc : c = '\x00'
  · subst hc
    decide
  · exact replaceNull_ne (by decide) hc

theorem CommentState.step_replaceNull (state : CommentState) (c : Char) :
    state.step (replaceNull c) = state.step c := by
  by_cases hc : c = '\x00'
  · subst hc
    cases state <;> rfl
  · simp [replaceNull, hc]

/-- Less than what was read of a comment can be read again. -/
theorem spelledComment_reverse {state : CommentState} {data : List Char}
    (hread : (state.held ++ data).reverse.foldlM CommentState.step .start = some state)
    (hnull : '\x00' ∉ state.held ++ data) : SpelledComment (String.ofList data.reverse) := by
  rw [List.reverse_append, List.foldlM_append, Option.bind_eq_bind, Option.bind_eq_some_iff]
    at hread
  obtain ⟨before, hbefore, -⟩ := hread
  exact ⟨by simp [hbefore], by simpa using fun h => hnull (List.mem_append_right _ h)⟩

/-- What is read of a comment up to its end can be read again. -/
theorem spelledComment_commentRest {state : CommentState} {data : List Char}
    (hread : (state.held ++ data).reverse.foldlM CommentState.step .start = some state)
    (hnull : '\x00' ∉ state.held ++ data) (cs : List Char) :
    SpelledComment (commentRest state data cs).1 := by
  induction cs generalizing state data with
  | nil => simpa [commentRest] using spelledComment_reverse hread hnull
  | cons c cs ih =>
      rw [commentRest_cons]
      split
      · rename_i next hstep
        rw [← state.step_replaceNull] at hstep
        have hheld := state.held_step hstep data
        refine ih ?_ ?_
        · rw [hheld, List.reverse_cons, List.foldlM_append, hread]
          simpa using hstep
        · rw [hheld, List.mem_cons, not_or]
          exact ⟨(replaceNull_ne_null c).symm, hnull⟩
      · exact spelledComment_reverse hread hnull

/-- Only a bracket ends a comment. -/
theorem exists_step {c : Char} (hc : c ≠ '>') (state : CommentState) :
    ∃ next, state.step c = some next := by
  by_cases hdash : c = '-'
  · subst hdash
    cases state <;> exact ⟨_, rfl⟩
  by_cases hbang : c = '!'
  · subst hbang
    cases state <;> exact ⟨_, rfl⟩
  cases state <;> exact ⟨.inside, by simp [CommentState.step, *]⟩

theorem isSome_foldlM_step {cs : List Char} (h : '>' ∉ cs) (state : CommentState) :
    (cs.foldlM CommentState.step state).isSome = true := by
  induction cs generalizing state with
  | nil => rfl
  | cons c cs ih =>
      obtain ⟨hc, hcs⟩ : '>' ≠ c ∧ '>' ∉ cs := by simpa using h
      obtain ⟨next, hstep⟩ := exists_step hc.symm state
      rw [List.foldlM_cons, hstep]
      exact ih hcs next

/-! ## Tokens -/

/-- A token whose names and comment are read as they are written. -/
def Token.Spelled : Token → Prop
  | .startTag tag => SpelledElement tag.name tag.attributes
  | .comment data => SpelledComment data
  | _ => True

theorem spelled_bogusComment (cs : List Char) : (bogusComment cs).1.Spelled := by
  have hclose : '>' ∉ (cs.takeWhile (· != '>')).map replaceNull := by
    rw [List.mem_map]
    rintro ⟨c, hc, hread⟩
    have hne : c ≠ '>' := by simpa using List.all_eq_true.1 List.all_takeWhile c hc
    exact replaceNull_ne (by decide) hne hread
  have hnull : '\x00' ∉ (cs.takeWhile (· != '>')).map replaceNull := by
    rw [List.mem_map]
    rintro ⟨c, -, hread⟩
    exact replaceNull_ne_null c hread
  exact ⟨by simpa using isSome_foldlM_step hclose .start, by simpa using hnull⟩

theorem spelled_declaration {inForeign : Bool} {cs : List Char} {token : Token}
    (h : (declaration inForeign cs).1 = some token) : token.Spelled := by
  unfold declaration at h
  split at h
  · cases h
    exact spelledComment_commentRest rfl (by simp [CommentState.held]) _
  · split at h
    · cases h
    split at h
    · cases h
      exact trivial
    · cases h
      exact spelled_bogusComment cs

theorem spelled_tagOpen {inForeign : Bool} {cs : List Char} {token : Token}
    (h : (tagOpen inForeign cs).1 = some token) : token.Spelled := by
  unfold tagOpen at h
  split at h
  · exact spelled_declaration h
  · cases h
    exact spelled_bogusComment _
  · cases h
  · cases h
    exact trivial
  · split at h
    · split at h <;> cases h
      exact trivial
    · cases h
      exact spelled_bogusComment _
  · split at h
    · rename_i halpha
      split at h <;> cases h
      rename_i htag
      exact spelled_tag? halpha htag
    · cases h
      exact trivial
  · cases h
    exact trivial

theorem spelled_closingTag {cs : List Char} {token : Token}
    (h : (closingTag cs).token = some token) : token.Spelled := by
  unfold closingTag at h
  split at h <;> cases h
  exact trivial

/-- A script gives characters up to its end tag. -/
theorem spelled_scanScript {mode : TextMode} {elementName : String} {cs : List Char} {token : Token}
    (h : (scanScript mode elementName cs).token = some token) : token.Spelled := by
  have hcharacters {characters : List Char} (h : some (.characters characters) = some token) :
      token.Spelled := by
    cases h
    exact trivial
  unfold scanScript at h
  split at h
  case h_1 | h_5 =>
    split at h
    · exact spelled_closingTag h
    · exact hcharacters h
  case h_6 | h_10 => split at h <;> exact hcharacters h
  all_goals exact hcharacters h

/-- Whatever is scanned, its names and comments are read as they are written. -/
theorem spelled_scan {mode : TextMode} {inForeign : Bool} {elementName : String} {cs : List Char}
    {token : Token} (h : (scan mode inForeign elementName cs).token = some token) :
    token.Spelled := by
  have hcharacters {characters : List Char} (h : some (.characters characters) = some token) :
      token.Spelled := by
    cases h
    exact trivial
  have hclosing {c : Prop} [Decidable c] {cs : List Char} {other : Scanned}
      (hother : other.token = some token → token.Spelled)
      (h : (if c then closingTag cs else other).token = some token) : token.Spelled := by
    split at h
    · exact spelled_closingTag h
    · exact hother h
  unfold scan at h
  split at h
  · cases h
  · exact hcharacters h
  · exact spelled_tagOpen h
  · exact hcharacters h
  · exact hcharacters h
  · exact hclosing hcharacters h
  · exact hcharacters h
  · exact hclosing hcharacters h
  · exact hcharacters h
  · exact hcharacters h
  · exact spelled_scanScript h

end LiveTemplate.Markup
