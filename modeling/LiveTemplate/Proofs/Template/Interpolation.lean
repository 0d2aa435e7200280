import LiveTemplate.Template.Interpolation
import Mathlib.Data.List.TakeWhile

/-!
# Where an interpolation stands

Braces can overlap, so a line may have pairs of them at neighbouring places.  The span of a line is
told by two of these places: the first one with opening braces and the last one with closing ones.
A line without a span may hold pairs of both kinds, in the wrong order or on top of each other, and
then the next line is asked.

The lines of a text are what its line feeds part, and no other character ends one.
-/

namespace LiveTemplate

namespace Text

/-- A text without the blanks around it: what was taken off is blank, and what is left neither
begins nor ends with a blank. -/
def Trimmed (cs rest : List Char) : Prop :=
  ∃ front back, cs = front ++ rest ++ back ∧ (∀ c ∈ front ++ back, isBlank c = true) ∧
    (∀ c ∈ rest.head?, isBlank c = false) ∧ ∀ c ∈ rest.getLast?, isBlank c = false

theorem trimmed_trimChars (cs : List Char) : Trimmed cs (trimChars cs) := by
  let kept := cs.dropWhile isBlank
  have hback : kept = trimChars cs ++ (kept.reverse.takeWhile isBlank).reverse := by
    rw [trimChars, ← List.reverse_append, List.takeWhile_append_dropWhile, List.reverse_reverse]
  refine ⟨cs.takeWhile isBlank, (kept.reverse.takeWhile isBlank).reverse, ?_, ?_, ?_, ?_⟩
  · rw [List.append_assoc, ← hback, List.takeWhile_append_dropWhile]
  · intro c hc
    rcases List.mem_append.1 hc with hfront | hback
    · exact List.mem_takeWhile_imp hfront
    · exact List.mem_takeWhile_imp (List.mem_reverse.1 hback)
  · intro c hc
    have hkept : kept.head? = some c := by
      rw [hback, List.head?_append, Option.mem_def.1 hc, Option.some_or]
    have hnot := List.head?_dropWhile_not isBlank cs
    rw [show cs.dropWhile isBlank = kept from rfl, hkept] at hnot
    simpa using hnot
  · intro c hc
    have hnot := List.head?_dropWhile_not isBlank kept.reverse
    rw [trimChars, List.getLast?_reverse] at hc
    rw [show (kept.reverse.dropWhile isBlank).head? = some c from hc] at hnot
    simpa using hnot

theorem trimChars_of_trimmed {cs rest : List Char} (h : Trimmed cs rest) :
    trimChars cs = rest := by
  obtain ⟨front, back, rfl, hblank, hfirst, hlast⟩ := h
  obtain ⟨hfront, hback⟩ := List.forall_mem_append.1 hblank
  have hback' : ∀ c ∈ back.reverse, isBlank c = true := fun c hc => hback c (List.mem_reverse.1 hc)
  rw [trimChars, List.append_assoc, List.dropWhile_append_of_pos hfront]
  cases rest with
  | nil =>
      rw [List.nil_append, List.dropWhile_eq_nil_iff.2 hback]
      rfl
  | cons c rest =>
      have hc : isBlank c = false := hfirst c rfl
      rw [List.cons_append, List.dropWhile_cons_of_neg (by simp [hc]), ← List.cons_append,
        List.reverse_append, List.dropWhile_append_of_pos hback']
      -- Read from its end, what is left begins with the last character.
      rw [← List.head?_reverse] at hlast
      cases hend : (c :: rest).reverse with
      | nil => simp at hend
      | cons d others =>
          have hd : isBlank d = false := hlast d (by rw [hend]; rfl)
          rw [List.dropWhile_cons_of_neg (by simp [hd]), ← hend, List.reverse_reverse]

end Text

namespace Interpolation

/-! ## Pairs of braces in a line -/

/-- A pair of opening braces. -/
def openers : List Char := ['\x7b', '\x7b']

/-- A pair of closing braces. -/
def closers : List Char := ['\x7d', '\x7d']

/-- A pair of braces begins at a place of a line. -/
def At (pair line : List Char) (place : Nat) : Prop := pair <+: line.drop place

instance (pair line : List Char) (place : Nat) : Decidable (At pair line place) :=
  inferInstanceAs (Decidable (_ <+: _))

theorem at_append (pair front back : List Char) : At pair (front ++ pair ++ back) front.length := by
  rw [At, List.append_assoc, List.drop_left]
  exact List.prefix_append pair back

/-- A line has opening braces and, behind them, closing ones. -/
def HasSpan (line : List Char) : Prop :=
  ∃ first last, At openers line first ∧ At closers line last ∧ first + 2 ≤ last

/-- The span of a line: from its first pair of opening braces to its last pair of closing ones. -/
structure IsSpan (line before inner after : List Char) : Prop where
  parts : line = before ++ openers ++ inner ++ closers ++ after
  first : ∀ place, At openers line place → before.length ≤ place
  last : ∀ place, At closers line place → place ≤ before.length + 2 + inner.length

theorem IsSpan.openers_at {line before inner after : List Char}
    (h : IsSpan line before inner after) : At openers line before.length := by
  rw [h.parts, List.append_assoc, List.append_assoc]
  exact at_append openers before _

theorem IsSpan.closers_at {line before inner after : List Char}
    (h : IsSpan line before inner after) : At closers line (before.length + 2 + inner.length) := by
  rw [h.parts]
  have hat := at_append closers (before ++ openers ++ inner) after
  rwa [List.length_append, List.length_append] at hat

theorem IsSpan.hasSpan {line before inner after : List Char}
    (h : IsSpan line before inner after) : HasSpan line :=
  ⟨_, _, h.openers_at, h.closers_at, Nat.le_add_right _ _⟩

/-- A line has one span only. -/
theorem IsSpan.unique {line before inner after before' inner' after' : List Char}
    (h : IsSpan line before inner after) (h' : IsSpan line before' inner' after') :
    (before, inner, after) = (before', inner', after') := by
  have hbefore : before.length = before'.length :=
    Nat.le_antisymm (h.first _ h'.openers_at) (h'.first _ h.openers_at)
  have hinner : inner.length = inner'.length := by
    have hle := h'.last _ h.closers_at
    have hge := h.last _ h'.closers_at
    omega
  have hparts := h.parts.symm.trans h'.parts
  simp only [List.append_assoc] at hparts
  obtain ⟨rfl, hbehind⟩ := List.append_inj hparts hbefore
  obtain ⟨rfl, hend⟩ := List.append_inj (List.append_cancel_left hbehind) hinner
  obtain rfl := List.append_cancel_left hend
  rfl

/-! ## The span of a line -/

/-- What is in front of the last pair of closing braces, and what is behind it. -/
structure IsLastClose (cs inner after : List Char) : Prop where
  parts : cs = inner ++ closers ++ after
  last : ∀ place, At closers cs place → place ≤ inner.length

theorem splitLastClose?_eq_none {cs : List Char} (h : splitLastClose? cs = none) (place : Nat) :
    ¬ At closers cs place := by
  fun_induction splitLastClose? cs generalizing place with
  | case1 =>
      rw [At, List.drop_nil]
      exact fun hat => by simpa [closers] using List.prefix_nil.1 hat
  | case2 | case3 => simp at h
  | case4 c rest hrest hnot ih =>
      cases place with
      | succ place => exact ih hrest place
      | zero =>
          rintro ⟨after, hafter⟩
          obtain ⟨rfl, rfl⟩ := List.cons.inj hafter
          exact hnot after rfl rfl

theorem splitLastClose?_eq_some {cs inner after : List Char}
    (h : splitLastClose? cs = some (inner, after)) : IsLastClose cs inner after := by
  fun_induction splitLastClose? cs generalizing inner after with
  | case1 | case4 => simp at h
  | case2 c rest inner' after' hrest ih =>
      obtain ⟨rfl, rfl⟩ := Prod.mk.inj (Option.some.inj h)
      obtain ⟨hparts, hlast⟩ := ih hrest
      refine ⟨by rw [hparts]; rfl, fun place hat => ?_⟩
      cases place with
      | zero => exact Nat.zero_le _
      | succ place => exact Nat.succ_le_succ (hlast place hat)
  | case3 after' hrest ih =>
      obtain ⟨rfl, rfl⟩ := Prod.mk.inj (Option.some.inj h)
      refine ⟨rfl, fun place hat => ?_⟩
      cases place with
      | zero => exact Nat.le_refl _
      | succ place => exact absurd hat (splitLastClose?_eq_none hrest place)

theorem splitLine?_eq_none {line : List Char} (h : splitLine? line = none) : ¬ HasSpan line := by
  rintro ⟨first, last, hopen, hclose, hle⟩
  fun_induction splitLine? line generalizing first last with
  | case1 rest =>
      -- Whatever the opening braces, the closing ones are behind the first pair.
      obtain ⟨last, rfl⟩ : ∃ n, last = n + 2 := ⟨last - 2, by omega⟩
      exact splitLastClose?_eq_none (Option.map_eq_none_iff.1 h) last hclose
  | case2 c rest hnot ih =>
      obtain ⟨last, rfl⟩ : ∃ n, last = n + 1 := ⟨last - 1, by omega⟩
      cases first with
      | succ first => exact ih (Option.map_eq_none_iff.1 h) first last hopen hclose (by omega)
      | zero =>
          obtain ⟨back, hback⟩ := hopen
          obtain ⟨rfl, rfl⟩ := List.cons.inj hback
          exact hnot back rfl rfl
  | case3 =>
      rw [At, List.drop_nil] at hopen
      simpa [openers] using List.prefix_nil.1 hopen

theorem splitLine?_eq_some {line before inner after : List Char}
    (h : splitLine? line = some (before, inner, after)) : IsSpan line before inner after := by
  fun_induction splitLine? line generalizing before inner after with
  | case1 rest =>
      obtain ⟨⟨inner', after'⟩, hclose, hsame⟩ := Option.map_eq_some_iff.1 h
      obtain ⟨rfl, rfl, rfl⟩ : [] = before ∧ inner' = inner ∧ after' = after := by simpa using hsame
      obtain ⟨hparts, hlast⟩ := splitLastClose?_eq_some hclose
      refine ⟨by rw [hparts]; rfl, fun _ _ => Nat.zero_le _, fun place hat => ?_⟩
      rcases place with _ | _ | place
      · exact Nat.zero_le _
      · exact Nat.le_add_right_of_le (Nat.le_succ 1)
      · have hle := hlast place hat
        simp only [List.length_nil]
        omega
  | case2 c rest hnot ih =>
      obtain ⟨⟨before', inner', after'⟩, hrest, hsame⟩ := Option.map_eq_some_iff.1 h
      obtain ⟨rfl, rfl, rfl⟩ : c :: before' = before ∧ inner' = inner ∧ after' = after := by
        simpa using hsame
      obtain ⟨hparts, hfirst, hlast⟩ := ih hrest
      refine ⟨by rw [hparts]; rfl, fun place hat => ?_, fun place hat => ?_⟩
      · cases place with
        | succ place => exact Nat.succ_le_succ (hfirst place hat)
        | zero =>
            obtain ⟨back, hback⟩ := hat
            obtain ⟨rfl, rfl⟩ := List.cons.inj hback
            exact absurd rfl (hnot back rfl)
      · cases place with
        | zero => exact Nat.zero_le _
        | succ place =>
            have hle := hlast place hat
            simp only [List.length_cons]
            omega
  | case3 => simp at h

theorem splitLine?_eq_some_iff {line before inner after : List Char} :
    splitLine? line = some (before, inner, after) ↔ IsSpan line before inner after := by
  refine ⟨splitLine?_eq_some, fun h => ?_⟩
  cases hfound : splitLine? line with
  | none => exact absurd h.hasSpan (splitLine?_eq_none hfound)
  | some parts => exact congrArg some ((splitLine?_eq_some hfound).unique h)

theorem splitLine?_eq_none_iff {line : List Char} : splitLine? line = none ↔ ¬ HasSpan line := by
  refine ⟨splitLine?_eq_none, fun h => ?_⟩
  cases hfound : splitLine? line with
  | none => rfl
  | some parts => exact absurd (splitLine?_eq_some hfound).hasSpan h

/-! ## The first line with a span -/

/-- The lines of a text, which its line feeds part. -/
def lines (cs : List Char) : List (List Char) := cs.splitOn '\n'

theorem flatMap_lines (cs : List Char) : (lines cs).flatMap ('\n' :: ·) = '\n' :: cs := by
  have hjoin (line : List Char) (others : List (List Char)) :
      (line :: others).flatMap ('\n' :: ·) = '\n' :: ['\n'].intercalate (line :: others) := by
    induction others generalizing line with
    | nil => simp
    | cons next others ih =>
        rw [List.flatMap_cons, ih, List.intercalate_cons_cons]
        simp
  obtain ⟨line, others, hlines⟩ := List.exists_cons_of_ne_nil (List.splitOn_ne_nil '\n' cs)
  rw [lines, hlines, hjoin, ← hlines, List.intercalate_splitOn]

/-- Some lines have a span, and the first of them is at a certain place between the others. -/
def IsFirstSpan (lines : List (List Char)) (before inner after : List Char) : Prop :=
  ∃ earlier line later front back, lines = earlier ++ line :: later ∧
    (∀ other ∈ earlier, ¬ HasSpan other) ∧ IsSpan line front inner back ∧
    before = earlier.flatMap (· ++ ['\n']) ++ front ∧ after = back ++ later.flatMap ('\n' :: ·)

/-- The lines in front of the span, the span and what is behind it are the whole text. -/
theorem IsFirstSpan.text_eq {cs before inner after : List Char}
    (h : IsFirstSpan (lines cs) before inner after) :
    cs = before ++ openers ++ inner ++ closers ++ after := by
  obtain ⟨earlier, line, later, front, back, hlines, -, hspan, rfl, rfl⟩ := h
  -- A line feed in front of each line, or behind each of them but the last.
  have hturn (others : List (List Char)) (rest : List Char) :
      others.flatMap ('\n' :: ·) ++ '\n' :: rest = '\n' :: (others.flatMap (· ++ ['\n']) ++ rest) := by
    induction others with
    | nil => rfl
    | cons other others ih => simp [ih]
  have hcs := flatMap_lines cs
  rw [hlines, List.flatMap_append, List.flatMap_cons, List.cons_append, hturn, hspan.parts] at hcs
  rw [← (List.cons.inj hcs).2]
  simp only [List.append_assoc]

/-- The search of a text that has been split into its lines. -/
def splitLines? : List (List Char) → Option (List Char × List Char × List Char)
  | [] => none
  | line :: later =>
    match splitLine? line with
    | some (before, inner, after) => some (before, inner, after ++ later.flatMap ('\n' :: ·))
    | none =>
      (splitLines? later).map fun (before, inner, after) => (line ++ '\n' :: before, inner, after)

theorem splitLines?_eq_none_iff {lines : List (List Char)} :
    splitLines? lines = none ↔ ∀ line ∈ lines, ¬ HasSpan line := by
  induction lines with
  | nil => simp [splitLines?]
  | cons line later ih =>
      rw [List.forall_mem_cons, ← splitLine?_eq_none_iff, splitLines?]
      split
      · next hline => simp [hline]
      · next hline => simp [hline, ih]

theorem splitLines?_eq_some_iff {lines : List (List Char)} {before inner after : List Char} :
    splitLines? lines = some (before, inner, after) ↔ IsFirstSpan lines before inner after := by
  induction lines generalizing before with
  | nil => simp [splitLines?, IsFirstSpan]
  | cons line later ih =>
      rw [splitLines?]
      split
      · next front inner' back hline =>
          have hspan := splitLine?_eq_some_iff.1 hline
          constructor
          · intro h
            obtain ⟨rfl, rfl, rfl⟩ : front = before ∧ inner' = inner ∧
                back ++ later.flatMap ('\n' :: ·) = after := by simpa using h
            exact ⟨[], line, later, front, back, rfl, by simp, hspan, rfl, rfl⟩
          · rintro ⟨_ | ⟨line', earlier⟩, _, _, _, _, hlines, hnone, hspan', rfl, rfl⟩
            · obtain ⟨rfl, rfl⟩ := List.cons.inj hlines
              obtain ⟨rfl, rfl, rfl⟩ := hspan.unique hspan'
              rfl
            · obtain ⟨rfl, -⟩ := List.cons.inj hlines
              exact absurd hspan.hasSpan (hnone line (by simp))
      · next hline =>
          have hno := splitLine?_eq_none_iff.1 hline
          constructor
          · intro h
            obtain ⟨⟨before', inner', after'⟩, hlater, ⟨⟩⟩ := Option.map_eq_some_iff.1 h
            obtain ⟨earlier, line', later', front, back, rfl, hnone, hspan, rfl, rfl⟩ := ih.1 hlater
            exact ⟨line :: earlier, line', later', front, back, rfl,
              List.forall_mem_cons.2 ⟨hno, hnone⟩, hspan, by simp, rfl⟩
          · rintro ⟨_ | ⟨line', earlier⟩, _, _, front, back, hlines, hnone, hspan, rfl, rfl⟩
            · obtain ⟨rfl, rfl⟩ := List.cons.inj hlines
              exact absurd hspan.hasSpan hno
            · obtain ⟨rfl, rfl⟩ := List.cons.inj hlines
              refine Option.map_eq_some_iff.2 ⟨_, ih.2 ⟨earlier, _, _, front, back, rfl,
                (List.forall_mem_cons.1 hnone).2, hspan, rfl, rfl⟩, by simp⟩

/-- With enough fuel the search of a text goes through all its lines. -/
theorem split?_eq_splitLines? {fuel : Nat} {cs : List Char} (hfuel : cs.length < fuel) :
    split? fuel cs = splitLines? (lines cs) := by
  induction fuel generalizing cs with
  | zero => exact absurd hfuel (Nat.not_lt_zero _)
  | succ fuel ih =>
      have hline : '\n' ∉ cs.takeWhile (· != '\n') := fun hmem => by
        simpa using List.mem_takeWhile_imp hmem
      have hcs := List.takeWhile_append_dropWhile (p := (· != '\n')) (l := cs)
      have hstop := List.head?_dropWhile_not (· != '\n') cs
      rw [split?]
      generalize cs.takeWhile (· != '\n') = line at hline hcs ⊢
      generalize cs.dropWhile (· != '\n') = others at hcs hstop ⊢
      subst hcs
      cases others with
      | nil =>
          rw [lines, List.append_nil, List.splitOn_eq_singleton hline, splitLines?]
          cases splitLine? line <;> simp [splitLines?]
      | cons newline others =>
          obtain rfl : newline = '\n' := by simpa using hstop
          have hlater : split? fuel others = splitLines? (lines others) :=
            ih (by simp at hfuel; omega)
          rw [lines, List.splitOn_append_cons_self_of_not_mem hline, ← lines, splitLines?,
            flatMap_lines]
          cases splitLine? line <;> simp [hlater]

/-- An interpolation is found if and only if a line has a span.  It is then the span of the first
such line, with the blanks around its expression taken off, and a value is put in place of the
span and of nothing else. -/
theorem find?_exact (text : String) :
    ((find? text).isSome = true ↔ ∃ line ∈ lines text.toList, HasSpan line) ∧
    ∀ found, find? text = some found ↔
      ∃ inner, IsFirstSpan (lines text.toList) found.before.toList inner found.after.toList ∧
        Text.Trimmed inner found.expression.toList ∧
        text = found.before ++ "\x7b\x7b" ++ String.ofList inner ++ "\x7d\x7d" ++ found.after ∧
        ∀ value, found.render value = found.before ++ value ++ found.after := by
  have hsplit := split?_eq_splitLines? (Nat.lt_succ_self text.toList.length)
  constructor
  · rw [find?, hsplit, Option.isSome_map, ← Option.ne_none_iff_isSome, Ne, splitLines?_eq_none_iff]
    simp
  · intro found
    rw [find?, hsplit, Option.map_eq_some_iff]
    constructor
    · rintro ⟨⟨before, inner, after⟩, hfound, rfl⟩
      have hfirst := splitLines?_eq_some_iff.1 hfound
      refine ⟨inner, by simpa using hfirst, ?_, ?_, fun _ => rfl⟩
      · rw [String.toList_ofList]
        exact Text.trimmed_trimChars inner
      · rw [← String.toList_inj, hfirst.text_eq]
        simp [openers, closers]
    · rintro ⟨inner, hfirst, htrimmed, -, -⟩
      refine ⟨_, splitLines?_eq_some_iff.2 hfirst, ?_⟩
      simp [Text.trimChars_of_trimmed htrimmed]

/-- Opening braces that nothing closes on their line are passed over, and three braces in a row
open the span with the first two of them. -/
example : find? "\x7b\x7ba\n(\x7b\x7b\x7b b \x7d\x7d or \x7b\x7b c\t\x7d\x7d)\nd\x7d\x7d" =
    some ⟨"\x7b b \x7d\x7d or \x7b\x7b c", "\x7b\x7ba\n(", ")\nd\x7d\x7d"⟩ := by
  decide

end Interpolation

end LiveTemplate
