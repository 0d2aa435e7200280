import LiveTemplate.Json.Token
import LiveTemplate.Proofs.Json.Form
import Mathlib.Data.List.Forall2
import Mathlib.Data.List.TakeWhile

/-!
# The tokens of written forms

A text is cut into tokens from the front.  Each token of a form is read in full in front of whatever
follows it, as long as a number does not go on there, and blanks are passed over.  So the tokens of a
form do not depend on its blanks, nor on how its characters are escaped.
-/

namespace LiveTemplate.Json

/-! ## Texts and their tokens -/

/-- A text is cut into the tokens, with any fuel that exceeds its length. -/
def Lexes (cs : List Char) (ts : List Token) : Prop :=
  ∀ fuel, cs.length < fuel → Token.scan fuel cs = ts

theorem Lexes.nil : Lexes [] [] := by
  intro fuel hfuel
  cases fuel with
  | zero => cases hfuel
  | succ fuel => rfl

/-- A token at the front, which starts with no white space. -/
theorem Lexes.token {c : Char} {cs rest : List Char} {t : Token} {ts : List Token}
    (h : Lexes rest ts) (hspace : Token.isSpace c = false)
    (hnext : Token.next? (c :: cs ++ rest) = some (t, rest)) :
    Lexes (c :: cs ++ rest) (t :: ts) := by
  intro fuel hfuel
  cases fuel with
  | zero => cases hfuel
  | succ fuel =>
      have hrest : Token.scan fuel rest = ts := h fuel (by simp at hfuel; omega)
      have hdrop : (c :: cs ++ rest).dropWhile Token.isSpace = c :: cs ++ rest :=
        List.dropWhile_cons_of_neg (by simp [hspace])
      rw [List.cons_append] at hdrop hnext ⊢
      simp only [Token.scan, hdrop, hnext, hrest]

theorem Lexes.tokens_eq {text : String} {ts : List Token} (h : Lexes text.toList ts) :
    tokens text = ts :=
  h _ (by rw [String.length_toList]; exact Nat.lt_succ_self _)

theorem Blank.isSpace (blank : Blank) {c : Char} (hc : c ∈ blank.chars) :
    Token.isSpace c = true := by
  have hmem := blank.blank c hc
  simp only [List.mem_cons, List.not_mem_nil, or_false] at hmem
  rcases hmem with rfl | rfl | rfl | rfl <;> rfl

/-- Blanks at the front. -/
theorem Lexes.blank {cs : List Char} {ts : List Token} (h : Lexes cs ts) (blank : Blank) :
    Lexes (blank.chars ++ cs) ts := by
  intro fuel hfuel
  cases fuel with
  | zero => cases hfuel
  | succ fuel =>
      have hdrop : (blank.chars ++ cs).dropWhile Token.isSpace = cs.dropWhile Token.isSpace :=
        List.dropWhile_append_of_pos fun c hc => blank.isSpace hc
      have hsame : Token.scan (fuel + 1) (blank.chars ++ cs) = Token.scan (fuel + 1) cs := by
        simp only [Token.scan, hdrop]
      exact hsame.trans (h (fuel + 1) (by simp at hfuel; omega))

/-! ## Punctuation -/

/-- The characters that are tokens of their own. -/
inductive Mark
  | openBrace
  | closeBrace
  | openBracket
  | closeBracket
  | comma
  | colon

/-- The character of a mark. -/
def Mark.char : Mark → Char
  | openBrace => '\x7b'
  | closeBrace => '\x7d'
  | openBracket => '['
  | closeBracket => ']'
  | comma => ','
  | colon => ':'

/-- The token of a mark. -/
def Mark.token : Mark → Token
  | openBrace => .openBrace
  | closeBrace => .closeBrace
  | openBracket => .openBracket
  | closeBracket => .closeBracket
  | comma => .comma
  | colon => .colon

theorem Lexes.mark {cs : List Char} {ts : List Token} (h : Lexes cs ts) (mark : Mark) :
    Lexes (mark.char :: cs) (mark.token :: ts) := by
  have hspace : Token.isSpace mark.char = false := by cases mark <;> rfl
  have hnext : Token.next? ([mark.char] ++ cs) = some (mark.token, cs) := by cases mark <;> rfl
  exact h.token hspace hnext

/-! ## Strings -/

theorem HexDigit.hexValue_char (digit : HexDigit) :
    Token.hexValue? digit.char = some digit.value.val := by
  obtain ⟨value, upper⟩ := digit
  revert value upper
  decide

theorem escaped_of_mem {letter c : Char} (h : (letter, c) ∈ shortEscapes) :
    Token.escaped? letter = some c ∧ letter ≠ 'u' := by
  simp only [shortEscapes, List.mem_cons, Prod.mk.injEq, List.not_mem_nil, or_false] at h
  rcases h with ⟨rfl, rfl⟩ | ⟨rfl, rfl⟩ | ⟨rfl, rfl⟩ | ⟨rfl, rfl⟩ | ⟨rfl, rfl⟩ | ⟨rfl, rfl⟩ |
    ⟨rfl, rfl⟩ | ⟨rfl, rfl⟩
  all_goals exact ⟨rfl, by decide⟩

namespace Glyph

/-- The piece that an element is read as. -/
def piece : Glyph → Token.Piece
  | plain c _ => .char c
  | short _ c _ => .char c
  | unit a b c d => .unit (unitOf a b c d)

/-- An element is read in front of whatever follows it. -/
theorem pieces_chars (glyph : Glyph) (cs : List Char) :
    Token.pieces? (glyph.chars ++ cs) =
      (Token.pieces? cs).map fun found => (glyph.piece :: found.1, found.2) := by
  cases glyph with
  | plain c bare =>
      obtain ⟨hquote, hbackslash, hvisible⟩ := bare
      have hstops : (c == '\\' || decide (c.toNat < 0x20)) = false := by
        simp [hbackslash, Nat.not_lt.2 hvisible]
      rw [chars, List.singleton_append, Token.pieces?]
      · rw [if_neg (by simp [hstops])]
        cases Token.pieces? cs <;> rfl
      all_goals simp_all
  | short letter c known =>
      obtain ⟨hmeans, hletter⟩ := escaped_of_mem known
      rw [chars, List.cons_append, List.singleton_append, Token.pieces?, hmeans]
      · cases Token.pieces? cs <;> rfl
      · rintro _ _ _ _ _ rfl -
        exact hletter rfl
  | unit a b c d =>
      rw [chars]
      simp only [List.cons_append, List.nil_append, Token.pieces?, Token.unit?,
        HexDigit.hexValue_char, Option.bind_eq_bind, Option.bind_some]
      cases Token.pieces? cs <;> rfl

/-- A literal is read up to its closing quote. -/
theorem pieces_flatMap (glyphs : List Glyph) (rest : List Char) :
    Token.pieces? (glyphs.flatMap chars ++ '"' :: rest) = some (glyphs.map piece, rest) := by
  induction glyphs with
  | nil => rfl
  | cons glyph glyphs ih =>
      rw [List.flatMap_cons, List.append_assoc, pieces_chars, ih]
      rfl

/-- The token of a literal. -/
def token (glyphs : List Glyph) : Token := .string (Token.contentOf (glyphs.map piece))

theorem next_literal (glyphs : List Glyph) (rest : List Char) :
    Token.next? (literal glyphs ++ rest) = some (token glyphs, rest) := by
  have hchars : literal glyphs ++ rest = '"' :: (glyphs.flatMap chars ++ '"' :: rest) := by
    simp [literal]
  have hnext (cs : List Char) : Token.next? ('"' :: cs) =
      (Token.pieces? cs).map fun found => (.string (Token.contentOf found.1), found.2) := rfl
  rw [hchars, hnext, pieces_flatMap]
  rfl

theorem characters_unit {n : Nat} {c : Char} {pieces : List Token.Piece} {cs : List Char}
    (h : n = c.toNat) (hrest : Token.characters? pieces = some cs) :
    Token.characters? (.unit n :: pieces) = some (c :: cs) := by
  -- The number of a character is no half of a surrogate pair.
  have hvalid : c.toNat < 0xD800 ∨ 0xDFFF < c.toNat := c.valid.imp_right And.left
  have hlead : Token.isLeadUnit n = false := by
    simp only [Token.isLeadUnit, Bool.and_eq_false_iff, decide_eq_false_iff_not]
    omega
  have htrail : Token.isTrailUnit n = false := by
    simp only [Token.isTrailUnit, Bool.and_eq_false_iff, decide_eq_false_iff_not]
    omega
  have hchar : Char.ofNat n = c := by rw [h, Char.ofNat_toNat]
  rcases pieces with _ | ⟨next | trail, later⟩
  · rw [Token.characters?, hlead, htrail, hrest, hchar]
    · rfl
    · exact nofun
  · rw [Token.characters?, hlead, htrail, hrest, hchar]
    · rfl
    · exact nofun
  · rw [Token.characters?, hlead, htrail, hrest, hchar]
    rfl

theorem characters_pair {high low : Nat} {c : Char} {pieces : List Token.Piece} {cs : List Char}
    (hhigh : high < 0x400) (hlow : low < 0x400) (h : c.toNat = 0x10000 + high * 0x400 + low)
    (hrest : Token.characters? pieces = some cs) :
    Token.characters? (.unit (0xD800 + high) :: .unit (0xDC00 + low) :: pieces) =
      some (c :: cs) := by
  have hlead : Token.isLeadUnit (0xD800 + high) = true := by
    simp only [Token.isLeadUnit, Bool.and_eq_true, decide_eq_true_eq]
    omega
  have htrail : Token.isTrailUnit (0xDC00 + low) = true := by
    simp only [Token.isTrailUnit, Bool.and_eq_true, decide_eq_true_eq]
    omega
  have hchar : (0xD800 + high - 0xD800) * 0x400 + (0xDC00 + low - 0xDC00) + 0x10000 = c.toNat := by
    omega
  rw [Token.characters?, if_pos hlead, if_pos htrail, hrest, hchar, Char.ofNat_toNat]
  rfl

/-- A literal has the characters that it stands for as its content. -/
theorem Spells.characters_eq {glyphs : List Glyph} {cs : List Char} (h : Spells glyphs cs) :
    Token.characters? (glyphs.map piece) = some cs := by
  induction h with
  | nil => rfl
  | plain hrest ih =>
      rw [List.map_cons, piece, Token.characters?, ih]
      rfl
  | short hrest ih =>
      rw [List.map_cons, piece, Token.characters?, ih]
      rfl
  | unit hunit hrest ih => exact characters_unit hunit ih
  | pair hlead htrail hhigh hlow hchar hrest ih =>
      rw [List.map_cons, List.map_cons, piece, piece, hlead, htrail]
      exact characters_pair hhigh hlow hchar ih

theorem Spells.token_eq {glyphs : List Glyph} {s : String} (h : Spells glyphs s.toList) :
    token glyphs = .string (some s) := by
  rw [token, Token.contentOf, h.characters_eq, Option.map_some, String.ofList_toList]

end Glyph

/-! ## Numbers -/

/-- No digit follows. -/
def NoDigit (cs : List Char) : Prop := ∀ c ∈ cs.head?, c.isDigit = false

/-- A number ends here. -/
def EndsNumber (cs : List Char) : Prop :=
  NoDigit cs ∧ ∀ c ∈ cs.head?, c ≠ '.' ∧ c ≠ 'e' ∧ c ≠ 'E'

/-- Digits are read up to what is none. -/
theorem digits_append {ds rest : List Char} (hdigits : ∀ c ∈ ds, c.isDigit = true)
    (hrest : NoDigit rest) :
    Token.digits (ds ++ rest) = (ds.map Token.digitValue, rest) := by
  have hstop (p : List Char × List Char)
      (hp : p = (rest.takeWhile Char.isDigit, rest.dropWhile Char.isDigit)) : p = ([], rest) := by
    cases rest with
    | nil => exact hp
    | cons c rest =>
        have hc : c.isDigit = false := hrest c rfl
        rw [hp, List.takeWhile_cons_of_neg (by simp [hc]), List.dropWhile_cons_of_neg (by simp [hc])]
  have hpair := hstop _ rfl
  rw [Prod.mk.injEq] at hpair
  rw [Token.digits, List.takeWhile_append_of_pos hdigits, List.dropWhile_append_of_pos hdigits,
    hpair.1, hpair.2, List.append_nil]

theorem digits?_append {ds rest : List Char} (hne : ds ≠ [])
    (hdigits : ∀ c ∈ ds, c.isDigit = true) (hrest : NoDigit rest) :
    Token.digits? (ds ++ rest) = some (ds.map Token.digitValue, rest) := by
  rw [Token.digits?, digits_append hdigits hrest]
  cases ds with
  | nil => exact absurd rfl hne
  | cons c ds => rfl

theorem digitValue_digitChar {n : Nat} (h : n < 10) :
    Token.digitValue (Nat.digitChar n) = n :=
  Nat.toNat_digitChar_sub_48_of_lt_ten h

/-- Only zero is written with a zero in front. -/
theorem toDigits_eq_cons {n : Nat} {c : Char} {ds : List Char} (h : Nat.toDigits 10 n = c :: ds)
    (hzero : Token.digitValue c = 0) : ds = [] := by
  induction n using Nat.strong_induction_on generalizing ds with
  | _ n ih =>
      rcases Nat.lt_or_ge n 10 with hlt | hge
      · rw [Nat.toDigits_of_lt_base hlt] at h
        exact (List.cons.inj h).2.symm
      · rw [Nat.toDigits_of_base_le (by decide) hge] at h
        obtain ⟨first, others, hfront⟩ := List.exists_cons_of_ne_nil
          (Nat.toDigits_ne_nil (n := n / 10) (b := 10))
        rw [hfront, List.cons_append] at h
        obtain ⟨rfl, -⟩ := List.cons.inj h
        have hnil : others = [] := ih (n / 10) (by omega) hfront
        -- A number with more than one digit does not start with zero.
        rw [hnil] at hfront
        have hvalue := Nat.ofDigitChars_ten_toDigits (n := n / 10)
        rw [hfront] at hvalue
        simp only [Nat.ofDigitChars_cons, Nat.ofDigitChars_nil] at hvalue
        have hdigit : first.toNat - '0'.toNat = 0 := hzero
        omega

/-- The whole part of a number is read in full. -/
theorem whole_toDigits (n : Nat) {rest : List Char} (hrest : NoDigit rest) :
    Token.whole? (Nat.toDigits 10 n ++ rest) =
      some ((Nat.toDigits 10 n).map Token.digitValue, rest) := by
  have hdigits : ∀ c ∈ Nat.toDigits 10 n, c.isDigit = true := fun c hc =>
    Nat.isDigit_of_mem_toDigits (by decide) (by decide) hc
  rw [Token.whole?, digits?_append Nat.toDigits_ne_nil hdigits hrest]
  split
  · next hzero =>
      obtain ⟨hvalues, -⟩ := Prod.mk.inj (Option.some.inj hzero)
      obtain ⟨c, ds, hchars, hc, hds⟩ := List.map_eq_cons_iff.1 hvalues
      rw [toDigits_eq_cons hchars hc] at hds
      cases hds
  · rfl

namespace Digits

/-- The values of the digits. -/
def values (digits : Digits) : List Nat := (digits.first :: digits.rest).map Fin.val

theorem isDigit {digits : Digits} {c : Char} (hc : c ∈ digits.chars) : c.isDigit = true := by
  obtain ⟨digit, -, rfl⟩ := List.mem_map.1 hc
  exact Nat.isDigit_digitChar.trans (decide_eq_true digit.isLt)

theorem map_digitValue (digits : Digits) :
    digits.chars.map Token.digitValue = digits.values := by
  rw [chars, values, List.map_map]
  exact List.map_congr_left fun digit _ => digitValue_digitChar digit.isLt

theorem digits_chars (digits : Digits) {rest : List Char} (hrest : NoDigit rest) :
    Token.digits? (digits.chars ++ rest) = some (digits.values, rest) := by
  rw [digits?_append (by simp [chars]) (fun _ => isDigit) hrest, map_digitValue]

end Digits

/-- The first of some digits is no sign, no point and no mark. -/
theorem Digits.ne_of_append {digits : Digits} {rest later : List Char} {c : Char}
    (h : digits.chars ++ rest = c :: later) : c.isDigit = true := by
  obtain ⟨hfirst, -⟩ := List.cons.inj h
  have hmem : c ∈ digits.chars := hfirst ▸ List.mem_cons_self
  exact isDigit hmem

/-- The exponent as a reader sees it. -/
def Exponent.parts (exponent : Exponent) : Bool × List Nat :=
  (exponent.sign.getD false, exponent.digits.values)

theorem Exponent.exponent_chars (exponent : Exponent) {rest : List Char} (hrest : NoDigit rest) :
    Token.exponent? (exponent.chars ++ rest) = some (some exponent.parts, rest) := by
  obtain ⟨upper, sign, digits⟩ := exponent
  have hread := digits.digits_chars hrest
  have hunsigned : Token.exponentDigits? (digits.chars ++ rest) =
      some ((false, digits.values), rest) := by
    rw [Token.exponentDigits?, hread]
    · rfl
    · exact fun later hplus => absurd (Digits.ne_of_append hplus) (by decide)
    · exact fun later hminus => absurd (Digits.ne_of_append hminus) (by decide)
  have hmarked (cs : List Char) (found : (Bool × List Nat) × List Char)
      (h : Token.exponentDigits? cs = some found) :
      Token.exponent? ((if upper then 'E' else 'e') :: cs) = some (some found.1, found.2) := by
    cases upper <;> simp [Token.exponent?, h]
  rcases sign with _ | _ | _
  · exact hmarked _ _ hunsigned
  · exact hmarked ('+' :: digits.chars ++ rest) ((false, digits.values), rest) (by
      rw [List.cons_append, Token.exponentDigits?, hread]
      rfl)
  · exact hmarked ('-' :: digits.chars ++ rest) ((true, digits.values), rest) (by
      rw [List.cons_append, Token.exponentDigits?, hread]
      rfl)

namespace Figure

/-- The number as a reader sees it. -/
def numeral (figure : Figure) : Numeral where
  negative := figure.negative
  whole := (Nat.toDigits 10 figure.whole).map Token.digitValue
  fraction := figure.fraction.map Digits.values
  exponent := figure.exponent.map Exponent.parts

/-- What follows the whole part and the fraction. -/
def exponentChars (figure : Figure) : List Char := (figure.exponent.map Exponent.chars).getD []

theorem exponent_append (figure : Figure) {rest : List Char} (hrest : EndsNumber rest) :
    Token.exponent? (figure.exponentChars ++ rest) =
      some (figure.exponent.map Exponent.parts, rest) := by
  unfold exponentChars
  cases figure.exponent with
  | some exponent => exact exponent.exponent_chars hrest.1
  | none =>
      rw [Option.map_none, Option.getD_none, List.nil_append, Token.exponent?]
      · rfl
      · rintro later rfl
        exact (hrest.2 'e' rfl).2.1 rfl
      · rintro later rfl
        exact (hrest.2 'E' rfl).2.2 rfl

/-- An exponent starts with neither a digit nor a point. -/
theorem head_exponentChars (figure : Figure) {rest : List Char} (hrest : EndsNumber rest) :
    ∀ c ∈ (figure.exponentChars ++ rest).head?, c.isDigit = false ∧ c ≠ '.' := by
  unfold exponentChars
  cases figure.exponent with
  | some exponent =>
      intro c hc
      obtain ⟨upper, sign, digits⟩ := exponent
      obtain rfl := Option.some.inj hc
      cases upper with
      | false => exact ⟨rfl, (by decide : 'e' ≠ '.')⟩
      | true => exact ⟨rfl, (by decide : 'E' ≠ '.')⟩
  | none => exact fun c hc => ⟨hrest.1 c hc, (hrest.2 c hc).1⟩

theorem fraction_append (figure : Figure) {rest : List Char} (hrest : EndsNumber rest) :
    Token.fraction? ((figure.fraction.map fun digits => '.' :: digits.chars).getD [] ++
        (figure.exponentChars ++ rest)) =
      some (figure.fraction.map Digits.values, figure.exponentChars ++ rest) := by
  have hhead := figure.head_exponentChars hrest
  cases figure.fraction with
  | some digits =>
      have hread := digits.digits_chars fun c hc => (hhead c hc).1
      rw [Option.map_some, Option.getD_some, List.cons_append, Token.fraction?, hread]
      rfl
  | none =>
      rw [Option.map_none, Option.getD_none, List.nil_append, Token.fraction?]
      · rfl
      · intro later hchars
        exact (hhead '.' (by rw [hchars]; rfl)).2 rfl

theorem numeral_magnitudeChars (figure : Figure) {rest : List Char} (hrest : EndsNumber rest) :
    Token.numeral? figure.negative (figure.magnitudeChars ++ rest) =
      some (figure.numeral, rest) := by
  have hbehind : NoDigit ((figure.fraction.map fun digits => '.' :: digits.chars).getD [] ++
      (figure.exponentChars ++ rest)) := by
    cases figure.fraction with
    | some digits =>
        intro c hc
        obtain rfl := Option.some.inj hc
        rfl
    | none => exact fun c hc => (figure.head_exponentChars hrest c hc).1
  have hchars : figure.magnitudeChars ++ rest = Nat.toDigits 10 figure.whole ++
      ((figure.fraction.map fun digits => '.' :: digits.chars).getD [] ++
        (figure.exponentChars ++ rest)) := by
    simp [magnitudeChars, exponentChars]
  rw [Token.numeral?, hchars, whole_toDigits figure.whole hbehind]
  simp only [Option.bind_eq_bind, Option.bind_some, figure.fraction_append hrest,
    figure.exponent_append hrest]
  rfl

/-- A digit at the front starts a number. -/
theorem next_of_isDigit {c : Char} (hc : c.isDigit = true) (rest : List Char) :
    Token.next? (c :: rest) =
      (Token.numeral? false (c :: rest)).map fun found => (.number found.1, found.2) := by
  rw [Token.next?]
  -- Every other token starts with a character that is no digit.
  all_goals
    intro later hchars
    obtain ⟨rfl, -⟩ := List.cons.inj hchars
    exact absurd hc (by decide)

/-- A number without a sign starts with a digit. -/
theorem exists_magnitudeChars_eq_cons (figure : Figure) :
    ∃ c cs, figure.magnitudeChars = c :: cs ∧ c.isDigit = true := by
  obtain ⟨c, ds, hdigits⟩ := List.exists_cons_of_ne_nil
    (Nat.toDigits_ne_nil (n := figure.whole) (b := 10))
  refine ⟨c, _, by rw [magnitudeChars, hdigits]; rfl, ?_⟩
  exact Nat.isDigit_of_mem_toDigits (by decide) (by decide) (hdigits ▸ List.mem_cons_self)

/-- A number is read in full where it ends. -/
theorem next_chars (figure : Figure) {rest : List Char} (hrest : EndsNumber rest) :
    Token.next? (figure.chars ++ rest) = some (.number figure.numeral, rest) := by
  have hread := figure.numeral_magnitudeChars hrest
  unfold chars
  cases hnegative : figure.negative with
  | true =>
      have hnext (cs : List Char) : Token.next? ('-' :: cs) =
          (Token.numeral? true cs).map fun found => (.number found.1, found.2) := rfl
      rw [hnegative] at hread
      rw [if_pos rfl, List.cons_append, hnext, hread]
      rfl
  | false =>
      obtain ⟨c, cs, hchars, hc⟩ := figure.exists_magnitudeChars_eq_cons
      rw [hnegative, hchars] at hread
      rw [if_neg nofun, hchars, List.cons_append, next_of_isDigit hc]
      exact congrArg _ hread

theorem isSpace_of_isDigit {c : Char} (hc : c.isDigit = true) : Token.isSpace c = false := by
  by_contra hspace
  simp only [Token.isSpace, Bool.not_eq_false, Bool.or_eq_true, beq_iff_eq] at hspace
  rcases hspace with ((rfl | rfl) | rfl) | rfl <;> exact absurd hc (by decide)

/-- A number does not start with white space. -/
theorem exists_chars_eq_cons (figure : Figure) :
    ∃ c cs, figure.chars = c :: cs ∧ Token.isSpace c = false := by
  unfold chars
  split
  · exact ⟨_, _, rfl, rfl⟩
  · obtain ⟨c, cs, hchars, hc⟩ := figure.exists_magnitudeChars_eq_cons
    exact ⟨c, cs, hchars, isSpace_of_isDigit hc⟩

end Figure

/-! ## Forms -/

namespace Form

/-- The tokens of a form. -/
def tokens : Form → List Token
  | null => [.null]
  | bool b => [.bool b]
  | number figure => [.number figure.numeral]
  | string glyphs => [Glyph.token glyphs]
  | array _ items => .openBracket :: [.comma].intercalate (itemTokens items) ++ [.closeBracket]
  | object _ members => .openBrace :: [.comma].intercalate (memberTokens members) ++ [.closeBrace]
  | padded _ form _ => form.tokens
where
  /-- The tokens of each item. -/
  itemTokens : List Form → List (List Token)
    | [] => []
    | item :: rest => item.tokens :: itemTokens rest
  /-- The tokens of each member. -/
  memberTokens : List (MemberName × Form) → List (List Token)
    | [] => []
    | (name, value) :: rest => (Glyph.token name.glyphs :: .colon :: value.tokens) :: memberTokens rest

end Form

/-- A text is cut into the tokens in front of whatever does not go on with a number. -/
def ReadsAs (cs : List Char) (ts : List Token) : Prop :=
  ∀ rest later, EndsNumber rest → Lexes rest later → Lexes (cs ++ rest) (ts ++ later)

theorem EndsNumber.nil : EndsNumber [] := ⟨nofun, nofun⟩

theorem EndsNumber.mark (mark : Mark) (cs : List Char) : EndsNumber (mark.char :: cs) := by
  constructor
  · intro c hc
    obtain rfl := Option.some.inj hc
    cases mark <;> rfl
  · intro c hc
    obtain rfl := Option.some.inj hc
    cases mark <;> decide

theorem EndsNumber.blank {cs : List Char} (h : EndsNumber cs) (blank : Blank) :
    EndsNumber (blank.chars ++ cs) := by
  cases hchars : blank.chars with
  | nil => exact h
  | cons space later =>
      have hmem := blank.blank space (hchars ▸ List.mem_cons_self)
      simp only [List.mem_cons, List.not_mem_nil, or_false] at hmem
      constructor
      · intro c hc
        obtain rfl := Option.some.inj hc
        rcases hmem with rfl | rfl | rfl | rfl <;> rfl
      · intro c hc
        obtain rfl := Option.some.inj hc
        rcases hmem with rfl | rfl | rfl | rfl <;> decide

namespace ReadsAs

/-- Texts with commas between them are cut into their tokens with commas between them. -/
theorem intercalate {texts : List (List Char)} {tokens : List (List Token)}
    (h : List.Forall₂ ReadsAs texts tokens) :
    ReadsAs ([','].intercalate texts) ([Token.comma].intercalate tokens) := by
  induction h with
  | nil => exact fun rest later _ hrest => hrest
  | @cons cs ts texts tokens hfirst htail ih =>
      intro rest later hends hrest
      cases htail with
      | nil =>
          rw [List.intercalate_singleton, List.intercalate_singleton]
          exact hfirst rest later hends hrest
      | cons hsecond htail =>
          have hcomma := (ih rest later hends hrest).mark .comma
          have hall := hfirst _ _ (EndsNumber.mark .comma _) hcomma
          rw [List.intercalate_cons_cons, List.intercalate_cons_cons]
          simpa [Mark.char, Mark.token] using hall

theorem padded {cs : List Char} {ts : List Token} (h : ReadsAs cs ts) (before after : Blank) :
    ReadsAs (before.chars ++ cs ++ after.chars) ts := by
  intro rest later hends hrest
  have hall := (h _ _ (hends.blank after) (hrest.blank after)).blank before
  simpa using hall

/-- A text with a mark at either end, and with blanks behind the first one. -/
theorem enclosed {cs : List Char} {ts : List Token} (h : ReadsAs cs ts) (first last : Mark)
    (blank : Blank) :
    ReadsAs (first.char :: blank.chars ++ cs ++ [last.char]) (first.token :: ts ++ [last.token]) := by
  intro rest later _ hrest
  have hclosed := h _ _ (EndsNumber.mark last rest) (hrest.mark last)
  have hall := (hclosed.blank blank).mark first
  simpa using hall

theorem figure (figure : Figure) : ReadsAs figure.chars [.number figure.numeral] := by
  intro rest later hends hrest
  obtain ⟨c, cs, hchars, hspace⟩ := figure.exists_chars_eq_cons
  have hnext := figure.next_chars hends
  rw [hchars] at hnext ⊢
  exact hrest.token hspace hnext

theorem literal (glyphs : List Glyph) : ReadsAs (Glyph.literal glyphs) [Glyph.token glyphs] :=
  fun rest _ _ hrest => hrest.token (c := '"') rfl (Glyph.next_literal glyphs rest)

/-- A member is a name, a colon and a value. -/
theorem member {name : MemberName} {cs : List Char} {ts : List Token} (h : ReadsAs cs ts) :
    ReadsAs (name.chars ++ ':' :: cs) (Glyph.token name.glyphs :: .colon :: ts) := by
  intro rest later hends hrest
  have hvalue := (h _ _ hends hrest).mark .colon
  have hname := (literal name.glyphs).padded name.before name.after
  have hall := hname _ _ (EndsNumber.mark .colon _) hvalue
  rw [MemberName.chars]
  simpa [Mark.char, Mark.token] using hall

end ReadsAs

namespace Form

/-- A form is cut into its tokens. -/
theorem readsAs (form : Form) : ReadsAs form.chars form.tokens := by
  refine tokens.induct
    (fun items => List.Forall₂ ReadsAs (chars.itemChars items) (tokens.itemTokens items))
    (fun form => ReadsAs form.chars form.tokens)
    (fun members =>
      List.Forall₂ ReadsAs (chars.memberChars members) (tokens.memberTokens members))
    ?null ?bool ?number ?string ?array ?object ?padded ?noItems ?items ?noMembers ?members form
  case null => exact fun rest later _ hrest => hrest.token (c := 'n') rfl rfl
  case bool =>
    intro b rest later _ hrest
    cases b with
    | true => exact hrest.token (c := 't') rfl rfl
    | false => exact hrest.token (c := 'f') rfl rfl
  case number => exact .figure
  case string => exact .literal
  case array =>
    exact fun blank items ih => (ReadsAs.intercalate ih).enclosed .openBracket .closeBracket blank
  case object =>
    exact fun blank members ih => (ReadsAs.intercalate ih).enclosed .openBrace .closeBrace blank
  case padded => exact fun before form after ih => ih.padded before after
  case noItems => exact .nil
  case items => exact fun item rest hitem hrest => .cons hitem hrest
  case noMembers => exact .nil
  case members => exact fun name value rest hvalue hrest => .cons hvalue.member hrest

/-- The tokens of a text are those of its form. -/
theorem tokens_text (form : Form) : Json.tokens form.text = form.tokens := by
  have hlexes := form.readsAs [] [] .nil .nil
  rw [List.append_nil, List.append_nil] at hlexes
  refine Lexes.tokens_eq ?_
  rwa [text, String.toList_ofList]

/-- A text that holds null is a single token among blanks. -/
theorem tokens_of_holds_null : (form : Form) → form.Holds .null → form.tokens = [.null]
  | null, _ => rfl
  | padded _ form _, h => form.tokens_of_holds_null h
  | bool _, h | number _, h | string _, h | array _ _, h | object _ _, h => h.elim

/-- A text that holds a string is a single token among blanks. -/
theorem tokens_of_holds_string {s : String} :
    (form : Form) → form.Holds (.string s) → form.tokens = [.string (some s)]
  | string _, h => congrArg (fun t => [t]) h.token_eq
  | padded _ form _, h => form.tokens_of_holds_string h
  | null, h | bool _, h | number _, h | array _ _, h | object _ _, h => h.elim

end Form

end LiveTemplate.Json
