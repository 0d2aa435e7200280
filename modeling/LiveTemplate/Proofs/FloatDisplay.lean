import LiveTemplate.Proofs.Binary64.Shortest
import LiveTemplate.Reactive.Value

/-!
# How a document shows a double

The text of a double is a sign and the layout of a decimal: positional from `1e-6` up to `1e21`,
with an exponent elsewhere.  The decimal is the shortest one that is read as the double, with one
exception: an integer from `2 ^ 53` up to `1e21` is shown with all its digits.  Below `2 ^ 53` the
digits of an integer are the shortest ones, because no other integer is read as the same double.
-/

namespace LiveTemplate

namespace Decimal

/-- The decimal is read as the double. -/
def Identifies (d : Decimal) (x : Binary64) : Prop :=
  Binary64.ofDecimal x.isNegative d.digits d.exponent = x

/-- The leading digit stands at one of the places that are shown without an exponent. -/
def IsPositional (d : Decimal) : Prop := -6 ≤ d.leadingExponent ∧ d.leadingExponent < 21

instance (d : Decimal) : Decidable d.IsPositional := inferInstanceAs (Decidable (_ ∧ _))

/-- The layout of a decimal that scripts in a page use.  The point stands `point` places behind the
front of the leading digit; zeros fill the places between it and the digits. -/
def hostText (d : Decimal) : String :=
  let digits := d.digitText
  let point := d.leadingExponent + 1
  if d.IsPositional then
    if digits.length ≤ point then
      String.ofList (digits ++ List.replicate (point - digits.length).toNat '0')
    else if 0 < point then
      String.ofList (digits.take point.toNat) ++ "." ++ String.ofList (digits.drop point.toNat)
    else "0." ++ String.ofList (List.replicate (-point).toNat '0' ++ digits)
  else
    String.ofList (digits.take 1)
      ++ (if digits.length = 1 then "" else "." ++ String.ofList (digits.drop 1))
      ++ "e" ++ (if point - 1 < 0 then "-" else "+") ++ toString (point - 1).natAbs

/-! ## The layouts agree -/

theorem leadingExponent_add_one (d : Decimal) :
    d.leadingExponent + 1 = d.exponent + d.digitText.length := by
  unfold leadingExponent
  ring

theorem hostText_of_positional {d : Decimal} (h : d.IsPositional) : d.hostText = d.positional := by
  unfold hostText positional
  simp only [if_pos h, leadingExponent_add_one]
  have hlength := d.length_digitText_pos
  rcases le_or_gt 0 d.exponent with hexponent | hexponent
  · rw [if_pos (by omega), if_pos hexponent, add_sub_cancel_right]
  · rw [if_neg (by omega), if_neg (not_le.2 hexponent)]
    rcases Nat.lt_or_ge d.exponent.natAbs d.digitText.length with hpoint | hpoint
    · rw [if_pos (by omega), if_neg (by omega),
        show (d.exponent + d.digitText.length).toNat = d.digitText.length - d.exponent.natAbs by
          omega]
    · rw [if_neg (by omega), if_pos hpoint,
        show (-(d.exponent + d.digitText.length)).toNat = d.exponent.natAbs - d.digitText.length by
          omega]

theorem hostText_of_not_positional {d : Decimal} (h : ¬ d.IsPositional) :
    d.hostText = d.scientific := by
  unfold hostText scientific
  simp only [if_neg h, add_sub_cancel_right]
  have hlength := d.length_digitText_pos
  rcases hdigits : d.digitText with _ | ⟨digit, _ | ⟨next, rest⟩⟩
  · simp [hdigits] at hlength
  · simp
  · have hmantissa : String.ofList (digit :: '.' :: next :: rest) =
        String.ofList [digit] ++ ("." ++ String.ofList (next :: rest)) := by
      rw [show "." = String.ofList ['.'] from rfl, ← String.ofList_append, ← String.ofList_append]
      rfl
    simp [hmantissa, String.append_assoc]

/-- Moving trailing zeros of an integer into the exponent does not change its digits with the
zeros. -/
theorem digitText_dropZeros (fuel : Nat) {d : Decimal} (h : 0 ≤ d.exponent) :
    0 ≤ (dropZeros fuel d).exponent ∧
    (dropZeros fuel d).digitText ++ List.replicate (dropZeros fuel d).exponent.toNat '0' =
      d.digitText ++ List.replicate d.exponent.toNat '0' := by
  induction fuel generalizing d with
  | zero => exact ⟨h, rfl⟩
  | succ fuel ih =>
      rw [dropZeros]
      split
      · rename_i hzero
        obtain ⟨hexponent, htext⟩ := ih (d := ⟨d.digits / 10, d.exponent + 1⟩) (by
          show 0 ≤ d.exponent + 1
          omega)
        refine ⟨hexponent, htext.trans ?_⟩
        have hdigits : d.digitText = Nat.toDigits 10 (d.digits / 10) ++ ['0'] := by
          rw [digitText, Nat.toDigits_of_base_le (by norm_num) (by omega), hzero.2]
          rfl
        rw [hdigits, show (d.exponent + 1).toNat = d.exponent.toNat + 1 by omega,
          List.replicate_succ]
        simp [digitText]
      · exact ⟨h, rfl⟩

/-- An integer is laid out with its own digits. -/
theorem hostText_dropZeros {fuel n : Nat} (h : (dropZeros fuel ⟨n, 0⟩).IsPositional) :
    (dropZeros fuel ⟨n, 0⟩).hostText = toString n := by
  obtain ⟨hexponent, htext⟩ := digitText_dropZeros fuel (d := ⟨n, 0⟩) le_rfl
  rw [hostText_of_positional h, positional, if_pos hexponent, htext]
  simp [digitText, toString, Nat.repr]

/-- A layout without point and exponent that does not end in a zero has all its characters from the
digits. -/
theorem digitText_of_hostText {d : Decimal} {cs : List Char} (h : d.hostText = String.ofList cs)
    (hpoint : '.' ∉ cs) (hmark : 'e' ∉ cs) (hlast : cs.getLast? ≠ some '0') : d.digitText = cs := by
  have hlist := congrArg String.toList h
  unfold hostText at hlist
  simp only at hlist
  split_ifs at hlist with hpositional hinteger hfraction hdigit
  · cases hzeros : (d.leadingExponent + 1 - d.digitText.length).toNat with
    | zero => simpa [hzeros] using hlist
    | succ n =>
        rw [hzeros, List.replicate_succ'] at hlist
        simp only [String.toList_ofList] at hlist
        exact absurd (by rw [← hlist, ← List.append_assoc, List.getLast?_concat]) hlast
  all_goals
    simp at hlist
    simp [← hlist] at hpoint hmark

/-- Among equal decimals one without trailing zeros has the fewest digits. -/
theorem digits_le_of_value_eq {d e : Decimal} (hd : d.digits % 10 ≠ 0) (h : d.value = e.value) :
    d.digits ≤ e.digits := by
  unfold value at h
  rcases le_total d.exponent e.exponent with hle | hle
  · obtain ⟨n, hn⟩ := Int.le.dest hle
    rw [← hn, zpow_add₀ (by norm_num), mul_left_comm, mul_comm, zpow_natCast] at h
    have hdigits : d.digits = e.digits * 10 ^ n := by
      exact_mod_cast mul_left_cancel₀ (by positivity) h
    rcases n with _ | n
    · simp [hdigits]
    · rw [hdigits, pow_succ, ← mul_assoc, Nat.mul_mod_left] at hd
      exact absurd rfl hd
  · obtain ⟨n, hn⟩ := Int.le.dest hle
    rw [← hn, zpow_add₀ (by norm_num), mul_left_comm, mul_comm (e.digits : ℚ), zpow_natCast] at h
    have hdigits : d.digits * 10 ^ n = e.digits := by
      exact_mod_cast mul_left_cancel₀ (by positivity) h
    exact hdigits ▸ Nat.le_mul_of_pos_right _ (by positivity)

end Decimal

namespace Binary64

variable {x : Binary64}

theorem identifies_iff {d : Decimal} (h : x.isFinite = true) (hx : x.significand ≠ 0) :
    d.Identifies x ↔ RoundsTo d.value x.magnitudeBits := by
  by_cases hd : d.digits = 0
  · -- No decimal without value is read as a double other than zero.
    constructor
    · intro hread
      have hzero : (zero x.isNegative).isZero = true := by cases x.isNegative <;> decide
      rw [Decimal.Identifies, ofDecimal, hd, Nat.zero_mul, ofRatio, if_pos rfl] at hread
      rw [hread, isZero_iff] at hzero
      exact absurd hzero hx
    · intro hrounds
      have hpos := hrounds.pos (magnitudeBits_ne_zero hx)
      rw [Decimal.value, hd, Nat.cast_zero, zero_mul] at hpos
      exact absurd hpos (lt_irrefl 0)
  · exact ofDecimal_eq_iff h hd

/-- The shortest decimal is positional exactly for the doubles from the one nearest to `1e-6` on
and below `1e21`. -/
theorem isPositional_shortest_iff (hx : x.significand ≠ 0) :
    (x.shortest .away).IsPositional ↔
      (ofDecimal false 1 (-6)).value ≤ |x.value| ∧ |x.value| < 10 ^ 21 := by
  have hvalue (y : Binary64) (hy : y.isNegative = false) : |y.value| = y.value := by
    rw [abs_value, value, if_neg (by simp [hy]), one_mul]
  have hsmall := le_leadingExponent_shortest_iff .away (e := -6) hx
    (y := ofDecimal false 1 (-6)) (by decide +kernel) (by decide +kernel)
  have hlarge := le_leadingExponent_shortest_iff .away (e := 21) hx
    (y := ofDecimal false 1 21) (by decide +kernel) (by decide +kernel)
  have hpower : |(ofDecimal false 1 21).value| = 10 ^ 21 := by
    have hsignificand : (ofDecimal false 1 21).significand = 7629394531250000 := by decide +kernel
    have hexponent : (ofDecimal false 1 21).exponent = 17 := by decide +kernel
    rw [abs_value, hsignificand, hexponent]
    norm_num
  rw [hvalue _ (by decide +kernel)] at hsmall
  rw [hpower] at hlarge
  rw [Decimal.IsPositional, hsmall, ← not_le, hlarge, not_le]

theorem value_millionth_le_one : (ofDecimal false 1 (-6)).value ≤ 1 := by
  have hexponent : (ofDecimal false 1 (-6)).exponent = -72 := by decide +kernel
  have hsize : ((ofDecimal false 1 (-6)).significand : ℚ) < 2 ^ 53 := by
    exact_mod_cast significand_lt _
  refine (le_abs_self _).trans ?_
  rw [abs_value, hexponent, zpow_neg, ← div_eq_mul_inv, div_le_one (by positivity)]
  refine hsize.le.trans ?_
  norm_num

/-! ## Integers -/

theorem abs_value_eq_natMagnitude (h : x.isIntegral = true) : |x.value| = x.natMagnitude := by
  unfold isIntegral at h
  unfold natMagnitude
  simp only [magnitude, Nat.pow_eq, beq_iff_eq] at h ⊢
  obtain ⟨k, hk⟩ := Nat.dvd_of_mod_eq_zero h
  rw [hk, Nat.mul_div_cancel_left _ (by positivity), abs_value, Decimal.zpow_eq_div,
    ← mul_div_assoc, div_eq_iff (by positivity), mul_comm (k : ℚ)]
  exact_mod_cast hk

/-- A double of at least `2 ^ 53` is an integer. -/
theorem isIntegral_of_le (h : 2 ^ 53 ≤ |x.value|) : x.isIntegral = true := by
  have hexponent : 0 ≤ x.exponent := by
    by_contra hneg
    have hunit : (2 : ℚ) ^ x.exponent ≤ 1 := zpow_le_one_of_nonpos₀ (by norm_num) (by omega)
    have hsize : (x.significand : ℚ) < 2 ^ 53 := by exact_mod_cast significand_lt x
    have hle : |x.value| ≤ x.significand := by
      rw [abs_value]
      exact mul_le_of_le_one_right (by positivity) hunit
    linarith
  unfold isIntegral magnitude
  simp [show (-x.exponent).toNat = 0 by omega, Nat.mod_one]

/-- The last binary digit of a double below `2 ^ 53` is not worth more than one. -/
theorem unit_le_one (hsmall : |x.value| < 2 ^ 53) : (2 : ℚ) ^ x.exponent ≤ 1 := by
  obtain ⟨k, -, hexponent, hlow, -⟩ := magnitudeBits_eq x
  refine zpow_le_one_of_nonpos₀ (by norm_num) (not_lt.1 fun hpos => ?_)
  have htwo : (2 : ℚ) ^ (1 : Int) ≤ 2 ^ x.exponent := zpow_le_zpow_right₀ (by norm_num) hpos
  have hsignificand : ((2 ^ 52 : Nat) : ℚ) ≤ x.significand := by
    exact_mod_cast hlow.resolve_right (by omega)
  rw [abs_value] at hsmall
  push_cast at hsignificand
  nlinarith

/-- What rounds to a double below `2 ^ 53` is not further from it than a half. -/
theorem near_of_roundsTo {r : ℚ} (hx : x.significand ≠ 0) (hsmall : |x.value| < 2 ^ 53)
    (hr : RoundsTo r x.magnitudeBits) : |x.value| - 1 / 2 ≤ r ∧ r ≤ |x.value| + 1 / 2 := by
  obtain ⟨p, hp⟩ := Nat.exists_eq_succ_of_ne_zero (magnitudeBits_ne_zero hx)
  obtain ⟨hbelow, habove⟩ := midpoint_magnitudeBits hp hx
  rw [hp] at hr
  have hlower := hr.lower p rfl
  have hupper := hr.upper
  have hunit := unit_le_one hsmall
  have hpos : (0 : ℚ) < 2 ^ x.exponent := by positivity
  have hquarters : (4 * x.significand - 2 : ℚ) ≤ ((if x.hasNarrowGapBelow then
      4 * x.significand - 1 else 4 * x.significand - 2 : Nat) : ℚ) := by
    rw [sub_le_iff_le_add]
    exact_mod_cast (by split <;> omega : 4 * x.significand ≤
      (if x.hasNarrowGapBelow then 4 * x.significand - 1 else 4 * x.significand - 2) + 2)
  have hhalf := mul_le_mul_of_nonneg_right hquarters hpos.le
  rw [hbelow, quarter_unit] at hlower
  rw [Nat.succ_eq_add_one, habove, quarter_unit] at hupper
  push_cast at hupper
  rw [abs_value]
  constructor <;> linarith

/-- The digits of an integer below `2 ^ 53` are not more than those of any decimal that rounds to
it. -/
theorem digits_le_of_roundsTo {d e : Decimal} (hx : x.significand ≠ 0)
    (hintegral : x.isIntegral = true) (hsmall : |x.value| < 2 ^ 53) (hd : d.digits % 10 ≠ 0)
    (hvalue : d.value = |x.value|) (hexponent : 0 ≤ d.exponent)
    (he : RoundsTo e.value x.magnitudeBits) : d.digits ≤ e.digits := by
  obtain ⟨hbelow, habove⟩ := near_of_roundsTo hx hsmall he
  rw [abs_value_eq_natMagnitude hintegral] at hvalue hbelow habove
  generalize x.natMagnitude = n at hvalue hbelow habove
  obtain ⟨i, hi⟩ := Int.eq_ofNat_of_zero_le hexponent
  have hmagnitude : d.digits * 10 ^ i = n := by
    rw [Decimal.value, hi, zpow_natCast] at hvalue
    exact_mod_cast hvalue
  rcases le_or_gt 0 e.exponent with hplaces | hplaces
  · -- Two integers that near to each other are the same.
    obtain ⟨j, hj⟩ := Int.eq_ofNat_of_zero_le hplaces
    have hother : e.value = ((e.digits * 10 ^ j : Nat) : ℚ) := by
      rw [Decimal.value, hj, zpow_natCast]
      push_cast
      rfl
    refine Decimal.digits_le_of_value_eq hd ?_
    rw [hother] at hbelow habove ⊢
    rw [hvalue, Nat.cast_inj]
    have hlt : ((e.digits * 10 ^ j : Nat) : ℚ) < (n + 1 : Nat) := by push_cast at *; linarith
    have hgt : (n : ℚ) < (e.digits * 10 ^ j + 1 : Nat) := by push_cast at *; linarith
    have := Nat.cast_lt.1 hlt
    have := Nat.cast_lt.1 hgt
    omega
  · -- A digit behind the point makes the digits ten times as large as the number.
    have hten : (10 : ℚ) ^ e.exponent ≤ 10 ^ (-1 : Int) :=
      zpow_le_zpow_right₀ (by norm_num) (by omega)
    have hdigits : e.value * 10 ≤ e.digits := by
      rw [Decimal.value]
      have := mul_le_mul_of_nonneg_left hten (Nat.cast_nonneg (α := ℚ) e.digits)
      norm_num at this
      linarith
    have hle : d.digits ≤ n := hmagnitude ▸ Nat.le_mul_of_pos_right _ (by positivity)
    have hpositive : (1 : ℚ) ≤ d.digits := by exact_mod_cast (by omega : 1 ≤ d.digits)
    have hle' : (d.digits : ℚ) ≤ n := by exact_mod_cast hle
    exact_mod_cast (by linarith : (d.digits : ℚ) ≤ e.digits)

/-! ## The decimal that is shown -/

/-- An integer without exponent is shown with all its digits, any other double with the shortest
ones. -/
def shown (x : Binary64) : Decimal :=
  if x.isIntegral = true ∧ (x.shortest .away).IsPositional then
    Decimal.dropZeros 21 ⟨x.natMagnitude, 0⟩
  else x.shortest .away

/-- All digits of an integer, its trailing zeros as an exponent. -/
theorem shown_of_integral (hx : x.significand ≠ 0) (hintegral : x.isIntegral = true)
    (hpositional : (x.shortest .away).IsPositional) :
    x.shown.digits % 10 ≠ 0 ∧ x.shown.value = |x.value| ∧ 0 ≤ x.shown.exponent ∧
      x.shown.IsPositional := by
  have hshown : x.shown = Decimal.dropZeros 21 ⟨x.natMagnitude, 0⟩ :=
    if_pos ⟨hintegral, hpositional⟩
  have hmagnitude := abs_value_eq_natMagnitude hintegral
  have hpos : x.natMagnitude ≠ 0 := by
    intro hzero
    rw [hzero, abs_value, Nat.cast_zero] at hmagnitude
    exact mul_ne_zero (by exact_mod_cast hx) (by positivity) hmagnitude
  have hlarge := ((isPositional_shortest_iff hx).1 hpositional).2
  have hsmall : x.natMagnitude < 10 ^ 21 := by
    rw [hmagnitude] at hlarge
    exact_mod_cast hlarge
  have hmod := Decimal.digits_dropZeros_mod (d := ⟨x.natMagnitude, 0⟩) hpos hsmall
  have hvalue : x.shown.value = |x.value| := by
    rw [hshown, Decimal.value_dropZeros, hmagnitude]
    simp [Decimal.value]
  rw [← hshown] at hmod
  refine ⟨hmod, hvalue, hshown ▸ (Decimal.digitText_dropZeros 21 le_rfl).1, ?_⟩
  have hone : (1 : ℚ) ≤ |x.value| := by
    rw [hmagnitude]
    exact_mod_cast Nat.one_le_iff_ne_zero.2 hpos
  rw [Decimal.IsPositional, ← not_le, Decimal.le_leadingExponent_iff (by omega),
    Decimal.le_leadingExponent_iff (by omega), hvalue]
  constructor
  · refine le_trans ?_ hone
    norm_num
  · exact not_le.2 (by exact_mod_cast hlarge)

/-- The text of a double that is not a zero. -/
theorem displayText_eq (hx : x.significand ≠ 0) :
    x.displayText = x.signText ++ x.shown.hostText := by
  have hzero : x.isZero = false := by rwa [← Bool.not_eq_true, isZero_iff]
  have htest : (21 ≤ (x.shortest .away).leadingExponent ||
      (x.shortest .away).leadingExponent < -6) = true ↔ ¬ (x.shortest .away).IsPositional := by
    rw [Bool.or_eq_true, decide_eq_true_eq, decide_eq_true_eq, Decimal.IsPositional]
    omega
  unfold displayText
  simp only [hzero, htest]
  by_cases hpositional : (x.shortest .away).IsPositional
  · by_cases hintegral : x.isIntegral = true
    · have hshown : x.shown = Decimal.dropZeros 21 ⟨x.natMagnitude, 0⟩ :=
        if_pos ⟨hintegral, hpositional⟩
      obtain ⟨-, -, -, hplaces⟩ := shown_of_integral hx hintegral hpositional
      rw [hshown] at hplaces ⊢
      simp [hpositional, hintegral, Decimal.hostText_dropZeros hplaces]
    · simp [shown, hpositional, hintegral, Decimal.hostText_of_positional]
  · simp [shown, hpositional, Decimal.hostText_of_not_positional]

end Binary64

namespace Value

open Binary64

/-- A finite double is shown as `0`, or as a sign and a decimal that is read as the double.  The
decimal is laid out positionally exactly from `1e-6` up to `1e21`.  No decimal that is read as the
double has fewer digits, unless the double is from `2 ^ 53` up to `1e21`: there all digits of the
integer are shown. -/
theorem display_float (x : Binary64) (h : x.isFinite = true) :
    (x.isZero = true → (number (.float x h)).display = "0") ∧
    (x.isZero = false → ∃ d : Decimal,
      (number (.float x h)).display = x.signText ++ d.hostText ∧
      d.digits % 10 ≠ 0 ∧ d.Identifies x ∧
      (d.IsPositional ↔
        (ofDecimal false 1 (-6)).value ≤ |x.value| ∧ |x.value| < 10 ^ 21) ∧
      (|x.value| < 2 ^ 53 ∨ 10 ^ 21 ≤ |x.value| →
        ∀ e : Decimal, e.Identifies x → d.digitText.length ≤ e.digitText.length) ∧
      (2 ^ 53 ≤ |x.value| → |x.value| < 10 ^ 21 → d.value = |x.value|)) := by
  refine ⟨fun hzero => if_pos hzero, fun hzero => ?_⟩
  have hx : x.significand ≠ 0 := by rwa [← Bool.not_eq_true, isZero_iff] at hzero
  have hrange := isPositional_shortest_iff hx
  refine ⟨x.shown, displayText_eq hx, ?_⟩
  simp only [identifies_iff h hx]
  by_cases hinteger : x.isIntegral = true ∧ (x.shortest .away).IsPositional
  · obtain ⟨hmod, hvalue, hexponent, hplaces⟩ := shown_of_integral hx hinteger.1 hinteger.2
    have hself := roundsTo_abs_value x
    rw [← hvalue] at hself
    refine ⟨hmod, hself, iff_of_true hplaces (hrange.1 hinteger.2), fun hsize e he => ?_,
      fun _ _ => hvalue⟩
    have hsmall := hsize.resolve_right (not_le.2 (hrange.1 hinteger.2).2)
    exact Decimal.length_digitText_mono
      (digits_le_of_roundsTo hx hinteger.1 hsmall hmod hvalue hexponent he)
  · have hshown : x.shown = x.shortest .away := if_neg hinteger
    obtain ⟨hmod, hrounds, hshort⟩ := shortest_spec .away hx
    rw [hshown]
    refine ⟨hmod, hrounds, hrange, fun _ => hshort, fun hlow hhigh => ?_⟩
    -- From `2 ^ 53` up to `1e21` there are integers without exponent only.
    have hpositional : (x.shortest .away).IsPositional := by
      refine hrange.2 ⟨value_millionth_le_one.trans ?_, hhigh⟩
      linarith
    exact absurd ⟨isIntegral_of_le hlow, hpositional⟩ hinteger

/-- A double below one whose digits are shortened. -/
theorem display_float_tenth :
    (number (.float ⟨0x3FB999999999999A⟩ (by decide))).display = "0.1" ∧
    ∃ d : Decimal, (number (.float ⟨0x3FB999999999999A⟩ (by decide))).display = d.hostText ∧
      d.Identifies ⟨0x3FB999999999999A⟩ ∧
      ∀ e : Decimal, e.Identifies ⟨0x3FB999999999999A⟩ →
        d.digitText.length ≤ e.digitText.length := by
  obtain ⟨d, htext, -, hread, -, hshort, -⟩ :=
    (display_float ⟨0x3FB999999999999A⟩ (by decide)).2 (by decide)
  refine ⟨by decide +kernel, d, htext, hread, hshort (.inl ?_)⟩
  have hsize : ((⟨0x3FB999999999999A⟩ : Binary64).significand : ℚ) < 2 ^ 53 := by
    exact_mod_cast significand_lt _
  have hexponent : (⟨0x3FB999999999999A⟩ : Binary64).exponent = -56 := by decide
  have hunit : (2 : ℚ) ^ (-56 : Int) ≤ 1 := zpow_le_one_of_nonpos₀ (by norm_num) (by norm_num)
  rw [abs_value, hexponent]
  exact (mul_le_of_le_one_right (by positivity) hunit).trans_lt hsize

/-- The double `2 ^ 55` is shown with seventeen digits, and a decimal of sixteen digits is read as
it. -/
theorem display_float_not_shortest :
    (number (.float ⟨0x4360000000000000⟩ (by decide))).display = "36028797018963968" ∧
    (⟨3602879701896397, 1⟩ : Decimal).Identifies ⟨0x4360000000000000⟩ ∧
    (⟨3602879701896397, 1⟩ : Decimal).hostText = "36028797018963970" ∧
    ¬ ∃ d : Decimal, (number (.float ⟨0x4360000000000000⟩ (by decide))).display = d.hostText ∧
      ∀ e : Decimal, e.Identifies ⟨0x4360000000000000⟩ →
        d.digitText.length ≤ e.digitText.length := by
  have htext : (number (.float ⟨0x4360000000000000⟩ (by decide))).display =
      String.ofList "36028797018963968".toList := by decide +kernel
  have hread : (⟨3602879701896397, 1⟩ : Decimal).Identifies ⟨0x4360000000000000⟩ := by
    show ofDecimal _ _ _ = _
    decide +kernel
  refine ⟨htext, hread, by decide +kernel, ?_⟩
  rintro ⟨d, hd, hshort⟩
  have hdigits := Decimal.digitText_of_hostText (hd.symm.trans htext) (by decide) (by decide)
    (by decide)
  have hlength := hshort _ hread
  rw [hdigits] at hlength
  exact absurd hlength (by decide +kernel)

end Value

end LiveTemplate
