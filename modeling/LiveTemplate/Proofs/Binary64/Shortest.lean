import LiveTemplate.Proofs.Binary64.Rounding
import Mathlib.Algebra.Order.Floor.Semifield
import Mathlib.Data.Rat.Floor

/-!
# The shortest decimal is shortest

A decimal of `k` digits near to a double lies on the grid of the `k` leading places of the double,
or below the power of ten of its leading digit, which lies on that grid.  So the first grid with a
point that rounds to the double gives the fewest digits, and the grid of seventeen places always
has one, because its points are closer together than the midpoints around the double.
-/

namespace LiveTemplate

namespace Decimal

theorem length_digitText_le_iff {d : Decimal} {k : Nat} (hk : 0 < k) :
    d.digitText.length ≤ k ↔ d.digits < 10 ^ k :=
  Nat.length_toDigits_le_iff (by norm_num) hk

theorem length_digitText_pos (d : Decimal) : 0 < d.digitText.length := Nat.length_toDigits_pos

theorem length_digitText_mono {d e : Decimal} (h : d.digits ≤ e.digits) :
    d.digitText.length ≤ e.digitText.length :=
  (length_digitText_le_iff e.length_digitText_pos).2
    (h.trans_lt ((length_digitText_le_iff e.length_digitText_pos).1 le_rfl))

/-- The leading digit stands at a power of ten or above exactly when the number reaches the power. -/
theorem le_leadingExponent_iff {d : Decimal} (hd : d.digits ≠ 0) {e : Int} :
    e ≤ d.leadingExponent ↔ 10 ^ e ≤ d.value := by
  obtain ⟨hleading, hnext⟩ := leadingExponent_bounds hd
  constructor
  · exact fun h => (zpow_le_zpow_right₀ (by norm_num) h).trans hleading
  · exact fun h => Int.lt_add_one_iff.1
      ((zpow_lt_zpow_iff_right₀ (by norm_num)).1 (h.trans_lt hnext))

theorem digits_dropZeros_le (fuel : Nat) (d : Decimal) : (dropZeros fuel d).digits ≤ d.digits := by
  induction fuel generalizing d with
  | zero => exact le_rfl
  | succ fuel ih =>
      rw [dropZeros]
      split
      · exact (ih _).trans (Nat.div_le_self _ _)
      · exact le_rfl

/-- With enough fuel all trailing zeros go. -/
theorem digits_dropZeros_mod {fuel : Nat} {d : Decimal} (hd : d.digits ≠ 0)
    (hfuel : d.digits < 10 ^ fuel) : (dropZeros fuel d).digits % 10 ≠ 0 := by
  induction fuel generalizing d with
  | zero => omega
  | succ fuel ih =>
      rw [dropZeros]
      split
      · refine ih ?_ ?_
        · show d.digits / 10 ≠ 0
          omega
        · show d.digits / 10 < 10 ^ fuel
          rw [pow_succ] at hfuel
          omega
      · omega

end Decimal

namespace Binary64

variable {x : Binary64}

/-! ## The place of the leading digit -/

/-- The decimal logarithm of two is near enough to `0.30103` for the exponents of doubles. -/
theorem pow_ten_guess : ∀ n < 1100,
    (10 ^ (n * 30103 / 100000) ≤ 10 * 2 ^ n ∧ 2 ^ (n + 1) ≤ 100 * 10 ^ (n * 30103 / 100000)) ∧
    2 ^ n ≤ 10 * 10 ^ ((n * 30103 + 99999) / 100000) ∧
      2 * 10 ^ ((n * 30103 + 99999) / 100000) ≤ 100 * 2 ^ n := by
  decide +kernel

theorem zpow_ten_guess {n : Int} (hlow : -1100 < n) (hhigh : n < 1100) :
    (10 : ℚ) ^ ((n * 30103).fdiv 100000) ≤ 10 * 2 ^ n ∧
      (2 : ℚ) * 2 ^ n ≤ 100 * 10 ^ ((n * 30103).fdiv 100000) := by
  rw [Int.fdiv_eq_ediv_of_nonneg _ (by norm_num)]
  rcases le_total 0 n with h | h
  · obtain ⟨k, rfl⟩ := Int.eq_ofNat_of_zero_le h
    obtain ⟨⟨hlower, hupper⟩, -⟩ := pow_ten_guess k (by omega)
    rw [show (k : Int) * 30103 / 100000 = ((k * 30103 / 100000 : Nat) : Int) by omega,
      zpow_natCast, zpow_natCast]
    rw [pow_succ] at hupper
    exact ⟨by exact_mod_cast hlower, by rw [mul_comm]; exact_mod_cast hupper⟩
  · obtain ⟨k, hk⟩ := Int.eq_ofNat_of_zero_le (neg_nonneg.2 h)
    obtain rfl : n = -(k : Int) := by omega
    obtain ⟨-, hlower, hupper⟩ := pow_ten_guess k (by omega)
    rw [show -(k : Int) * 30103 / 100000 = -(((k * 30103 + 99999) / 100000 : Nat) : Int) by omega,
      zpow_neg, zpow_neg, zpow_natCast, zpow_natCast, ← div_eq_mul_inv, ← div_eq_mul_inv,
      ← div_eq_mul_inv, inv_le_iff_one_le_mul₀ (by positivity), div_mul_eq_mul_div,
      one_le_div (by positivity), div_le_div_iff₀ (by positivity) (by positivity)]
    exact ⟨by exact_mod_cast hlower, by exact_mod_cast hupper⟩

/-- The scale of a double is the first power of ten above it. -/
theorem decimalScale_bounds (hx : x.significand ≠ 0) :
    (10 : ℚ) ^ (x.decimalScale - 1) ≤ |x.value| ∧ |x.value| < 10 ^ x.decimalScale := by
  have hfield := exponentField_lt x
  have hlog : x.significand.log2 < 53 := (Nat.log2_lt hx).2 (significand_lt x)
  have hexponent : -1074 ≤ x.exponent ∧ x.exponent < 1000 := by
    unfold exponent
    split <;> omega
  obtain ⟨n, hn⟩ : ∃ n, (x.significand.log2 : Int) + x.exponent = n := ⟨_, rfl⟩
  obtain ⟨hlower, hupper⟩ := zpow_ten_guess (n := n) (by omega) (by omega)
  -- The double has as many binary digits as its significand.
  have hbinary : (2 : ℚ) ^ n ≤ |x.value| ∧ |x.value| < 2 * 2 ^ n := by
    have hunit : (0 : ℚ) < 2 ^ x.exponent := by positivity
    have hlow : ((2 ^ x.significand.log2 : Nat) : ℚ) ≤ x.significand := by
      exact_mod_cast Nat.log2_self_le hx
    have hhigh : (x.significand : ℚ) < (2 ^ (x.significand.log2 + 1) : Nat) := by
      exact_mod_cast Nat.lt_log2_self
    push_cast at hlow hhigh
    rw [abs_value, ← hn, zpow_add₀ (by norm_num), zpow_natCast, ← mul_assoc, mul_comm 2, ← pow_succ]
    exact ⟨mul_le_mul_of_nonneg_right hlow hunit.le, mul_lt_mul_of_pos_right hhigh hunit⟩
  have htest (e : Int) :
      (Decimal.compareScaled 1 e x.significand x.exponent == .gt) = true ↔
        |x.value| < 10 ^ e := by
    rw [beq_iff_eq, Decimal.compareScaled_eq, compare_gt_iff_gt, abs_value, Nat.cast_one, one_mul]
  have hten (e : Int) : (10 : ℚ) ^ (e + 1) = 10 ^ e * 10 := zpow_add_one₀ (by norm_num) e
  unfold decimalScale
  simp only [hn, htest]
  generalize (n * 30103).fdiv 100000 = guess at hlower hupper
  split_ifs with hfirst hsecond
  · refine ⟨?_, hfirst⟩
    rw [zpow_sub_one₀ (by norm_num)]
    linarith
  · refine ⟨?_, hsecond⟩
    rw [add_sub_cancel_right]
    exact not_lt.1 hfirst
  · rw [show guess + 2 - 1 = guess + 1 by ring, show guess + 2 = guess + 1 + 1 by ring]
    refine ⟨not_lt.1 hsecond, ?_⟩
    rw [hten, hten]
    linarith

/-! ## Points of a grid -/

section grid

variable {e : Int}

theorem floorOnGrid_bounds (x : Binary64) (e : Int) :
    (x.floorOnGrid e : ℚ) * 10 ^ e ≤ |x.value| ∧
      |x.value| < ((x.floorOnGrid e + 1 : Nat) : ℚ) * 10 ^ e := by
  have hunit : (0 : ℚ) < 10 ^ e := by positivity
  have hfloor : x.floorOnGrid e = ⌊|x.value| / 10 ^ e⌋₊ := by
    unfold floorOnGrid magnitude
    simp only [Nat.pow_eq]
    rw [← Nat.floor_div_eq_div (K := ℚ), abs_value, Decimal.zpow_eq_div 10, Decimal.zpow_eq_div 2]
    push_cast
    congr 1
    field_simp
  rw [hfloor]
  constructor
  · exact (le_div_iff₀ hunit).1 (Nat.floor_le (by positivity))
  · push_cast
    exact (div_lt_iff₀ hunit).1 (Nat.lt_floor_add_one _)

/-- A grid with a point that rounds to the double has one next to the double. -/
theorem isSome_onGrid? (tie : TieRule) {j : Nat} (hx : x.significand ≠ 0)
    (hj : RoundsTo (j * 10 ^ e) x.magnitudeBits) : (x.onGrid? tie e).isSome = true := by
  obtain ⟨hlow, hhigh⟩ := floorOnGrid_bounds x e
  have hunit : (0 : ℚ) ≤ 10 ^ e := by positivity
  have hself := roundsTo_abs_value x
  have hneighbour : x.readsBack ⟨x.floorOnGrid e, e⟩ = true ∨
      x.readsBack ⟨x.floorOnGrid e + 1, e⟩ = true := by
    rw [readsBack_iff hx, readsBack_iff hx, Decimal.value, Decimal.value]
    rcases Nat.lt_or_ge (x.floorOnGrid e) j with hlt | hge
    · exact .inr (hself.between hj hhigh.le
        (mul_le_mul_of_nonneg_right (by exact_mod_cast hlt) hunit))
    · exact .inl (hj.between hself (mul_le_mul_of_nonneg_right (by exact_mod_cast hge) hunit) hlow)
  unfold onGrid?
  simp only
  split_ifs <;> simp_all

theorem of_onGrid? {tie : TieRule} {d : Decimal} (h : x.onGrid? tie e = some d) :
    d.exponent = e ∧ d.digits ≤ x.floorOnGrid e + 1 := by
  unfold onGrid? at h
  simp only at h
  split_ifs at h <;> cases h <;> simp

end grid

/-- Seventeen digits are enough: the points of their grid are closer together than the midpoints
around the double. -/
theorem exists_seventeen_digits (hx : x.significand ≠ 0) :
    ∃ j : Nat, RoundsTo (j * 10 ^ (x.decimalScale - 17)) x.magnitudeBits := by
  obtain ⟨k, hbits, -, -, hnarrow⟩ := magnitudeBits_eq x
  obtain ⟨p, hp⟩ := Nat.exists_eq_succ_of_ne_zero (magnitudeBits_ne_zero hx)
  obtain ⟨hbelow, habove⟩ := midpoint_magnitudeBits hp hx
  obtain ⟨hlow, hhigh⟩ := floorOnGrid_bounds x (x.decimalScale - 17)
  have hlower : midpoint p < |x.value| := by
    rw [abs_value_eq, hp]
    exact midpoint_lt_magnitudeAt p
  have hupper : |x.value| < midpoint (p + 1) := by
    rw [abs_value_eq, hp]
    exact magnitudeAt_lt_midpoint (p + 1)
  have hscale := (decimalScale_bounds hx).1
  rw [show x.decimalScale - 1 = x.decimalScale - 17 + (16 : Nat) by push_cast; ring,
    zpow_add₀ (by norm_num), zpow_natCast, abs_value] at hscale
  generalize hj : x.floorOnGrid (x.decimalScale - 17) = j at hlow hhigh
  have hsize : (x.significand : ℚ) < 2 ^ 53 := by exact_mod_cast significand_lt x
  -- The points on the two sides of the double are not both at or beyond the midpoints.
  have hinside : midpoint p < j * 10 ^ (x.decimalScale - 17) ∨
      ((j + 1 : Nat) : ℚ) * 10 ^ (x.decimalScale - 17) < midpoint (p + 1) := by
    by_contra hnot
    obtain ⟨hleft, hright⟩ := not_or.1 hnot
    have hwide := add_le_add (not_lt.1 hright) (not_lt.1 hleft)
    rw [hbelow, habove, quarter_unit] at hwide
    have hunit : (0 : ℚ) < 2 ^ x.exponent := by positivity
    have hdigits := mul_lt_mul_of_pos_right hsize hunit
    generalize (2 : ℚ) ^ x.exponent = unit at hscale hwide hunit hdigits
    generalize (10 : ℚ) ^ (x.decimalScale - 17) = step at hscale hwide
    push_cast at hwide
    by_cases h : x.hasNarrowGapBelow = true
    · have hpower := (hnarrow.1 h).1
      rw [if_pos h, hpower] at hwide
      rw [hpower] at hscale
      norm_num at hwide hscale
      linarith
    · rw [if_neg h, Nat.cast_sub (by omega)] at hwide
      push_cast at hwide
      norm_num at hwide hscale hdigits
      linarith
  rw [hp]
  rcases hinside with h | h
  · exact ⟨j, roundsTo_succ_iff.2 ⟨.inl h, .inl (hlow.trans_lt hupper)⟩⟩
  · exact ⟨j + 1, roundsTo_succ_iff.2 ⟨.inl (hlower.trans hhigh), .inl h⟩⟩

/-- The search finds the first grid that has a point. -/
theorem exists_first {α : Type} {f : Nat → Option α} {n k : Nat} (hk : k < n)
    (hsome : (f k).isSome = true) :
    ∃ j < n, ∃ a, f j = some a ∧ (∀ i < j, f i = none) ∧
      (List.range n).findSome? f = some a := by
  obtain ⟨b, hb⟩ := Option.isSome_iff_exists.1 hsome
  cases hfound : (List.range n).findSome? f with
  | none =>
      have := List.findSome?_eq_none_iff.1 hfound k (List.mem_range.2 hk)
      simp [hb] at this
  | some a =>
      obtain ⟨before, j, after, hsplit, hj, hnone⟩ := List.findSome?_eq_some_iff.1 hfound
      rw [List.range_eq_range', List.range'_eq_append_iff] at hsplit
      obtain ⟨i, hi, rfl, hrest⟩ := hsplit
      obtain ⟨rfl, hpos, -⟩ := List.range'_eq_cons_iff.1 hrest.symm
      refine ⟨0 + i * 1, by omega, a, hj, fun l hl => hnone l ?_, rfl⟩
      simp
      omega

/-- Fewer digits than the first grid that has a point do not suffice. -/
theorem length_digitText_of_roundsTo {d : Decimal} {tie : TieRule} {k : Nat}
    (hx : x.significand ≠ 0)
    (hnone : ∀ i < k, x.onGrid? tie (x.decimalScale - ((i + 1 : Nat) : Int)) = none)
    (hd : RoundsTo d.value x.magnitudeBits) : k + 1 ≤ d.digitText.length := by
  by_contra hshort
  have hpos := d.length_digitText_pos
  obtain ⟨i, hi⟩ : ∃ i, d.digitText.length = i + 1 := ⟨d.digitText.length - 1, by omega⟩
  have hdigits : d.digits < 10 ^ (i + 1) :=
    (Decimal.length_digitText_le_iff (by omega)).1 hi.le
  -- A point of the grid of that many places rounds to the double, too.
  obtain ⟨j, hj⟩ : ∃ j : Nat,
      RoundsTo (j * 10 ^ (x.decimalScale - ((i + 1 : Nat) : Int))) x.magnitudeBits := by
    rcases le_or_gt (x.decimalScale - ((i + 1 : Nat) : Int)) d.exponent with hcoarse | hfine
    · obtain ⟨n, hn⟩ := Int.le.dest hcoarse
      refine ⟨d.digits * 10 ^ n, ?_⟩
      rw [Decimal.value, ← hn, zpow_add₀ (by norm_num), zpow_natCast] at hd
      push_cast
      rwa [mul_assoc, mul_comm (10 ^ n)]
    · refine ⟨10 ^ i, ?_⟩
      have hpower : ((10 ^ i : Nat) : ℚ) * 10 ^ (x.decimalScale - ((i + 1 : Nat) : Int)) =
          10 ^ (x.decimalScale - 1) := by
        push_cast
        rw [← zpow_natCast, ← zpow_add₀ (by norm_num)]
        congr 1
        ring
      rw [hpower]
      refine hd.between (roundsTo_abs_value x) ?_ (decimalScale_bounds hx).1
      calc d.value ≤ ((10 ^ (i + 1) : Nat) : ℚ) * 10 ^ d.exponent :=
            mul_le_mul_of_nonneg_right (by exact_mod_cast hdigits.le) (by positivity)
        _ = 10 ^ (((i + 1 : Nat) : Int) + d.exponent) := by
            rw [zpow_add₀ (by norm_num), zpow_natCast]
            push_cast
            rfl
        _ ≤ 10 ^ (x.decimalScale - 1) := zpow_le_zpow_right₀ (by norm_num) (by omega)
  have hsome := isSome_onGrid? tie hx hj
  rw [hnone i (by omega)] at hsome
  simp at hsome

/-- The shortest decimal of a double rounds to it, ends in no zero, and has no more digits than any
other decimal that rounds to the double. -/
theorem shortest_spec (tie : TieRule) (hx : x.significand ≠ 0) :
    (x.shortest tie).digits % 10 ≠ 0 ∧
    RoundsTo (x.shortest tie).value x.magnitudeBits ∧
    ∀ d : Decimal, RoundsTo d.value x.magnitudeBits →
      (x.shortest tie).digitText.length ≤ d.digitText.length := by
  obtain ⟨j, hj⟩ := exists_seventeen_digits hx
  obtain ⟨k, hk, found, hgrid, hnone, hfound⟩ := exists_first
    (f := fun n => x.onGrid? tie (x.decimalScale - ((n + 1 : Nat) : Int))) (n := 17) (k := 16)
    (by norm_num) (isSome_onGrid? tie hx hj)
  have hshortest : x.shortest tie = Decimal.dropZeros 400 found := by
    unfold shortest
    simp only [hfound, Option.getD_some]
  obtain ⟨hexponent, hdigits⟩ := of_onGrid? hgrid
  have hrounds := (readsBack_iff hx).1 (readsBack_of_onGrid? hgrid)
  -- The digits found are at most the power of ten that has one digit more.
  have hsmall : found.digits ≤ 10 ^ (k + 1) := by
    have hfloor := (floorOnGrid_bounds x (x.decimalScale - ((k + 1 : Nat) : Int))).1.trans_lt
      (decimalScale_bounds hx).2
    rw [← lt_div_iff₀ (by positivity), ← zpow_sub₀ (by norm_num), sub_sub_cancel,
      zpow_natCast] at hfloor
    have hlt : x.floorOnGrid (x.decimalScale - ((k + 1 : Nat) : Int)) < 10 ^ (k + 1) := by
      exact_mod_cast hfloor
    omega
  have hne : found.digits ≠ 0 := by
    intro hzero
    have hpos := hrounds.pos (magnitudeBits_ne_zero hx)
    rw [Decimal.value, hzero, Nat.cast_zero, zero_mul] at hpos
    exact lt_irrefl 0 hpos
  have hfuel (n : Nat) (hn : k + 1 < n) : found.digits < 10 ^ n :=
    hsmall.trans_lt (Nat.pow_lt_pow_right (by norm_num) hn)
  have hmod := Decimal.digits_dropZeros_mod hne (hfuel 400 (by omega))
  rw [hshortest]
  refine ⟨hmod, by rwa [Decimal.value_dropZeros], fun d hd => ?_⟩
  refine le_trans ?_ (length_digitText_of_roundsTo hx hnone hd)
  have hle := (Decimal.digits_dropZeros_le 400 found).trans hsmall
  refine (Decimal.length_digitText_le_iff (by omega)).2 (lt_of_le_of_ne hle fun heq => hmod ?_)
  rw [heq, pow_succ, Nat.mul_mod_left]

/-- The shortest decimal does not depend on the sign. -/
theorem shortest_congr {y : Binary64} (tie : TieRule) (h : x.magnitudeBits = y.magnitudeBits) :
    x.shortest tie = y.shortest tie := by
  have hx := fractionField_lt x
  have hy := fractionField_lt y
  have hfield : x.exponentField = y.exponentField := by
    unfold magnitudeBits at h
    omega
  have hfraction : x.fractionField = y.fractionField := by
    unfold magnitudeBits at h
    omega
  have hsignificand : x.significand = y.significand := by
    simp only [significand, hfield, hfraction]
  have hexponent : x.exponent = y.exponent := by simp only [exponent, hfield]
  have hnarrow : x.hasNarrowGapBelow = y.hasNarrowGapBelow := by
    simp only [hasNarrowGapBelow, hfield, hfraction]
  -- The search looks at nothing else.
  have hreads (d : Decimal) : x.readsBack d = y.readsBack d := by
    unfold readsBack
    rw [hsignificand, hexponent, hnarrow]
  have hprefers (below : Nat) (e : Int) :
      x.prefersUpper tie below e = y.prefersUpper tie below e := by
    unfold prefersUpper
    rw [hsignificand, hexponent]
  have hfloor (e : Int) : x.floorOnGrid e = y.floorOnGrid e := by
    unfold floorOnGrid magnitude
    rw [hsignificand, hexponent]
  have hgrid (e : Int) : x.onGrid? tie e = y.onGrid? tie e := by
    unfold onGrid?
    simp only [hreads, hprefers, hfloor]
  unfold shortest decimalScale exactDecimal
  simp only [hsignificand, hexponent, hgrid]

/-! ## Where the leading digit stands -/

/-- The power of ten of the leading digit grows with the double, and a double whose only digit is a
one is the first to reach its power. -/
theorem le_leadingExponent_shortest_iff (tie : TieRule) {y : Binary64} {e : Int}
    (hx : x.significand ≠ 0) (hy : y.significand ≠ 0) (hpower : y.shortest tie = ⟨1, e⟩) :
    e ≤ (x.shortest tie).leadingExponent ↔ |y.value| ≤ |x.value| := by
  obtain ⟨hdigits, hrounds, -⟩ := shortest_spec tie hx
  obtain ⟨-, hpowerRounds, -⟩ := shortest_spec tie hy
  have hvalue : (⟨1, e⟩ : Decimal).value = 10 ^ e := by simp [Decimal.value]
  rw [hpower, hvalue] at hpowerRounds
  rw [abs_value_eq, abs_value_eq, strictMono_magnitudeAt.le_iff_le,
    Decimal.le_leadingExponent_iff (by omega)]
  rcases Nat.lt_trichotomy x.magnitudeBits y.magnitudeBits with hlt | heq | hgt
  · exact iff_of_false (not_le.2 (hrounds.lt hpowerRounds hlt)) (not_le.2 hlt)
  · rw [shortest_congr tie heq, hpower, hvalue]
    exact iff_of_true le_rfl heq.ge
  · exact iff_of_true (hpowerRounds.lt hrounds hgt).le hgt.le

end Binary64

end LiveTemplate
