import LiveTemplate.Binary64.Layout
import LiveTemplate.Proofs.Binary64.Exact

/-!
# The digits of a double

The shortest decimal of a double is near to it, so the power of ten of its leading digit says in
which notation the double is shown.  A double that is an integer of moderate size is shown as that
integer is.
-/

namespace LiveTemplate

namespace Decimal

/-- The rational number that a decimal is. -/
def value (d : Decimal) : ℚ := d.digits * 10 ^ d.exponent

/-- A power with an integer exponent, as a quotient. -/
theorem zpow_eq_div (b : ℚ) (q : Int) : b ^ q = b ^ q.toNat / b ^ (-q).toNat := by
  rcases le_total 0 q with h | h
  · obtain ⟨n, rfl⟩ := Int.eq_ofNat_of_zero_le h
    simp
  · obtain ⟨n, hn⟩ := Int.eq_ofNat_of_zero_le (neg_nonneg.2 h)
    obtain rfl : q = -(n : Int) := by omega
    simp

/-- A scaled comparison compares rationals. -/
theorem compareScaled_eq (a n : Nat) (i j : Int) :
    compareScaled a i n j = compare ((a : ℚ) * 10 ^ i) (n * 2 ^ j) := by
  have hscale : (0 : ℚ) < 2 ^ (-j).toNat * 10 ^ (-i).toNat := by positivity
  rw [compareScaled, ← cmp_eq_compare, ← cmp_eq_compare,
    ← (Nat.strictMono_cast (α := ℚ)).cmp_map_eq, ← cmp_mul_pos_right hscale (a * 10 ^ i),
    zpow_eq_div 10 i, zpow_eq_div 2 j]
  congr 1
  · simp only [Nat.pow_eq]
    push_cast
    field_simp
  · simp only [Nat.pow_eq]
    push_cast
    field_simp

/-- A scaled comparison that does not say "less" compares rationals. -/
theorem le_of_compareScaled_ne_lt {a n : Nat} {i j : Int} (h : compareScaled a i n j ≠ .lt) :
    (n : ℚ) * 2 ^ j ≤ a * 10 ^ i := by
  rw [compareScaled_eq, ne_eq, compare_lt_iff_lt] at h
  exact le_of_not_gt h

/-- A scaled comparison that does not say "greater" compares rationals. -/
theorem le_of_compareScaled_ne_gt {a n : Nat} {i j : Int} (h : compareScaled a i n j ≠ .gt) :
    (a : ℚ) * 10 ^ i ≤ n * 2 ^ j := by
  rw [compareScaled_eq, ne_eq, compare_gt_iff_gt] at h
  exact le_of_not_gt h

/-- Moving trailing zeros into the exponent does not change the number. -/
theorem value_dropZeros (fuel : Nat) (d : Decimal) : (dropZeros fuel d).value = d.value := by
  induction fuel generalizing d with
  | zero => rfl
  | succ fuel ih =>
      rw [dropZeros]
      split
      · rename_i h
        obtain ⟨k, hk⟩ := Nat.dvd_of_mod_eq_zero h.2
        rw [ih]
        simp only [value, hk, Nat.mul_div_cancel_left k (by norm_num : 0 < 10)]
        rw [zpow_add_one₀ (by norm_num)]
        push_cast
        ring
      · rfl

/-- The leading digit stands at the power of ten that the number reaches. -/
theorem leadingExponent_bounds {d : Decimal} (h : d.digits ≠ 0) :
    (10 : ℚ) ^ d.leadingExponent ≤ d.value ∧ d.value < 10 ^ (d.leadingExponent + 1) := by
  have hpos := Nat.length_toDigits_pos (b := 10) (n := d.digits)
  obtain ⟨k, hk⟩ : ∃ k, (Nat.toDigits 10 d.digits).length = k + 1 :=
    ⟨(Nat.toDigits 10 d.digits).length - 1, by omega⟩
  have hhigh : d.digits < 10 ^ (k + 1) :=
    (Nat.length_toDigits_le_iff (by norm_num) (by omega)).1 hk.le
  -- Anything smaller has fewer digits.
  have hlow : 10 ^ k ≤ d.digits := by
    rcases Nat.eq_zero_or_pos k with rfl | hk'
    · rw [pow_zero]
      omega
    · refine Nat.not_lt.1 fun hlt => ?_
      have := (Nat.length_toDigits_le_iff (b := 10) (by norm_num) hk').2 hlt
      omega
  have hleading : d.leadingExponent = d.exponent + k := by
    unfold leadingExponent digitText
    rw [hk]
    push_cast
    ring
  have hten : (0 : ℚ) < 10 ^ d.exponent := by positivity
  rw [hleading, value]
  constructor
  · rw [zpow_add₀ (by norm_num), mul_comm, zpow_natCast]
    exact mul_le_mul_of_nonneg_right (by exact_mod_cast hlow) hten.le
  · rw [show d.exponent + (k : Int) + 1 = d.exponent + ((k + 1 : Nat) : Int) by push_cast; ring,
      zpow_add₀ (by norm_num), mul_comm, zpow_natCast]
    exact mul_lt_mul_of_pos_left (by exact_mod_cast hhigh) hten

end Decimal

namespace Binary64

variable {x : Binary64}

/-- The ends between which a decimal reads back are counted in quarters of the last binary digit. -/
theorem quarter_unit (q : Int) : (2 : ℚ) ^ (q - 2) = 2 ^ q / 4 := by
  rw [zpow_sub₀ (by norm_num)]
  norm_num

/-- A decimal that reads back differs from the double by at most half of it. -/
theorem bounds_of_readsBack {d : Decimal} (hx : x.significand ≠ 0) (h : x.readsBack d = true) :
    |x.value| / 2 ≤ d.value ∧ d.value ≤ 3 / 2 * |x.value| := by
  simp only [readsBack, Bool.and_eq_true, Bool.or_eq_true, beq_iff_eq] at h
  obtain ⟨hlow, hhigh⟩ := h
  have hexponent : (0 : ℚ) < 2 ^ x.exponent := by positivity
  have hbelow := Decimal.le_of_compareScaled_ne_lt (show _ ≠ Ordering.lt by
    rcases hlow with h | ⟨-, h⟩ <;> rw [h] <;> decide)
  have habove := Decimal.le_of_compareScaled_ne_gt (show _ ≠ Ordering.gt by
    rcases hhigh with h | ⟨-, h⟩ <;> rw [h] <;> decide)
  rw [quarter_unit] at hbelow habove
  rw [abs_value, Decimal.value]
  constructor
  · have hnat : 2 * x.significand ≤
        if x.hasNarrowGapBelow then 4 * x.significand - 1 else 4 * x.significand - 2 := by
      split <;> omega
    have hcast : (2 * x.significand : ℚ) ≤ ((if x.hasNarrowGapBelow then 4 * x.significand - 1
        else 4 * x.significand - 2 : Nat) : ℚ) := by exact_mod_cast hnat
    nlinarith
  · have hcast : ((4 * x.significand + 2 : Nat) : ℚ) ≤ 6 * x.significand := by
      exact_mod_cast (by omega : 4 * x.significand + 2 ≤ 6 * x.significand)
    nlinarith

theorem readsBack_of_onGrid? {tie : TieRule} {exponent : Int} {d : Decimal}
    (h : x.onGrid? tie exponent = some d) : x.readsBack d = true := by
  unfold onGrid? at h
  simp only at h
  split at h
  · split at h <;> simp_all
  · split at h <;> simp_all

/-- The decimal of all digits of a double is the double. -/
theorem value_exactDecimal (x : Binary64) : x.exactDecimal.value = |x.value| := by
  rw [abs_value, Decimal.value, exactDecimal]
  rcases le_total 0 x.exponent with h | h
  · obtain ⟨k, hk⟩ := Int.eq_ofNat_of_zero_le h
    simp [hk, Nat.pow_eq]
  · obtain ⟨k, hk⟩ := Int.eq_ofNat_of_zero_le (neg_nonneg.2 h)
    have hexponent : x.exponent = -(k : Int) := by omega
    rw [hexponent, min_eq_left (by omega), show (-(k : Int)).toNat = 0 by omega,
      show (- -(k : Int)).toNat = k by omega, zpow_neg, zpow_neg, zpow_natCast, zpow_natCast,
      show (10 : ℚ) = 2 * 5 by norm_num, mul_pow]
    simp only [Nat.pow_eq]
    push_cast
    field_simp

/-- The shortest decimal differs from the double by at most half of it. -/
theorem bounds_shortest (tie : TieRule) (hx : x.significand ≠ 0) :
    |x.value| / 2 ≤ (x.shortest tie).value ∧ (x.shortest tie).value ≤ 3 / 2 * |x.value| := by
  unfold shortest
  simp only [Decimal.value_dropZeros]
  cases hfound : (List.range 17).findSome? fun n =>
      x.onGrid? tie (x.decimalScale - ((n + 1 : Nat) : Int)) with
  | none =>
      rw [Option.getD_none, value_exactDecimal]
      constructor <;> linarith [abs_nonneg x.value]
  | some d =>
      obtain ⟨n, -, hgrid⟩ := List.exists_of_findSome?_eq_some hfound
      exact bounds_of_readsBack hx (readsBack_of_onGrid? hgrid)

/-- The leading digit of a double between one and `10 ^ 20` stands at one of the places that are
shown positionally. -/
theorem leadingExponent_shortest (tie : TieRule) (hlow : 1 ≤ |x.value|)
    (hhigh : |x.value| ≤ 10 ^ 20) :
    -6 ≤ (x.shortest tie).leadingExponent ∧ (x.shortest tie).leadingExponent < 21 := by
  have hx : x.significand ≠ 0 := by
    intro hzero
    rw [abs_value, hzero] at hlow
    norm_num at hlow
  obtain ⟨hbelow, habove⟩ := bounds_shortest tie hx
  have hdigits : (x.shortest tie).digits ≠ 0 := by
    intro hzero
    rw [Decimal.value, hzero] at hbelow
    norm_num at hbelow
    linarith
  obtain ⟨hleading, hnext⟩ := Decimal.leadingExponent_bounds hdigits
  constructor
  · by_contra hlt
    have hpow : (10 : ℚ) ^ ((x.shortest tie).leadingExponent + 1) ≤ 10 ^ (-6 : Int) :=
      zpow_le_zpow_right₀ (by norm_num) (by omega)
    norm_num at hpow
    linarith
  · by_contra hge
    have hpow : (10 : ℚ) ^ (21 : Int) ≤ 10 ^ (x.shortest tie).leadingExponent :=
      zpow_le_zpow_right₀ (by norm_num) (by omega)
    norm_num at hpow
    linarith

/-- A double that is an integer is one without fraction, and its magnitude is that of the
integer. -/
theorem natMagnitude_eq {n : Int} (h : x.value = n) :
    x.isIntegral = true ∧ x.natMagnitude = n.natAbs := by
  have habs : (x.significand : ℚ) * 2 ^ x.exponent = n.natAbs := by
    rw [← abs_value, h, Nat.cast_natAbs, Int.cast_abs]
  rw [Decimal.zpow_eq_div, ← mul_div_assoc, div_eq_iff (by positivity)] at habs
  have hnat : x.significand * 2 ^ x.exponent.toNat = n.natAbs * 2 ^ (-x.exponent).toNat := by
    exact_mod_cast habs
  have hpos : 0 < 2 ^ (-x.exponent).toNat := by positivity
  simp only [isIntegral, natMagnitude, magnitude, Nat.pow_eq, hnat]
  simp [Nat.mul_div_cancel _ hpos]

/-- The sign of a double that is an integer other than zero. -/
theorem isNegative_eq {n : Int} (h : x.value = n) (hne : n ≠ 0) :
    x.isNegative = decide (n < 0) := by
  have hnonneg : (0 : ℚ) ≤ x.significand * 2 ^ x.exponent := by positivity
  have hcast : (n : ℚ) ≠ 0 := by exact_mod_cast hne
  unfold value at h
  cases hsign : x.isNegative with
  | true =>
      rw [hsign, if_pos rfl, neg_one_mul] at h
      have : (n : ℚ) < 0 := lt_of_le_of_ne (by linarith) hcast
      exact (decide_eq_true (by exact_mod_cast this)).symm
  | false =>
      rw [hsign, if_neg (by simp), one_mul] at h
      have : (0 : ℚ) ≤ n := by linarith
      exact (decide_eq_false (not_lt.2 (by exact_mod_cast this))).symm

/-- A double that is an integer of at most sixty-four binary digits is shown as the integer is. -/
theorem displayText_of_value_eq {n : Int} (h : x.value = n) (hrange : n.natAbs < 2 ^ 64) :
    x.displayText = toString n := by
  unfold displayText
  rcases eq_or_ne n 0 with rfl | hne
  · rw [if_pos (value_eq_zero_iff.1 (by simpa using h))]
    rfl
  have hzero : x.isZero = false := by
    rw [← Bool.not_eq_true, ← value_eq_zero_iff, h]
    exact_mod_cast hne
  have habs : |x.value| = n.natAbs := by rw [h, Nat.cast_natAbs, Int.cast_abs]
  have hlow : 1 ≤ |x.value| := by
    rw [habs]
    exact_mod_cast Int.natAbs_pos.2 hne
  have hhigh : |x.value| ≤ 10 ^ 20 := by
    rw [habs]
    exact_mod_cast (by omega : n.natAbs ≤ 10 ^ 20)
  obtain ⟨hsmall, hlarge⟩ := leadingExponent_shortest .away hlow hhigh
  obtain ⟨hintegral, hmagnitude⟩ := natMagnitude_eq h
  rw [hzero, if_neg (by simp)]
  simp only
  rw [if_neg (by simp; omega), if_pos hintegral, hmagnitude, signText, isNegative_eq h hne]
  cases n with
  | ofNat k => simp [toString, Int.repr]
  | negSucc k => simp [toString, Int.repr]

end Binary64

end LiveTemplate
