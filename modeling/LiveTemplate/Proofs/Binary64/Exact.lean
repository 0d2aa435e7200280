import LiveTemplate.Binary64.Basic
import Mathlib.Algebra.Order.Field.Power
import Mathlib.Tactic.FieldSimp
import Mathlib.Tactic.Linarith
import Mathlib.Tactic.Positivity
import Mathlib.Tactic.Ring

/-!
# Doubles as exact rationals

A finite double is a rational number, given by its sign, its significand and its exponent.  An
integer that is itself a double is not changed by rounding it to one.
-/

namespace LiveTemplate.Binary64

/-- The rational number that a finite double is. -/
def value (x : Binary64) : ℚ :=
  (if x.isNegative then -1 else 1) * (x.significand * 2 ^ x.exponent)

/-- The magnitude of a double as a rational number. -/
theorem abs_value (x : Binary64) : |x.value| = x.significand * 2 ^ x.exponent := by
  have hnonneg : (0 : ℚ) ≤ x.significand * 2 ^ x.exponent := by positivity
  unfold value
  split
  · rw [neg_one_mul, abs_neg, abs_of_nonneg hnonneg]
  · rw [one_mul, abs_of_nonneg hnonneg]

theorem isZero_iff {x : Binary64} : x.isZero = true ↔ x.significand = 0 := by
  unfold isZero significand
  by_cases h : x.exponentField = 0 <;> simp [h]

theorem value_eq_zero_iff {x : Binary64} : x.value = 0 ↔ x.isZero = true := by
  rw [← abs_eq_zero, abs_value, isZero_iff]
  simp [zpow_ne_zero]

/-- Doubles that compare as equal are the same rational. -/
theorem value_eq_of_sameNumber {x y : Binary64} (h : x.sameNumber y = true) :
    x.value = y.value := by
  simp only [sameNumber, Bool.or_eq_true, Bool.and_eq_true, beq_iff_eq] at h
  obtain rfl | ⟨hx, hy⟩ := h
  · rfl
  · rw [value_eq_zero_iff.2 hx, value_eq_zero_iff.2 hy]

/-! ## Fields of a double that is put together -/

section ofMagnitudeBits

variable {negative : Bool} {bits : Nat}

theorem toNat_ofMagnitudeBits (h : bits < 2 ^ 63) :
    (ofMagnitudeBits negative bits).bits.toNat = (if negative then 2 ^ 63 else 0) + bits := by
  cases negative <;> simp [ofMagnitudeBits, Nat.toUInt64] <;> omega

theorem isNegative_ofMagnitudeBits (h : bits < 2 ^ 63) :
    (ofMagnitudeBits negative bits).isNegative = negative := by
  have hshift : ((ofMagnitudeBits negative bits).bits >>> 63).toNat = if negative then 1 else 0 := by
    rw [UInt64.toNat_shiftRight, toNat_ofMagnitudeBits h]
    cases negative <;> simp [Nat.shiftRight_eq_div_pow] <;> omega
  rw [isNegative, Bool.eq_iff_iff, beq_iff_eq, ← UInt64.toNat_inj, hshift]
  cases negative <;> simp

theorem exponentField_ofMagnitudeBits (h : bits < 2 ^ 63) :
    (ofMagnitudeBits negative bits).exponentField = bits / 2 ^ 52 := by
  unfold exponentField
  rw [UInt64.toNat_and, UInt64.toNat_shiftRight, toNat_ofMagnitudeBits h]
  have hmask (n : Nat) : n &&& (0x7FF : UInt64).toNat = n % 2 ^ 11 :=
    Nat.and_two_pow_sub_one_eq_mod n 11
  rw [hmask]
  cases negative <;> simp [Nat.shiftRight_eq_div_pow] <;> omega

theorem fractionField_ofMagnitudeBits (h : bits < 2 ^ 63) :
    (ofMagnitudeBits negative bits).fractionField = bits % 2 ^ 52 := by
  unfold fractionField
  rw [UInt64.toNat_and, toNat_ofMagnitudeBits h]
  have hmask (n : Nat) : n &&& (0xFFFFFFFFFFFFF : UInt64).toNat = n % 2 ^ 52 :=
    Nat.and_two_pow_sub_one_eq_mod n 52
  rw [hmask]
  cases negative
  · simp
  · simp
    omega

/-- A significand of fifty-three bits over an exponent field in range is taken apart again.  The
significand may also be the next power of two, which carries into the exponent. -/
theorem value_ofMagnitudeBits {field m : Nat} (hfield : field < 2000) (hlow : 2 ^ 52 ≤ m)
    (hhigh : m ≤ 2 ^ 53) :
    (ofMagnitudeBits negative (field * 2 ^ 52 + m)).value =
      (if negative then -1 else 1) * (m * 2 ^ ((field : Int) - 1074)) := by
  have hbits : field * 2 ^ 52 + m < 2 ^ 63 := by omega
  have hexponent : (ofMagnitudeBits negative (field * 2 ^ 52 + m)).exponentField = _ :=
    exponentField_ofMagnitudeBits hbits
  have hfraction : (ofMagnitudeBits negative (field * 2 ^ 52 + m)).fractionField = _ :=
    fractionField_ofMagnitudeBits hbits
  unfold value significand exponent
  rw [isNegative_ofMagnitudeBits hbits, hexponent, hfraction]
  congr 1
  rcases Nat.lt_or_ge m (2 ^ 53) with hm | hm
  · have hdiv : (field * 2 ^ 52 + m) / 2 ^ 52 = field + 1 := by omega
    have hmod : (field * 2 ^ 52 + m) % 2 ^ 52 = m - 2 ^ 52 := by omega
    rw [hdiv, hmod, if_neg (by omega), if_neg (by omega)]
    rw [Nat.pow_eq, Nat.add_sub_of_le hlow]
    congr 2
    push_cast
    ring
  · -- The carry leaves no fraction, and an exponent that is larger by one.
    obtain rfl : m = 2 ^ 53 := by omega
    have hdiv : (field * 2 ^ 52 + 2 ^ 53) / 2 ^ 52 = field + 2 := by omega
    have hmod : (field * 2 ^ 52 + 2 ^ 53) % 2 ^ 52 = 0 := by omega
    rw [hdiv, hmod, if_neg (by omega), if_neg (by omega)]
    have hnext : ((field + 2 : Nat) : Int) - 1075 = (field : Int) - 1074 + 1 := by omega
    rw [hnext, zpow_add_one₀ (by norm_num : (2 : ℚ) ≠ 0)]
    norm_num [Nat.pow_eq]
    ring

end ofMagnitudeBits

/-! ## Integers -/

theorem fractionField_lt (x : Binary64) : x.fractionField < 2 ^ 52 := by
  unfold fractionField
  rw [UInt64.toNat_and]
  exact Nat.and_lt_two_pow _ (by decide)

theorem significand_lt (x : Binary64) : x.significand < 2 ^ 53 := by
  have hfraction := fractionField_lt x
  unfold significand
  split
  · omega
  · rw [Nat.pow_eq]
    omega

/-- An integer that is a double has no digit below the fifty-three binary digits from its first one
on. -/
theorem dvd_of_value_eq {x : Binary64} {n : Int} (h : x.value = n) :
    2 ^ (n.natAbs.log2 - 52) ∣ n.natAbs := by
  have hsize := significand_lt x
  have habs : (n.natAbs : ℚ) = x.significand * 2 ^ x.exponent := by
    rw [← abs_value, h, Nat.cast_natAbs, Int.cast_abs]
  rcases eq_or_ne n.natAbs 0 with hzero | hzero
  · exact hzero ▸ Nat.dvd_zero _
  have hlog := Nat.log2_self_le hzero
  rcases le_total x.exponent 0 with hexponent | hexponent
  · -- The integer is at most the significand, so it has no more binary digits than that.
    have hle : (n.natAbs : ℚ) ≤ x.significand := by
      rw [habs]
      exact mul_le_of_le_one_right (by positivity) (zpow_le_one_of_nonpos₀ (by norm_num) hexponent)
    have hlt : 2 ^ n.natAbs.log2 < 2 ^ 53 := hlog.trans_lt ((Nat.cast_le.1 hle).trans_lt hsize)
    have hbound := (Nat.pow_lt_pow_iff_right (by norm_num : 1 < 2)).1 hlt
    rw [Nat.sub_eq_zero_of_le (by omega)]
    exact one_dvd _
  · -- The significand is shifted, and all digits that it gains are zeros.
    obtain ⟨e, he⟩ := Int.eq_ofNat_of_zero_le hexponent
    have hnat : n.natAbs = x.significand * 2 ^ e := by
      rw [he, zpow_natCast] at habs
      exact_mod_cast habs
    have hlt : 2 ^ n.natAbs.log2 < 2 ^ (53 + e) := by
      rw [pow_add]
      exact (hlog.trans_eq hnat).trans_lt (Nat.mul_lt_mul_of_pos_right hsize (by positivity))
    have hbound := (Nat.pow_lt_pow_iff_right (by norm_num : 1 < 2)).1 hlt
    rw [hnat] at hbound ⊢
    exact (pow_dvd_pow 2 (by omega)).trans (Dvd.intro_left _ rfl)

theorem roundQuotient_mul {k d : Nat} (h : 0 < d) : roundQuotient (k * d) d = k := by
  simp [roundQuotient, Nat.mul_div_cancel _ h, h]

/-- The significand that a positive integer is rounded to has fifty-three binary digits. -/
theorem roundingExponent_one {n : Nat} (h : n ≠ 0) :
    roundingExponent n 1 = (n.log2 : Int) - 52 := by
  have hlog := Nat.log2_self_le h
  have hwide : 1 * Nat.pow 2 ((n.log2 : Int) - (Nat.log2 1 : Int) - 53).toNat * Nat.pow 2 53 ≤
      n * Nat.pow 2 (-((n.log2 : Int) - (Nat.log2 1 : Int) - 53)).toNat := by
    simp only [Nat.pow_eq, one_mul, show Nat.log2 1 = 0 from by decide]
    rcases le_total 53 n.log2 with hle | hle
    · obtain ⟨k, hk⟩ := Nat.exists_eq_add_of_le hle
      rw [hk] at hlog ⊢
      rw [show (((53 + k : Nat) : Int) - ((0 : Nat) : Int) - 53).toNat = k by omega,
        show (-(((53 + k : Nat) : Int) - ((0 : Nat) : Int) - 53)).toNat = 0 by omega, ← pow_add,
        Nat.add_comm k 53, pow_zero, mul_one]
      exact hlog
    · obtain ⟨k, hk⟩ := Nat.exists_eq_add_of_le hle
      rw [show ((n.log2 : Int) - ((0 : Nat) : Int) - 53).toNat = 0 by omega,
        show (-((n.log2 : Int) - ((0 : Nat) : Int) - 53)).toNat = k by omega, pow_zero, one_mul,
        hk, pow_add]
      exact Nat.mul_le_mul_right _ hlog
  have hone : Nat.log2 1 = 0 := by decide
  simp only [roundingExponent, if_pos hwide]
  rw [hone]
  omega

/-- Rounding an integer to a significand that holds all its digits. -/
theorem value_ofInt_of_significand {n : Int} (field m : Nat) (hne : n.natAbs ≠ 0)
    (hfield : (n.natAbs.log2 : Int) - 52 = (field : Int) - 1074) (hsmall : field < 2000)
    (hlow : 2 ^ 52 ≤ m) (hhigh : m ≤ 2 ^ 53)
    (hround : roundQuotient (n.natAbs * 2 ^ (-((field : Int) - 1074)).toNat)
      (1 * 2 ^ ((field : Int) - 1074).toNat) = m)
    (hvalue : (m : ℚ) * 2 ^ ((field : Int) - 1074) = n.natAbs) : (ofInt n).value = n := by
  have hbits : field * 2 ^ 52 + m ≤ 2047 * 2 ^ 52 := by omega
  have hresult : ofInt n = ofMagnitudeBits (n < 0) (field * 2 ^ 52 + m) := by
    unfold ofInt ofRatio
    simp only [if_neg hne, roundingExponent_one hne, hfield, Nat.pow_eq, hround]
    rw [show ((field : Int) - 1074 + 1074).toNat = field by omega, Nat.min_eq_left hbits]
  rw [hresult, value_ofMagnitudeBits hsmall hlow hhigh, hvalue]
  rcases lt_or_ge n 0 with hn | hn
  · rw [decide_eq_true hn, if_pos rfl, Nat.cast_natAbs, abs_of_neg hn]
    push_cast
    ring
  · rw [decide_eq_false (not_lt.2 hn), if_neg (by simp), Nat.cast_natAbs, abs_of_nonneg hn, one_mul]

/-- An integer of at most sixty-four binary digits that is a double is not changed by rounding. -/
theorem value_ofInt {x : Binary64} {n : Int} (h : x.value = n) (hrange : n.natAbs < 2 ^ 64) :
    (ofInt n).value = n := by
  rcases eq_or_ne n.natAbs 0 with hzero | hzero
  · obtain rfl := Int.natAbs_eq_zero.1 hzero
    rw [Int.cast_zero]
    exact value_eq_zero_iff.2 (by decide)
  have hlow := Nat.log2_self_le hzero
  have hhigh := Nat.lt_log2_self (n := n.natAbs)
  have hlog : n.natAbs.log2 < 64 := (Nat.log2_lt hzero).2 hrange
  rcases le_total n.natAbs.log2 52 with hle | hle
  · -- The digits are moved up.
    obtain ⟨k, hk⟩ := Nat.exists_eq_add_of_le hle
    have hpow : 2 ^ 52 = 2 ^ n.natAbs.log2 * 2 ^ k := by rw [hk, pow_add]
    refine value_ofInt_of_significand (1074 - k) (n.natAbs * 2 ^ k) hzero (by omega) (by omega)
      ?_ ?_ ?_ ?_
    · rw [hpow]
      exact Nat.mul_le_mul_right _ hlow
    · rw [pow_succ, hpow, Nat.mul_right_comm, ← pow_succ]
      exact Nat.mul_le_mul_right _ hhigh.le
    · rw [show (-(((1074 - k : Nat) : Int) - 1074)).toNat = k by omega,
        show (((1074 - k : Nat) : Int) - 1074).toNat = 0 by omega, pow_zero]
      simpa using roundQuotient_mul (k := n.natAbs * 2 ^ k) one_pos
    · rw [show (((1074 - k : Nat) : Int) - 1074) = -(k : Int) by omega, zpow_neg, zpow_natCast]
      push_cast
      field_simp
  · -- The digits that are cut off are zeros.
    obtain ⟨k, hk⟩ := Nat.exists_eq_add_of_le hle
    have hdvd := dvd_of_value_eq h
    rw [show n.natAbs.log2 - 52 = k by omega] at hdvd
    obtain ⟨m, hm⟩ := hdvd
    have hpositive : 0 < 2 ^ k := by positivity
    refine value_ofInt_of_significand (1074 + k) m hzero (by omega) (by omega) ?_ ?_ ?_ ?_
    · refine Nat.le_of_mul_le_mul_left (Nat.le_trans (Nat.le_of_eq ?_) (hlow.trans_eq hm)) hpositive
      rw [hk, pow_add, Nat.mul_comm]
    · refine Nat.le_of_mul_le_mul_left ((hm.symm.trans_le hhigh.le).trans_eq ?_) hpositive
      rw [hk, show 52 + k + 1 = 53 + k by omega, pow_add, Nat.mul_comm]
    · rw [show (-(((1074 + k : Nat) : Int) - 1074)).toNat = 0 by omega,
        show (((1074 + k : Nat) : Int) - 1074).toNat = k by omega, pow_zero, mul_one, one_mul, hm,
        Nat.mul_comm]
      exact roundQuotient_mul hpositive
    · rw [show (((1074 + k : Nat) : Int) - 1074) = (k : Int) by omega, zpow_natCast, hm]
      push_cast
      ring

end LiveTemplate.Binary64
