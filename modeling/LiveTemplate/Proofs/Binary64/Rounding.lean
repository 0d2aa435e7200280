import LiveTemplate.Proofs.Binary64.Digits

/-!
# Which numbers round to a double

The bits below the sign number the magnitudes of doubles in increasing order.  The numbers that
round to a magnitude are those between the midpoints to its two neighbours, and a midpoint itself
goes to the neighbour with the even number.
-/

namespace LiveTemplate.Binary64

/-- The magnitude that the bits below the sign spell, for an exponent field of any size. -/
def magnitudeAt (n : Nat) : ℚ :=
  if n < 2 ^ 52 then n * 2 ^ (-1074 : Int)
  else (2 ^ 52 + n % 2 ^ 52 : Nat) * 2 ^ (((n / 2 ^ 52 : Nat) : Int) - 1075)

/-- The number halfway between a magnitude and the next one. -/
def midpoint (n : Nat) : ℚ := (magnitudeAt n + magnitudeAt (n + 1)) / 2

/-- A number rounds to a magnitude: it is not beyond the midpoints to the neighbours, and on a
midpoint only if the magnitude is the one with the even number. -/
structure RoundsTo (r : ℚ) (n : Nat) : Prop where
  lower : ∀ p, n = p + 1 → midpoint p ≤ r
  upper : r ≤ midpoint n
  even_of_lower : ∀ p, n = p + 1 → midpoint p = r → n % 2 = 0
  even_of_upper : r = midpoint n → n % 2 = 0

/-! ## The magnitudes in order -/

section significand

variable {k m : Nat}

/-- A significand over an exponent field.  It may also be the next power of two, which carries into
the field. -/
theorem magnitudeAt_add (hlow : 2 ^ 52 ≤ m ∨ k = 0) (hhigh : m ≤ 2 ^ 53) :
    magnitudeAt (k * 2 ^ 52 + m) = m * 2 ^ ((k : Int) - 1074) := by
  unfold magnitudeAt
  rcases Nat.lt_or_ge m (2 ^ 52) with hm | hm
  · obtain rfl : k = 0 := by omega
    rw [if_pos (by omega)]
    simp
  rw [if_neg (by omega)]
  rcases Nat.lt_or_ge m (2 ^ 53) with hsmall | hlarge
  · rw [show (k * 2 ^ 52 + m) / 2 ^ 52 = k + 1 by omega,
      show 2 ^ 52 + (k * 2 ^ 52 + m) % 2 ^ 52 = m by omega]
    congr 2
    push_cast
    ring
  · obtain rfl : m = 2 ^ 53 := by omega
    rw [show (k * 2 ^ 52 + 2 ^ 53) / 2 ^ 52 = k + 2 by omega,
      show 2 ^ 52 + (k * 2 ^ 52 + 2 ^ 53) % 2 ^ 52 = 2 ^ 52 by omega,
      show (((k + 2 : Nat) : Int) - 1075) = (k : Int) - 1074 + 1 by omega,
      zpow_add_one₀ (by norm_num)]
    push_cast
    ring

/-- Every number of a magnitude is that of a significand over an exponent field. -/
theorem exists_significand (n : Nat) :
    ∃ k m, n = k * 2 ^ 52 + m ∧ (2 ^ 52 ≤ m ∨ k = 0) ∧ m < 2 ^ 53 := by
  rcases Nat.lt_or_ge n (2 ^ 52) with hn | hn
  · exact ⟨0, n, by omega, .inr rfl, by omega⟩
  · exact ⟨n / 2 ^ 52 - 1, 2 ^ 52 + n % 2 ^ 52, by omega, .inl (by omega), by omega⟩

theorem midpoint_add (hlow : 2 ^ 52 ≤ m ∨ k = 0) (hhigh : m < 2 ^ 53) :
    midpoint (k * 2 ^ 52 + m) = (m + 1 / 2) * 2 ^ ((k : Int) - 1074) := by
  rw [midpoint, magnitudeAt_add hlow hhigh.le, Nat.add_assoc, magnitudeAt_add (by omega) hhigh]
  push_cast
  ring

/-- The midpoint below a power of two: the gap is half as wide there. -/
theorem midpoint_below_power {p : Nat} (hk : k ≠ 0) (hp : k * 2 ^ 52 + 2 ^ 52 = p + 1) :
    midpoint p = (2 ^ 52 - 1 / 4) * 2 ^ ((k : Int) - 1074) := by
  obtain ⟨j, rfl⟩ := Nat.exists_eq_succ_of_ne_zero hk
  obtain rfl : p = j * 2 ^ 52 + (2 ^ 53 - 1) := by omega
  rw [midpoint_add (.inl (by norm_num)) (by norm_num),
    show ((j.succ : Nat) : Int) - 1074 = (j : Int) - 1074 + 1 by omega,
    zpow_add_one₀ (by norm_num)]
  push_cast
  ring

/-- The midpoint below any other magnitude. -/
theorem midpoint_below {p : Nat} (hlow : 2 ^ 52 < m ∨ k = 0) (hhigh : m ≤ 2 ^ 53)
    (hm : m ≠ 0) (hp : k * 2 ^ 52 + m = p + 1) :
    midpoint p = (m - 1 / 2) * 2 ^ ((k : Int) - 1074) := by
  obtain ⟨j, rfl⟩ := Nat.exists_eq_succ_of_ne_zero hm
  obtain rfl : p = k * 2 ^ 52 + j := by omega
  rw [midpoint_add (by omega) (by omega)]
  push_cast
  ring

end significand

theorem strictMono_magnitudeAt : StrictMono magnitudeAt := by
  refine strictMono_nat_of_lt_succ fun n => ?_
  obtain ⟨k, m, rfl, hlow, hhigh⟩ := exists_significand n
  rw [Nat.add_assoc, magnitudeAt_add hlow hhigh.le, magnitudeAt_add (by omega) hhigh]
  exact mul_lt_mul_of_pos_right (by push_cast; linarith) (by positivity)

theorem magnitudeAt_lt_midpoint (n : Nat) : magnitudeAt n < midpoint n := by
  have hnext := strictMono_magnitudeAt (Nat.lt_succ_self n)
  unfold midpoint
  linarith

theorem midpoint_lt_magnitudeAt (n : Nat) : midpoint n < magnitudeAt (n + 1) := by
  have hnext := strictMono_magnitudeAt (Nat.lt_succ_self n)
  unfold midpoint
  linarith

theorem midpoint_pos (n : Nat) : 0 < midpoint n := by
  have hnonneg : 0 ≤ magnitudeAt n := by
    unfold magnitudeAt
    positivity
  exact hnonneg.trans_lt (magnitudeAt_lt_midpoint n)

theorem strictMono_midpoint : StrictMono midpoint := by
  intro n p h
  have hfirst := strictMono_magnitudeAt h
  have hsecond := strictMono_magnitudeAt (Nat.add_lt_add_right h 1)
  unfold midpoint
  linarith

namespace RoundsTo

variable {n p : Nat} {r s t : ℚ}

/-- The sets of numbers that round to the magnitudes follow each other. -/
theorem lt (hr : RoundsTo r n) (hs : RoundsTo s p) (h : n < p) : r < s := by
  obtain ⟨j, rfl⟩ := Nat.exists_eq_succ_of_ne_zero (Nat.ne_zero_of_lt h)
  have hmid := strictMono_midpoint.monotone (Nat.le_of_lt_succ h)
  have hupper := hr.upper
  have hlower := hs.lower j rfl
  refine lt_of_le_of_ne (by linarith) fun heq => ?_
  -- Only one point is shared by two sets that meet, and it belongs to one of them.
  have hsame : n = j := strictMono_midpoint.injective (by linarith)
  have hn := hr.even_of_upper (by linarith)
  have hj := hs.even_of_lower j rfl (by linarith)
  omega

/-- Only positive numbers round to a magnitude other than the first one. -/
theorem pos (hr : RoundsTo r n) (hn : n ≠ 0) : 0 < r := by
  obtain ⟨j, rfl⟩ := Nat.exists_eq_succ_of_ne_zero hn
  exact (midpoint_pos j).trans_le (hr.lower j rfl)

/-- A number rounds to one magnitude at most. -/
theorem unique (hr : RoundsTo r n) (hs : RoundsTo r p) : n = p := by
  rcases Nat.lt_trichotomy n p with h | h | h
  · exact absurd (hr.lt hs h) (lt_irrefl r)
  · exact h
  · exact absurd (hs.lt hr h) (lt_irrefl r)

/-- What lies between two numbers that round to a magnitude rounds to it. -/
theorem between (hr : RoundsTo r n) (ht : RoundsTo t n) (hrs : r ≤ s) (hst : s ≤ t) :
    RoundsTo s n where
  lower j hj := (hr.lower j hj).trans hrs
  upper := hst.trans ht.upper
  even_of_lower j hj h := hr.even_of_lower j hj (le_antisymm (hr.lower j hj) (h ▸ hrs))
  even_of_upper h := ht.even_of_upper (le_antisymm ht.upper (h ▸ hst))

/-- What a number rounds to is nearest to it, and of two nearest magnitudes it is the even one. -/
theorem nearest (hr : RoundsTo r n) (hne : p ≠ n) :
    |magnitudeAt n - r| ≤ |magnitudeAt p - r| ∧
      (|magnitudeAt n - r| = |magnitudeAt p - r| → n % 2 = 0) := by
  rcases Nat.lt_or_gt_of_ne hne with hlt | hgt
  · obtain ⟨j, rfl⟩ := Nat.exists_eq_succ_of_ne_zero (Nat.ne_zero_of_lt hlt)
    have hbelow := strictMono_magnitudeAt.monotone (Nat.le_of_lt_succ hlt)
    have hnext := strictMono_magnitudeAt (Nat.lt_succ_self j)
    have hlower := hr.lower j rfl
    have heven := hr.even_of_lower j rfl
    unfold midpoint at hlower heven
    rw [abs_of_nonpos (by linarith : magnitudeAt p - r ≤ 0)]
    refine ⟨abs_le.2 ⟨by linarith, by linarith⟩, fun htie => heven ?_⟩
    rcases abs_cases (magnitudeAt j.succ - r) with ⟨habs, -⟩ | ⟨habs, -⟩ <;> linarith
  · have habove := strictMono_magnitudeAt.monotone hgt
    have hnext := strictMono_magnitudeAt (Nat.lt_succ_self n)
    have hupper := hr.upper
    have heven := hr.even_of_upper
    unfold midpoint at hupper heven
    rw [abs_of_nonneg (by linarith : 0 ≤ magnitudeAt p - r)]
    refine ⟨abs_le.2 ⟨by linarith, by linarith⟩, fun htie => heven ?_⟩
    rcases abs_cases (magnitudeAt n - r) with ⟨habs, -⟩ | ⟨habs, -⟩ <;> linarith

end RoundsTo

/-- A magnitude rounds to itself. -/
theorem roundsTo_magnitudeAt (n : Nat) : RoundsTo (magnitudeAt n) n where
  lower p hp := hp ▸ (midpoint_lt_magnitudeAt p).le
  upper := (magnitudeAt_lt_midpoint n).le
  even_of_lower p hp h := absurd h (hp ▸ (midpoint_lt_magnitudeAt p).ne)
  even_of_upper h := absurd h (magnitudeAt_lt_midpoint n).ne

/-! ## Rounding a quotient -/

/-- A natural that is nearest to a number, the even one on a tie. -/
structure NearestTo (t : ℚ) (m : Nat) : Prop where
  lower : m - 1 / 2 ≤ t
  upper : t ≤ m + 1 / 2
  even_of_lower : m - 1 / 2 = t → m % 2 = 0
  even_of_upper : t = m + 1 / 2 → m % 2 = 0

theorem nearestTo_roundQuotient (num : Nat) {den : Nat} (hden : 0 < den) :
    NearestTo (num / den) (roundQuotient num den) := by
  have hpos : (0 : ℚ) < den := by exact_mod_cast hden
  obtain ⟨below, hbelow⟩ : ∃ below, num / den = below := ⟨_, rfl⟩
  obtain ⟨rest, hrest⟩ : ∃ rest, num % den = rest := ⟨_, rfl⟩
  obtain ⟨t, ht⟩ : ∃ t : ℚ, t * den = rest := ⟨rest / den, div_mul_cancel₀ _ hpos.ne'⟩
  have hquotient : (num : ℚ) / den = below + t := by
    rw [div_eq_iff hpos.ne', add_mul, ht, ← hbelow, ← hrest]
    exact_mod_cast (Nat.div_add_mod' num den).symm
  have hnonneg : 0 ≤ t := nonneg_of_mul_nonneg_left (ht ▸ Nat.cast_nonneg rest) hpos
  have hlt : t < 1 := by
    refine lt_of_mul_lt_mul_right (a := (den : ℚ)) ?_ hpos.le
    rw [ht, one_mul]
    exact_mod_cast hrest ▸ Nat.mod_lt num hden
  -- The remainder is compared with one half without dividing.
  have hless : 2 * rest < den ↔ t < 1 / 2 := by
    rw [← mul_lt_mul_iff_of_pos_right hpos, ht, ← Nat.cast_lt (α := ℚ)]
    push_cast
    constructor <;> intro h <;> linarith
  have hmore : den < 2 * rest ↔ 1 / 2 < t := by
    rw [← mul_lt_mul_iff_of_pos_right hpos, ht, ← Nat.cast_lt (α := ℚ)]
    push_cast
    constructor <;> intro h <;> linarith
  unfold roundQuotient
  simp only [hbelow, hrest, hquotient, hless, hmore]
  split_ifs with hsmall hlarge heven
  · constructor <;> intros <;> linarith
  · constructor <;> intros <;> push_cast at * <;> linarith
  · exact ⟨by linarith, by linarith, fun _ => heven, fun _ => heven⟩
  · exact ⟨by push_cast; linarith, by push_cast; linarith, fun _ => by omega, fun _ => by omega⟩

/-- A number whose quotient by the unit is nearest to a significand rounds to it. -/
theorem roundsTo_of_nearestTo {k m : Nat} {r : ℚ} (hlow : 2 ^ 52 ≤ m ∨ k = 0) (hhigh : m ≤ 2 ^ 53)
    (hstart : k ≠ 0 → 2 ^ 52 * 2 ^ ((k : Int) - 1074) ≤ r)
    (hnear : NearestTo (r / 2 ^ ((k : Int) - 1074)) m) : RoundsTo r (k * 2 ^ 52 + m) := by
  have hunit : (0 : ℚ) < 2 ^ ((k : Int) - 1074) := by positivity
  have hlower := (le_div_iff₀ hunit).1 hnear.lower
  have hupper := (div_le_iff₀ hunit).1 hnear.upper
  have hparity : (k * 2 ^ 52 + m) % 2 = m % 2 := by omega
  -- The midpoint below is not above the number, and it is the number only for an even one.
  have hbelow (p : Nat) (hp : k * 2 ^ 52 + m = p + 1) :
      midpoint p ≤ r ∧ (midpoint p = r → m % 2 = 0) := by
    by_cases hpower : m = 2 ^ 52 ∧ k ≠ 0
    · obtain ⟨rfl, hk⟩ := hpower
      have := hstart hk
      rw [midpoint_below_power hk hp]
      exact ⟨by linarith, fun _ => by norm_num⟩
    · have hm : m ≠ 0 := by
        rintro rfl
        omega
      rw [midpoint_below (by omega) hhigh hm hp]
      exact ⟨hlower, fun h => hnear.even_of_lower ((eq_div_iff hunit.ne').2 h)⟩
  have habove : r ≤ midpoint (k * 2 ^ 52 + m) ∧
      (r = midpoint (k * 2 ^ 52 + m) → m % 2 = 0) := by
    rcases Nat.lt_or_ge m (2 ^ 53) with hm | hm
    · rw [midpoint_add hlow hm]
      exact ⟨hupper, fun h => hnear.even_of_upper ((div_eq_iff hunit.ne').2 h)⟩
    · obtain rfl : m = 2 ^ 53 := by omega
      rw [show k * 2 ^ 52 + 2 ^ 53 = (k + 1) * 2 ^ 52 + 2 ^ 52 by omega,
        midpoint_add (.inl le_rfl) (by norm_num),
        show ((k + 1 : Nat) : Int) - 1074 = (k : Int) - 1074 + 1 by omega,
        zpow_add_one₀ (by norm_num)]
      push_cast at hupper ⊢
      exact ⟨by linarith, fun _ => by norm_num⟩
  rw [← hparity] at hbelow habove
  exact ⟨fun p hp => (hbelow p hp).1, habove.1, fun p hp => (hbelow p hp).2, habove.2⟩

/-- The exponent for rounding: the quotient has fifty-three binary digits over it, or fewer at the
bottom of the range. -/
theorem roundingExponent_bounds {num den : Nat} (hnum : num ≠ 0) (hden : den ≠ 0) :
    -1074 ≤ roundingExponent num den ∧
    (roundingExponent num den ≠ -1074 →
      2 ^ 52 * 2 ^ roundingExponent num den ≤ (num : ℚ) / den) ∧
    (num : ℚ) / den < 2 ^ 53 * 2 ^ roundingExponent num den := by
  have hdenPos : (0 : ℚ) < den := by exact_mod_cast Nat.pos_of_ne_zero hden
  have hpow (a : Nat) (b : Int) : (2 : ℚ) ^ a * 2 ^ b = 2 ^ ((a : Int) + b) := by
    rw [zpow_add₀ (by norm_num), zpow_natCast]
  obtain ⟨guess, hguess⟩ : ∃ guess, (num.log2 : Int) - (den.log2 : Int) - 53 = guess := ⟨_, rfl⟩
  -- The quotient has one binary digit more or less than the logarithms say.
  have hlow : (2 : ℚ) ^ 52 * 2 ^ guess ≤ num / den := by
    have hnumLow : ((2 ^ num.log2 : Nat) : ℚ) ≤ num := by exact_mod_cast Nat.log2_self_le hnum
    have hdenHigh : (den : ℚ) ≤ (2 ^ (den.log2 + 1) : Nat) := by exact_mod_cast Nat.lt_log2_self.le
    rw [hpow, show ((52 : Nat) : Int) + guess = (num.log2 : Int) - ((den.log2 + 1 : Nat) : Int) by
      push_cast; omega, zpow_sub₀ (by norm_num), zpow_natCast, zpow_natCast]
    push_cast at hnumLow hdenHigh
    exact div_le_div₀ (by positivity) hnumLow hdenPos hdenHigh
  have hhigh : (num : ℚ) / den < 2 ^ 54 * 2 ^ guess := by
    have hnumHigh : (num : ℚ) < (2 ^ (num.log2 + 1) : Nat) := by exact_mod_cast Nat.lt_log2_self
    have hdenLow : ((2 ^ den.log2 : Nat) : ℚ) ≤ den := by exact_mod_cast Nat.log2_self_le hden
    rw [hpow, show ((54 : Nat) : Int) + guess = ((num.log2 + 1 : Nat) : Int) - (den.log2 : Int) by
      push_cast; omega, zpow_sub₀ (by norm_num), zpow_natCast, zpow_natCast]
    push_cast at hnumHigh hdenLow
    exact div_lt_div₀ hnumHigh hdenLow (by positivity) (by positivity)
  have hwide : den * Nat.pow 2 guess.toNat * Nat.pow 2 53 ≤ num * Nat.pow 2 (-guess).toNat ↔
      (2 : ℚ) ^ 53 * 2 ^ guess ≤ num / den := by
    rw [Decimal.zpow_eq_div, le_div_iff₀ hdenPos, ← mul_div_assoc, div_mul_eq_mul_div,
      div_le_iff₀ (by positivity), ← Nat.cast_le (α := ℚ)]
    simp only [Nat.pow_eq]
    push_cast
    constructor <;> intro h <;> linarith
  obtain ⟨e, he, hlow, hhigh⟩ : ∃ e, roundingExponent num den = max e (-1074) ∧
      (2 : ℚ) ^ 52 * 2 ^ e ≤ num / den ∧ (num : ℚ) / den < 2 ^ 53 * 2 ^ e := by
    unfold roundingExponent
    simp only [hguess, hwide]
    have hnext : (2 : ℚ) ^ (guess + 1) = 2 ^ guess * 2 := zpow_add_one₀ (by norm_num) guess
    split
    · refine ⟨guess + 1, rfl, ?_, ?_⟩ <;> rw [hnext] <;> linarith
    · exact ⟨guess, rfl, hlow, by linarith⟩
  rw [he]
  refine ⟨le_max_right _ _, fun hne => ?_, hhigh.trans_le ?_⟩
  · rwa [max_eq_left (by omega)]
  · exact mul_le_mul_of_nonneg_left (zpow_le_zpow_right₀ (by norm_num) (le_max_left _ _))
      (by positivity)

/-- The number of the magnitude that a quotient is rounded to, were there no infinity. -/
def roundedBits (num den : Nat) : Nat :=
  (roundingExponent num den + 1074).toNat * 2 ^ 52 +
    roundQuotient (num * 2 ^ (-roundingExponent num den).toNat)
      (den * 2 ^ (roundingExponent num den).toNat)

theorem ofRatio_eq {num den : Nat} (negative : Bool) (hnum : num ≠ 0) :
    ofRatio negative num den =
      ofMagnitudeBits negative (min (roundedBits num den) (2047 * 2 ^ 52)) := by
  simp only [ofRatio, if_neg hnum, roundedBits, Nat.pow_eq]

/-- A quotient rounds to the magnitude that it is rounded to. -/
theorem roundsTo_roundedBits {num den : Nat} (hnum : num ≠ 0) (hden : den ≠ 0) :
    RoundsTo (num / den) (roundedBits num den) := by
  obtain ⟨hbottom, hlow, hhigh⟩ := roundingExponent_bounds hnum hden
  unfold roundedBits
  generalize roundingExponent num den = q at hbottom hlow hhigh
  obtain ⟨k, hk⟩ : ∃ k : Nat, q = (k : Int) - 1074 := ⟨(q + 1074).toNat, by omega⟩
  have hunit : (0 : ℚ) < 2 ^ q := by positivity
  have hnear := nearestTo_roundQuotient (num * 2 ^ (-q).toNat)
    (show 0 < den * 2 ^ q.toNat by positivity)
  generalize roundQuotient (num * 2 ^ (-q).toNat) (den * 2 ^ q.toNat) = m at hnear
  have hscaled : ((num * 2 ^ (-q).toNat : Nat) : ℚ) / (den * 2 ^ q.toNat : Nat) =
      num / den / 2 ^ q := by
    rw [Decimal.zpow_eq_div]
    push_cast
    field_simp
  rw [hscaled] at hnear
  -- Rounding up may reach the next power of two, and goes no further.
  have hhigh' : (num : ℚ) / den / 2 ^ q < 2 ^ 53 := (div_lt_iff₀ hunit).2 hhigh
  have hm : m ≤ 2 ^ 53 := by
    have : (m : ℚ) < (2 ^ 53 + 1 : Nat) := by
      push_cast
      linarith [hnear.lower]
    exact Nat.lt_succ_iff.1 (by exact_mod_cast this)
  rw [show (q + 1074).toNat = k by omega]
  subst hk
  refine roundsTo_of_nearestTo ?_ hm (fun h => hlow (by omega)) hnear
  -- Only at the bottom of the range may there be fewer digits.
  by_cases hk : k = 0
  · exact .inr hk
  · left
    have hlow' : (2 : ℚ) ^ 52 ≤ num / den / 2 ^ ((k : Int) - 1074) :=
      (le_div_iff₀ hunit).2 (hlow (by omega))
    have : ((2 ^ 52 : Nat) : ℚ) < (m + 1 : Nat) := by
      push_cast
      linarith [hnear.upper]
    exact Nat.lt_succ_iff.1 (by exact_mod_cast this)

/-! ## The magnitude of a double -/

/-- The bits below the sign. -/
def magnitudeBits (x : Binary64) : Nat := x.exponentField * 2 ^ 52 + x.fractionField

variable {x : Binary64}

theorem exponentField_lt (x : Binary64) : x.exponentField < 2 ^ 11 := by
  unfold exponentField
  rw [UInt64.toNat_and]
  exact Nat.and_lt_two_pow _ (by decide)

/-- A double is its sign and the bits below it. -/
theorem ofMagnitudeBits_magnitudeBits (x : Binary64) :
    ofMagnitudeBits x.isNegative x.magnitudeBits = x := by
  have hfield : x.exponentField = x.bits.toNat / 2 ^ 52 % 2 ^ 11 := by
    unfold exponentField
    rw [UInt64.toNat_and, UInt64.toNat_shiftRight]
    exact (Nat.and_two_pow_sub_one_eq_mod _ 11).trans (by simp [Nat.shiftRight_eq_div_pow])
  have hfraction : x.fractionField = x.bits.toNat % 2 ^ 52 := by
    unfold fractionField
    rw [UInt64.toNat_and]
    exact Nat.and_two_pow_sub_one_eq_mod _ 52
  have hsign : x.isNegative = true ↔ x.bits.toNat / 2 ^ 63 = 1 := by
    rw [isNegative, beq_iff_eq, ← UInt64.toNat_inj, UInt64.toNat_shiftRight]
    simp [Nat.shiftRight_eq_div_pow]
  have hrange : x.bits.toNat < 2 ^ 64 := x.bits.toNat_lt
  have hbits : x.magnitudeBits < 2 ^ 63 := by
    unfold magnitudeBits
    omega
  have htoNat : (ofMagnitudeBits x.isNegative x.magnitudeBits).bits.toNat = x.bits.toNat := by
    rw [toNat_ofMagnitudeBits hbits, magnitudeBits]
    simp only [hsign]
    split <;> omega
  cases x
  exact congrArg mk (UInt64.toNat_inj.1 htoNat)

/-- The bits below the sign, as the significand over an exponent field. -/
theorem magnitudeBits_eq (x : Binary64) : ∃ k, x.magnitudeBits = k * 2 ^ 52 + x.significand ∧
    x.exponent = (k : Int) - 1074 ∧ (2 ^ 52 ≤ x.significand ∨ k = 0) ∧
    (x.hasNarrowGapBelow = true ↔ x.significand = 2 ^ 52 ∧ k ≠ 0) := by
  have hfraction := fractionField_lt x
  refine ⟨x.exponentField - 1, ?_⟩
  unfold magnitudeBits significand exponent hasNarrowGapBelow
  simp only [Nat.pow_eq, Bool.and_eq_true, beq_iff_eq, decide_eq_true_eq]
  split <;> omega

theorem magnitudeBits_ne_zero (hx : x.significand ≠ 0) : x.magnitudeBits ≠ 0 := by
  obtain ⟨k, hbits, -, -, -⟩ := magnitudeBits_eq x
  omega

theorem abs_value_eq (x : Binary64) : |x.value| = magnitudeAt x.magnitudeBits := by
  obtain ⟨k, hbits, hexponent, hlow, -⟩ := magnitudeBits_eq x
  rw [abs_value, hbits, magnitudeAt_add hlow (significand_lt x).le, hexponent]

/-- A double rounds to itself. -/
theorem roundsTo_abs_value (x : Binary64) : RoundsTo |x.value| x.magnitudeBits :=
  abs_value_eq x ▸ roundsTo_magnitudeAt x.magnitudeBits

theorem magnitudeBits_lt (h : x.isFinite = true) : x.magnitudeBits < 2047 * 2 ^ 52 := by
  have hfraction := fractionField_lt x
  have hfield := exponentField_lt x
  rw [isFinite, bne_iff_ne] at h
  unfold magnitudeBits
  omega

/-- A quotient is rounded to a finite double exactly when it rounds to its magnitude. -/
theorem ofRatio_eq_iff {num den : Nat} (h : x.isFinite = true) (hnum : num ≠ 0) (hden : den ≠ 0) :
    ofRatio x.isNegative num den = x ↔ RoundsTo (num / den) x.magnitudeBits := by
  have hfinite := magnitudeBits_lt h
  have hrounds := roundsTo_roundedBits hnum hden
  rw [ofRatio_eq _ hnum]
  constructor
  · intro heq
    have hbits : min (roundedBits num den) (2047 * 2 ^ 52) = x.magnitudeBits := by
      have hsmall : min (roundedBits num den) (2047 * 2 ^ 52) < 2 ^ 63 := by omega
      rw [magnitudeBits, ← congrArg exponentField heq, ← congrArg fractionField heq,
        exponentField_ofMagnitudeBits hsmall, fractionField_ofMagnitudeBits hsmall]
      omega
    rwa [← show roundedBits num den = x.magnitudeBits by omega]
  · intro hx
    rw [hrounds.unique hx, Nat.min_eq_left hfinite.le, ofMagnitudeBits_magnitudeBits]

/-- A decimal is read as a finite double exactly when it rounds to its magnitude. -/
theorem ofDecimal_eq_iff {d : Decimal} (h : x.isFinite = true) (hd : d.digits ≠ 0) :
    ofDecimal x.isNegative d.digits d.exponent = x ↔ RoundsTo d.value x.magnitudeBits := by
  have hvalue : d.value =
      ((d.digits * 10 ^ d.exponent.toNat : Nat) : ℚ) / (10 ^ (-d.exponent).toNat : Nat) := by
    rw [Decimal.value, Decimal.zpow_eq_div]
    push_cast
    rw [mul_div_assoc]
  rw [ofDecimal, hvalue]
  exact ofRatio_eq_iff h (by simp [hd]) (by simp)

/-- No double is nearer to a decimal than the finite one that it is read as. -/
theorem nearest_of_ofDecimal {d : Decimal} (h : x.isFinite = true) (hd : d.digits ≠ 0)
    (hread : ofDecimal x.isNegative d.digits d.exponent = x) (y : Binary64) :
    |(|x.value|) - d.value| ≤ |(|y.value|) - d.value| := by
  have hrounds := (ofDecimal_eq_iff h hd).1 hread
  rw [abs_value_eq, abs_value_eq]
  rcases eq_or_ne y.magnitudeBits x.magnitudeBits with heq | hne
  · rw [heq]
  · exact (hrounds.nearest hne).1

theorem roundsTo_succ_iff {r : ℚ} {p : Nat} : RoundsTo r (p + 1) ↔
    (midpoint p < r ∨ (p + 1) % 2 = 0 ∧ r = midpoint p) ∧
    (r < midpoint (p + 1) ∨ (p + 1) % 2 = 0 ∧ r = midpoint (p + 1)) := by
  constructor
  · intro h
    refine ⟨?_, ?_⟩
    · rcases (h.lower p rfl).lt_or_eq with hlt | heq
      · exact .inl hlt
      · exact .inr ⟨h.even_of_lower p rfl heq, heq.symm⟩
    · rcases h.upper.lt_or_eq with hlt | heq
      · exact .inl hlt
      · exact .inr ⟨h.even_of_upper heq, heq⟩
  · rintro ⟨hlower, hupper⟩
    refine ⟨?_, ?_, ?_, ?_⟩
    · rintro j hj
      obtain rfl := Nat.succ_injective hj
      rcases hlower with h | h
      · exact h.le
      · exact h.2.ge
    · rcases hupper with h | h
      · exact h.le
      · exact h.2.le
    · rintro j hj heq
      obtain rfl := Nat.succ_injective hj
      rcases hlower with h | h
      · exact absurd heq h.ne
      · exact h.1
    · intro heq
      rcases hupper with h | h
      · exact absurd heq h.ne
      · exact h.1

/-- The ends of the interval in which a decimal reads back, in quarters of the last binary digit,
are the midpoints to the neighbours. -/
theorem midpoint_magnitudeBits {p : Nat} (hp : x.magnitudeBits = p + 1) (hx : x.significand ≠ 0) :
    midpoint p = ((if x.hasNarrowGapBelow then 4 * x.significand - 1
      else 4 * x.significand - 2 : Nat) : ℚ) * 2 ^ (x.exponent - 2) ∧
    midpoint (p + 1) = ((4 * x.significand + 2 : Nat) : ℚ) * 2 ^ (x.exponent - 2) := by
  obtain ⟨k, hbits, hexponent, hlow, hnarrow⟩ := magnitudeBits_eq x
  rw [quarter_unit, ← hp, hbits, midpoint_add hlow (significand_lt x), hexponent]
  rw [hbits] at hp
  constructor
  · split
    · rename_i h
      obtain ⟨hpower, hk⟩ := hnarrow.1 h
      rw [hpower] at hp ⊢
      rw [midpoint_below_power hk hp, Nat.cast_sub (by norm_num)]
      push_cast
      ring
    · rename_i h
      have hnot := mt hnarrow.2 h
      rw [midpoint_below (by omega) (significand_lt x).le hx hp, Nat.cast_sub (by omega)]
      push_cast
      ring
  · push_cast
    ring

/-- A decimal reads back exactly when it rounds to the magnitude. -/
theorem readsBack_iff {d : Decimal} (hx : x.significand ≠ 0) :
    x.readsBack d = true ↔ RoundsTo d.value x.magnitudeBits := by
  obtain ⟨k, hbits, -, -, -⟩ := magnitudeBits_eq x
  obtain ⟨p, hp⟩ := Nat.exists_eq_succ_of_ne_zero (magnitudeBits_ne_zero hx)
  obtain ⟨hbelow, habove⟩ := midpoint_magnitudeBits hp hx
  have hparity : (p + 1) % 2 = x.significand % 2 := by omega
  simp only [readsBack, Decimal.compareScaled_eq, ← hbelow, ← habove]
  rw [hp, roundsTo_succ_iff, hparity, Decimal.value]
  simp [compare_gt_iff_gt, compare_lt_iff_lt]

end LiveTemplate.Binary64
