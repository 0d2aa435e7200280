import LiveTemplate.Proofs.Binary64.Digits
import LiveTemplate.Proofs.Template.Repaint

/-!
# When a write may be skipped

A write stores nothing where the field holds the same value already.  Sameness is reflexive and
symmetric.  As long as every integer involved is one that a double can hold, it is transitive as well
and two scalars that are the same are shown alike, so that a skipped write cannot be seen.  A larger
integer is compared with a double after rounding, and then neither holds.
-/

namespace LiveTemplate

namespace Binary64

theorem sameNumber_refl (x : Binary64) : x.sameNumber x = true := by
  simp [sameNumber]

theorem sameNumber_comm (x y : Binary64) : x.sameNumber y = y.sameNumber x := by
  rw [sameNumber, sameNumber, Bool.and_comm, Bool.beq_comm]

theorem sameNumber_trans {x y z : Binary64} (h : x.sameNumber y = true)
    (h' : y.sameNumber z = true) : x.sameNumber z = true := by
  simp only [sameNumber, Bool.or_eq_true, Bool.and_eq_true, beq_iff_eq] at h h' ⊢
  obtain rfl | ⟨hx, hy⟩ := h
  · exact h'
  · obtain rfl | ⟨-, hz⟩ := h'
    · exact .inr ⟨hx, hy⟩
    · exact .inr ⟨hx, hz⟩

/-- The bits of a rounded integer, without the sign. -/
theorem ofInt_eq {n : Int} (hne : n ≠ 0) :
    ∃ bits, 2 ^ 52 ≤ bits ∧ bits < 2 ^ 63 ∧ ofInt n = ofMagnitudeBits (n < 0) bits := by
  have habs : n.natAbs ≠ 0 := Int.natAbs_ne_zero.2 hne
  refine ⟨_, ?_, ?_, by rw [ofInt, ofRatio, if_neg habs]⟩
  · rw [roundingExponent_one habs]
    refine Nat.le_min.2 ⟨Nat.le_add_right_of_le ?_, by decide⟩
    exact Nat.le_mul_of_pos_left _ (by omega)
  · exact (Nat.min_le_right _ _).trans_lt (by decide)

/-- Rounding keeps the sign. -/
theorem sameNumber_ofInt_of_neg {m n : Int} (hm : m < 0) (hn : 0 < n) :
    (ofInt m).sameNumber (ofInt n) = false := by
  obtain ⟨bits, -, hbits, hofm⟩ := ofInt_eq hm.ne
  obtain ⟨bits', hlow', hbits', hofn⟩ := ofInt_eq hn.ne'
  have hzero : (ofInt n).isZero = false := by
    rw [hofn, isZero, exponentField_ofMagnitudeBits hbits', beq_eq_false_iff_ne.2 (by omega),
      Bool.false_and]
  have hne : ofInt m ≠ ofInt n := by
    intro heq
    have hsign := congrArg isNegative heq
    rw [hofm, hofn, isNegative_ofMagnitudeBits hbits, isNegative_ofMagnitudeBits hbits',
      decide_eq_true hm, decide_eq_false (not_lt.2 hn.le)] at hsign
    cases hsign
  rw [sameNumber, hzero, Bool.and_false, Bool.or_false, beq_eq_false_iff_ne]
  exact hne

end Binary64

namespace Number

/-- The rational number that a number is. -/
def value : Number → ℚ
  | integer n _ => n
  | float x _ => x.value

/-- Whether a number can be told from its neighbours as a double: an integer is one that some double
is, too. -/
def Exact : Number → Prop
  | integer n _ => ∃ x : Binary64, x.value = n
  | float _ _ => True

section Integers

variable {m n : Int} {hm : -9223372036854775808 ≤ m ∧ m < 18446744073709551616}
  {hn : -9223372036854775808 ≤ n ∧ n < 18446744073709551616}

theorem sameNumber_of_signed (hsmall : m < 9223372036854775808) (hsmall' : n < 9223372036854775808) :
    (integer m hm).sameNumber (integer n hn) = decide (m = n) := by
  simp [sameNumber, asSigned?, hsmall, hsmall', beq_eq_decide]

theorem sameNumber_of_unsigned (hnonneg : 0 ≤ m) (hnonneg' : 0 ≤ n) :
    (integer m hm).sameNumber (integer n hn) = decide (m = n) := by
  by_cases hsmall : m < 9223372036854775808 ∧ n < 9223372036854775808
  · exact sameNumber_of_signed hsmall.1 hsmall.2
  · rcases not_and_or.1 hsmall with h | h <;>
    simp [sameNumber, asSigned?, asUnsigned?, h, hnonneg, hnonneg', beq_eq_decide]

/-- A negative integer and one that is too large for the signed form are compared as doubles. -/
theorem sameNumber_of_mixed (hneg : m < 0) (hlarge : ¬ n < 9223372036854775808) :
    (integer m hm).sameNumber (integer n hn) = false ∧
      (integer n hn).sameNumber (integer m hm) = false := by
  have hfloat := Binary64.sameNumber_ofInt_of_neg hneg (by omega : 0 < n)
  have hnegative : ¬ 0 ≤ m := by omega
  constructor
  · simpa [sameNumber, asSigned?, asUnsigned?, hnegative, hlarge, toFloat] using hfloat
  · rw [Binary64.sameNumber_comm] at hfloat
    simpa [sameNumber, asSigned?, asUnsigned?, hnegative, hlarge, toFloat] using hfloat

/-- Two integers are the same if they are equal, whatever their forms are. -/
theorem sameNumber_integer : (integer m hm).sameNumber (integer n hn) = decide (m = n) := by
  by_cases hnonneg : 0 ≤ m ∧ 0 ≤ n
  · exact sameNumber_of_unsigned hnonneg.1 hnonneg.2
  by_cases hsmall : m < 9223372036854775808 ∧ n < 9223372036854775808
  · exact sameNumber_of_signed hsmall.1 hsmall.2
  have hne : m ≠ n := by omega
  rw [decide_eq_false hne]
  rcases not_and_or.1 hsmall with h | h
  · exact (sameNumber_of_mixed (by omega) h).2
  · exact (sameNumber_of_mixed (by omega) h).1

end Integers

/-- Where a double is involved, both numbers are compared as doubles. -/
theorem sameNumber_float {a b : Number} {x : Binary64} {hx : x.isFinite = true}
    (h : a = float x hx ∨ b = float x hx) : a.sameNumber b = a.toFloat.sameNumber b.toFloat := by
  rcases h with rfl | rfl
  · simp [sameNumber, asSigned?, asUnsigned?]
  · unfold sameNumber
    cases a with
    | integer n hn => split <;> simp_all [asSigned?, asUnsigned?]
    | float y hy => simp [asSigned?, asUnsigned?]

theorem sameNumber_refl (a : Number) : a.sameNumber a = true := by
  cases a with
  | integer n hn => rw [sameNumber_integer, decide_eq_true rfl]
  | float x hx => rw [sameNumber_float (.inl rfl), Binary64.sameNumber_refl]

theorem sameNumber_comm (a b : Number) : a.sameNumber b = b.sameNumber a := by
  cases a with
  | float x hx =>
      rw [sameNumber_float (.inl rfl), sameNumber_float (.inr rfl), Binary64.sameNumber_comm]
  | integer m hm =>
      cases b with
      | integer n hn =>
          rw [sameNumber_integer, sameNumber_integer, decide_eq_decide.2 eq_comm]
      | float y hy =>
          rw [sameNumber_float (.inr rfl), sameNumber_float (.inl rfl), Binary64.sameNumber_comm]

/-- Rounding does not change an exact number. -/
theorem value_toFloat {a : Number} (h : a.Exact) : a.toFloat.value = a.value := by
  cases a with
  | integer n hn =>
      obtain ⟨x, hx⟩ := h
      exact Binary64.value_ofInt hx (by omega)
  | float x hx => rfl

/-- Exact numbers that are the same are equal. -/
theorem value_eq_of_sameNumber {a b : Number} (ha : a.Exact) (hb : b.Exact)
    (h : a.sameNumber b = true) : a.value = b.value := by
  have hfloats (h : a.toFloat.sameNumber b.toFloat = true) : a.value = b.value := by
    rw [← value_toFloat ha, ← value_toFloat hb, Binary64.value_eq_of_sameNumber h]
  cases a with
  | float x hx => exact hfloats (by rw [← sameNumber_float (.inl rfl), h])
  | integer m hm =>
      cases b with
      | float y hy => exact hfloats (by rw [← sameNumber_float (.inr rfl), h])
      | integer n hn =>
          rw [sameNumber_integer, decide_eq_true_iff] at h
          exact congrArg Int.cast h

theorem sameNumber_trans {a b c : Number} (ha : a.Exact) (hb : b.Exact) (hc : c.Exact)
    (h : a.sameNumber b = true) (h' : b.sameNumber c = true) : a.sameNumber c = true := by
  have hvalue := (value_eq_of_sameNumber ha hb h).trans (value_eq_of_sameNumber hb hc h')
  -- Two integers are equal in any case; where a double is at an end, all three compare as doubles,
  -- but for an integer beside an equal integer.
  cases a with
  | integer m hm =>
      cases c with
      | integer n hn =>
          rw [sameNumber_integer, decide_eq_true_iff]
          exact Int.cast_injective (show (m : ℚ) = n from hvalue)
      | float z hz =>
          cases b with
          | integer k hk =>
              rw [sameNumber_integer, decide_eq_true_iff] at h
              subst h
              exact h'
          | float y hy =>
              rw [sameNumber_float (.inr rfl)] at h h' ⊢
              exact Binary64.sameNumber_trans h h'
  | float x hx =>
      cases b with
      | float y hy =>
          rw [sameNumber_float (.inl rfl)] at h h' ⊢
          exact Binary64.sameNumber_trans h h'
      | integer k hk =>
          cases c with
          | integer n hn =>
              rw [sameNumber_integer, decide_eq_true_iff] at h'
              subst h'
              exact h
          | float z hz =>
              rw [sameNumber_float (.inl rfl)] at h ⊢
              rw [sameNumber_float (.inr rfl)] at h'
              exact Binary64.sameNumber_trans h h'

/-- Doubles that compare as equal are shown alike. -/
theorem displayText_of_sameNumber {x y : Binary64} (h : x.sameNumber y = true) :
    x.displayText = y.displayText := by
  simp only [Binary64.sameNumber, Bool.or_eq_true, Bool.and_eq_true, beq_iff_eq] at h
  obtain rfl | ⟨hx, hy⟩ := h
  · rfl
  · rw [Binary64.displayText, Binary64.displayText, if_pos hx, if_pos hy]

/-- Exact numbers that are the same are shown alike. -/
theorem displayText_eq {a b : Number} (ha : a.Exact) (hb : b.Exact) (h : a.sameNumber b = true) :
    a.displayText = b.displayText := by
  have hvalue := value_eq_of_sameNumber ha hb h
  cases a with
  | integer m hm =>
      cases b with
      | integer n hn =>
          rw [sameNumber_integer, decide_eq_true_iff] at h
          exact congrArg toString h
      | float y hy => exact (Binary64.displayText_of_value_eq hvalue.symm (by omega)).symm
  | float x hx =>
      cases b with
      | integer n hn => exact Binary64.displayText_of_value_eq hvalue (by omega)
      | float y hy =>
          rw [sameNumber_float (.inl rfl)] at h
          exact displayText_of_sameNumber h

end Number

namespace Value

/-- Values that compare by what they are: null, truth values, numbers and texts. -/
def IsScalar : Value → Prop
  | array _ _ => False
  | object _ => False
  | _ => True

/-- A number is exact; any other value is. -/
def Exact : Value → Prop
  | number n => n.Exact
  | _ => True

theorem sameValue_refl (a : Value) : a.sameValue a = true := by
  cases a <;> simp [sameValue, Number.sameNumber_refl]

theorem sameValue_comm (a b : Value) : a.sameValue b = b.sameValue a := by
  cases a <;> cases b <;> simp [sameValue, Number.sameNumber_comm, Bool.beq_comm]

theorem sameValue_trans {a b c : Value} (ha : a.Exact) (hb : b.Exact) (hc : c.Exact)
    (h : a.sameValue b = true) (h' : b.sameValue c = true) : a.sameValue c = true := by
  cases a <;> cases b <;> cases c <;> simp_all [sameValue]
  exact Number.sameNumber_trans ha hb hc h h'

theorem display_eq {a b : Value} (ha : a.Exact) (hb : b.Exact) (hscalar : a.IsScalar)
    (h : a.sameValue b = true) : a.display = b.display := by
  cases a <;> cases b <;> simp_all [sameValue, IsScalar, display]
  exact Number.displayText_eq ha hb h

/-- Sameness of values is reflexive and symmetric.  If every integer involved is one that a double
can hold, it is transitive, scalars that are the same are shown alike, and whatever a field holds, a
write of a scalar leaves it with a value that is shown as the written one, be it stored or
skipped. -/
theorem sameValue_sound {σ : Type} (a b c : Value) (ha : a.Exact) (hb : b.Exact) (hc : c.Exact) :
    a.sameValue a = true ∧ a.sameValue b = b.sameValue a ∧
      (a.sameValue b = true → b.sameValue c = true → a.sameValue c = true) ∧
      (a.IsScalar → a.sameValue b = true → a.display = b.display) ∧
      ∀ (s : Store σ) (field : FieldId), field < s.fields.size → s.peek field = a →
        a.IsScalar → ((s.assign field b).peek field).display = b.display := by
  refine ⟨a.sameValue_refl, a.sameValue_comm b, sameValue_trans ha hb hc, display_eq ha hb, ?_⟩
  intro s field hfield hpeek hscalar
  rw [Store.peek_assign (Array.getElem?_eq_getElem hfield), Function.update_self, hpeek]
  split
  · rename_i hsame
    exact display_eq ha hb hscalar hsame
  · rfl

/-- The number `2 ^ 53` as an integer. -/
def wide : Value := .number (.integer 9007199254740992 (by decide))

/-- The number `2 ^ 53` as a double. -/
def wideDouble : Value := .number (.float ⟨0x4340000000000000⟩ (by decide))

/-- The number `2 ^ 53 + 1`, which is no double. -/
def wideNext : Value := .number (.integer 9007199254740993 (by decide))

/-- An integer and the double that it is, at the end of the range in which all integers are
doubles. -/
theorem sameValue_sound_wide :
    wide.Exact ∧ wideDouble.Exact ∧ wide.sameValue wideDouble = true ∧
      wide.display = wideDouble.display := by
  have hvalue : (⟨0x4340000000000000⟩ : Binary64).value = (9007199254740992 : Int) := by
    have hsign : (⟨0x4340000000000000⟩ : Binary64).isNegative = false := by decide
    have hsignificand : (⟨0x4340000000000000⟩ : Binary64).significand = 4503599627370496 := by
      decide
    have hexponent : (⟨0x4340000000000000⟩ : Binary64).exponent = 1 := by decide
    rw [Binary64.value, hsign, hsignificand, hexponent]
    norm_num
  have hwide : wide.Exact := ⟨_, hvalue⟩
  have hsame : wide.sameValue wideDouble = true := by decide
  exact ⟨hwide, trivial, hsame, (sameValue_sound (σ := Unit) wide wideDouble wide hwide trivial
    hwide).2.2.2.1 trivial hsame⟩

/-- Beyond that range sameness is not transitive, and values that are the same are not shown
alike. -/
theorem sameValue_blurs :
    wideNext.sameValue wideDouble = true ∧ wideDouble.sameValue wide = true ∧
      wideNext.sameValue wide = false ∧ wideNext.display ≠ wideDouble.display := by
  decide +kernel

end Value

end LiveTemplate
