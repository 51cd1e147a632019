import Mathlib.Algebra.Order.Field.Power
import Mathlib.Data.Rat.Cast.Order
import Mathlib.Tactic.Linarith
import ProxyEngine.Number.Binary64

/-! Doubles and the numbers they hold. A finite double is a rational number, an
integer in units of the least positive double up to its sign, and only the two zeros
are one number under two words. Comparison of doubles is therefore equality of words,
the two zeros taken together. The double of a 32-bit integer holds that integer. -/

namespace ProxyEngine.Binary64

variable {x y : Binary64} {m : Nat}

def isFinite (x : Binary64) : Bool :=
  !x.isSpecial

def isZero (x : Binary64) : Bool :=
  x.exponentField == 0 && x.fraction == 0

/-- Comparison of doubles: NaN equals nothing, and the two zeros equal each other. -/
def equals (x y : Binary64) : Bool :=
  !x.isNaN && !y.isNaN && (x == y || x.isZero && y.isZero)

/-- The distance of a finite double from zero in units of the least positive one. -/
def magnitude (x : Binary64) : Nat :=
  x.significand * 2 ^ (max x.exponentField 1 - 1)

def sign (x : Binary64) : ℚ :=
  if x.isNegative then -1 else 1

/-- The number a finite double holds. -/
def toRat (x : Binary64) : ℚ :=
  x.sign * (x.significand * 2 ^ x.scale)

theorem sign_ne_zero (x : Binary64) : x.sign ≠ 0 := by
  unfold sign
  split <;> simp

theorem toRat_eq (x : Binary64) : x.toRat = x.sign * (x.magnitude * 2 ^ (-1074 : ℤ)) := by
  have scale : x.scale = ((max x.exponentField 1 - 1 : ℕ) : ℤ) + -1074 := by
    unfold Binary64.scale
    omega
  rw [toRat, magnitude, scale, zpow_add₀ two_ne_zero, zpow_natCast, Nat.cast_mul, Nat.cast_pow,
    Nat.cast_ofNat, mul_assoc (x.significand : ℚ)]

theorem significand_of_normal (normal : x.exponentField ≠ 0) :
    x.significand = 0x10000000000000 + x.fraction := by
  rw [significand, if_neg normal]

theorem exponent_le_of_magnitude (same : x.magnitude = y.magnitude) :
    max y.exponentField 1 ≤ max x.exponentField 1 := by
  -- Were the exponent of `y` larger, `y` would be normal, and a significand of 53 bits at
  -- least doubled would be the significand of `x`.
  refine Nat.le_of_not_lt fun below => ?_
  have normal : y.exponentField ≠ 0 := by omega
  have large := significand_of_normal normal
  have bound := x.significand_lt
  have exponents : max y.exponentField 1 - 1 =
      max y.exponentField 1 - max x.exponentField 1 - 1 + 1 + (max x.exponentField 1 - 1) := by
    omega
  have positive : 0 < 2 ^ (max y.exponentField 1 - max x.exponentField 1 - 1) :=
    Nat.two_pow_pos _
  have same : x.significand = y.significand *
      (2 ^ (max y.exponentField 1 - max x.exponentField 1 - 1) * 2) := by
    rw [magnitude, magnitude, exponents, Nat.pow_add, Nat.pow_succ, ← Nat.mul_assoc] at same
    exact Nat.eq_of_mul_eq_mul_right (Nat.two_pow_pos _) same
  have doubled : y.significand * 2 ≤ x.significand := by
    rw [same]
    exact Nat.mul_le_mul_left _ (by omega)
  omega

theorem bits_eq (x : Binary64) :
    x.bits.toNat = (if x.isNegative then 0x8000000000000000 else 0) +
      x.exponentField * 0x10000000000000 + x.fraction := by
  have bound := x.bits.toNat_lt
  simp only [isNegative, exponentField, fraction, decide_eq_true_eq]
  split <;> omega

theorem eq_of_magnitude (signs : x.isNegative = y.isNegative)
    (same : x.magnitude = y.magnitude) : x = y := by
  have exponents : max x.exponentField 1 = max y.exponentField 1 :=
    Nat.le_antisymm (exponent_le_of_magnitude same.symm) (exponent_le_of_magnitude same)
  have significands : x.significand = y.significand := by
    rw [magnitude, magnitude, exponents] at same
    exact Nat.eq_of_mul_eq_mul_right (Nat.two_pow_pos _) same
  have fraction := x.fraction_lt
  have fraction' := y.fraction_lt
  have words : x.bits.toNat = y.bits.toNat := by
    rw [bits_eq, bits_eq, signs]
    unfold significand at significands
    split at significands <;> split at significands <;> omega
  cases x
  cases y
  exact congrArg Binary64.mk (UInt64.toNat_inj.1 words)

theorem isZero_iff : x.isZero ↔ x.magnitude = 0 := by
  have positive : 0 < 2 ^ (max x.exponentField 1 - 1) := Nat.two_pow_pos _
  rw [magnitude, Nat.mul_eq_zero, isZero, Bool.and_eq_true, beq_iff_eq, beq_iff_eq, significand]
  split <;> omega

theorem not_isNaN_of_isFinite (finite : x.isFinite) : x.isNaN = false := by
  simp only [isFinite, Bool.not_eq_true'] at finite
  rw [isNaN, finite, Bool.false_and]

theorem unit_pos : (0 : ℚ) < 2 ^ (-1074 : ℤ) :=
  zpow_pos two_pos _

theorem toRat_eq_zero_iff : x.toRat = 0 ↔ x.isZero := by
  rw [toRat_eq, isZero_iff, mul_eq_zero, or_iff_right x.sign_ne_zero, mul_eq_zero,
    or_iff_left unit_pos.ne', Nat.cast_eq_zero]

theorem toRat_eq_toRat_iff : x.toRat = y.toRat ↔ x = y ∨ x.isZero ∧ y.isZero := by
  constructor
  · intro same
    by_cases signs : x.isNegative = y.isNegative
    · left
      rw [toRat_eq, toRat_eq, sign, sign, signs] at same
      have same := mul_right_cancel₀ unit_pos.ne' (mul_left_cancel₀ y.sign_ne_zero same)
      exact eq_of_magnitude signs (Nat.cast_injective same)
    · right
      have nonneg (x : Binary64) : (0 : ℚ) ≤ x.magnitude * 2 ^ (-1074 : ℤ) :=
        mul_nonneg (Nat.cast_nonneg _) unit_pos.le
      have := nonneg x
      have := nonneg y
      rw [← toRat_eq_zero_iff, ← toRat_eq_zero_iff]
      cases negative : x.isNegative <;> cases negative' : y.isNegative <;>
        simp only [toRat_eq, sign, negative, negative', Bool.false_eq_true, if_false, if_true]
          at signs same ⊢
      · contradiction
      · constructor <;> linarith
      · constructor <;> linarith
      · contradiction
  · rintro (rfl | ⟨zero, zero'⟩)
    · rfl
    · rw [toRat_eq_zero_iff.2 zero, toRat_eq_zero_iff.2 zero']

theorem eq_of_isZero (zero : x.isZero) (zero' : y.isZero) (signs : x.isNegative = y.isNegative) :
    x = y :=
  eq_of_magnitude signs ((isZero_iff.1 zero).trans (isZero_iff.1 zero').symm)

theorem equals_signs_iff :
    x.isNaN ∧ y.isNaN ∨ x.equals y ∧ x.isNegative = y.isNegative ↔
      x.isNaN ∧ y.isNaN ∨ x = y := by
  constructor
  · rintro (undefined | ⟨equal, signs⟩)
    · exact .inl undefined
    · simp only [equals, Bool.and_eq_true, Bool.or_eq_true, beq_iff_eq] at equal
      obtain ⟨-, equal | ⟨zero, zero'⟩⟩ := equal
      · exact .inr equal
      · exact .inr (eq_of_isZero zero zero' signs)
  · rintro (undefined | rfl)
    · exact .inl undefined
    · cases undefined : x.isNaN <;> simp [equals, undefined]

theorem fields_of_bits {negative : Bool} {exponent fraction : Nat}
    (exponents : exponent < 0x800) (fractions : fraction < 0x10000000000000)
    (bits : x.bits.toNat = (if negative then 0x8000000000000000 else 0) +
      exponent * 0x10000000000000 + fraction) :
    x.isNegative = negative ∧ x.exponentField = exponent ∧ x.fraction = fraction := by
  simp only [isNegative, exponentField, Binary64.fraction, bits]
  cases negative with
  | false =>
    simp only [Bool.false_eq_true, if_false, decide_eq_false_iff_not]
    omega
  | true =>
    simp only [if_true, decide_eq_true_eq]
    omega

theorem wordOfNat_eq (positive : 0 < m) (small : m < 2 ^ 53) :
    m.log2 ≤ 52 ∧ ∃ fraction < 0x10000000000000,
      wordOfNat m = (1023 + m.log2) * 0x10000000000000 + fraction ∧
      0x10000000000000 + fraction = m * 2 ^ (52 - m.log2) := by
  have leading : m.log2 ≤ 52 := by
    have := (Nat.log2_lt positive.ne').2 small
    omega
  have below : 2 ^ m.log2 ≤ m := Nat.log2_self_le positive.ne'
  have above : m < 2 ^ m.log2 * 2 := by
    rw [← Nat.pow_succ]
    exact Nat.lt_log2_self
  have whole : 2 ^ m.log2 * 2 ^ (52 - m.log2) = 0x10000000000000 := by
    rw [← Nat.pow_add, Nat.add_sub_of_le leading]
  have shifted : (m - 2 ^ m.log2) * 2 ^ (52 - m.log2) =
      m * 2 ^ (52 - m.log2) - 0x10000000000000 := by
    rw [Nat.sub_mul, whole]
  have low := Nat.mul_le_mul_right (2 ^ (52 - m.log2)) below
  have high := Nat.mul_lt_mul_of_pos_right above (Nat.two_pow_pos (52 - m.log2))
  rw [Nat.mul_right_comm] at high
  rw [whole] at low high
  refine ⟨leading, (m - 2 ^ m.log2) * 2 ^ (52 - m.log2), ?_, ?_, ?_⟩
  · omega
  · rw [wordOfNat, if_neg positive.ne']
    rfl
  · omega

theorem sign_mul_natAbs (i : ℤ) : (if i < 0 then (-1 : ℚ) else 1) * i.natAbs = i := by
  split
  next negative =>
    rw [← Int.cast_natCast, Int.ofNat_natAbs_of_nonpos negative.le]
    simp
  next nonneg =>
    rw [← Int.cast_natCast, Int.natAbs_of_nonneg (not_lt.1 nonneg), one_mul]

theorem fields_ofInt32 {n : Int32} (nonzero : n.toInt ≠ 0) :
    (ofInt32 n).isNegative = decide (n.toInt < 0) ∧
    (ofInt32 n).exponentField = 1023 + n.toInt.natAbs.log2 ∧ n.toInt.natAbs.log2 ≤ 52 ∧
    (ofInt32 n).significand = n.toInt.natAbs * 2 ^ (52 - n.toInt.natAbs.log2) := by
  have below := n.le_toInt
  have above := n.toInt_lt
  obtain ⟨leading, fraction, small, word, whole⟩ :=
    wordOfNat_eq (m := n.toInt.natAbs) (by omega) (by omega)
  have bits : (ofInt32 n).bits.toNat = (if decide (n.toInt < 0) then 0x8000000000000000 else 0) +
      (1023 + n.toInt.natAbs.log2) * 0x10000000000000 + fraction := by
    simp only [ofInt32, UInt64.toNat_ofNat', word, decide_eq_true_eq]
    split <;> omega
  obtain ⟨sign, exponent, rest⟩ := fields_of_bits (by omega) small bits
  refine ⟨sign, exponent, leading, ?_⟩
  rw [significand_of_normal (by omega), rest, whole]

theorem ofInt32_zero : ofInt32 0 = ⟨0⟩ := by
  decide

theorem ofInt32_of_toInt_eq_zero {n : Int32} (zero : n.toInt = 0) : ofInt32 n = ⟨0⟩ := by
  rw [ofInt32, zero]
  rfl

theorem isFinite_ofInt32 (n : Int32) : (ofInt32 n).isFinite := by
  by_cases zero : n.toInt = 0
  · rw [ofInt32_of_toInt_eq_zero zero]
    decide
  · obtain ⟨-, exponent, leading, -⟩ := fields_ofInt32 zero
    simp only [isFinite, isSpecial, exponent, Bool.not_eq_true', beq_eq_false_iff_ne]
    omega

theorem toRat_ofInt32 (n : Int32) : (ofInt32 n).toRat = n.toInt := by
  by_cases zero : n.toInt = 0
  · rw [ofInt32_of_toInt_eq_zero zero, zero, Int.cast_zero, toRat_eq_zero_iff]
    decide
  · obtain ⟨sign, exponent, leading, significand⟩ := fields_ofInt32 zero
    have scale : (ofInt32 n).scale = -((52 - n.toInt.natAbs.log2 : ℕ) : ℤ) := by
      unfold Binary64.scale
      omega
    have distance : ((ofInt32 n).significand * 2 ^ (ofInt32 n).scale : ℚ) = n.toInt.natAbs := by
      rw [significand, scale, zpow_neg, zpow_natCast, Nat.cast_mul, Nat.cast_pow, Nat.cast_ofNat,
        mul_assoc, mul_inv_cancel₀ (pow_ne_zero _ two_ne_zero), mul_one]
    rw [toRat, distance, Binary64.sign, sign]
    simpa using sign_mul_natAbs n.toInt

theorem isZero_ofInt32_iff {n : Int32} : (ofInt32 n).isZero ↔ n = 0 := by
  rw [← toRat_eq_zero_iff, toRat_ofInt32, Int.cast_eq_zero, ← Int32.toInt_inj]
  rfl

theorem ofInt32_inj {n n' : Int32} (same : ofInt32 n = ofInt32 n') : n = n' := by
  have numbers : (n.toInt : ℚ) = n'.toInt := by
    rw [← toRat_ofInt32, same, toRat_ofInt32]
  exact Int32.toInt_inj.1 (Int.cast_injective numbers)

theorem isNaN_ofInt32 (n : Int32) : (ofInt32 n).isNaN = false :=
  not_isNaN_of_isFinite (isFinite_ofInt32 n)

end ProxyEngine.Binary64
