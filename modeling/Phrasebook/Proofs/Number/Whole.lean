import Mathlib.Algebra.Group.Nat.Defs
import Phrasebook.Number.Basic

/-!
# Integers as numbers

Rounding may take an integer to another number, since a mantissa has 53 bits. No integer but one is
taken to one, so a count selects the text for one exactly when it is one.
-/

namespace Phrasebook.Number

variable {negative : Bool} {count mantissa places : Nat} {exponent : Int}

theorem roundQuotient_one (count : Nat) : roundQuotient count 1 = count := by
  simp [roundQuotient, Nat.mod_one]

theorem isOne_finite :
    (finite negative mantissa exponent).isOne = true ↔
      negative = false ∧ exponent ≤ 0 ∧ mantissa = 2 ^ (-exponent).toNat := by
  cases negative with
  | true => simp [isOne]
  | false => simp [isOne]

/-- A number that is one got its mantissa as it is or halved. -/
theorem isOne_of_isOne_ofMantissa (h : (ofMantissa negative mantissa exponent).isOne = true) :
    (finite negative mantissa exponent).isOne = true ∨
      (finite negative (mantissa / 2) (exponent + 1)).isOne = true := by
  by_cases hfits : mantissa < Nat.pow 2 precision
  · left
    simp only [ofMantissa, hfits, if_true] at h
    split at h
    · cases h
    · exact h
  · right
    simp only [ofMantissa, hfits, if_false] at h
    split at h
    · cases h
    · exact h

/-- A natural number that is scaled up to a mantissa is one only if it was one. -/
theorem eq_one_of_isOne_ofMantissa
    (h : (ofMantissa negative (count * 2 ^ places) (-places)).isOne = true) :
    negative = false ∧ count = 1 := by
  rcases isOne_of_isOne_ofMantissa h with hwhole | hhalved
  · obtain ⟨hsign, -, hmantissa⟩ := isOne_finite.1 hwhole
    have hplaces : (-(-(places : Int))).toNat = places := by omega
    rw [hplaces] at hmantissa
    refine ⟨hsign, Nat.eq_of_mul_eq_mul_right (Nat.two_pow_pos places) ?_⟩
    rw [hmantissa, Nat.one_mul]
  · obtain ⟨hsign, hexponent, hmantissa⟩ := isOne_finite.1 hhalved
    -- The halved mantissa has a power of two less, and so has one with the exponent raised.
    obtain ⟨fewer, rfl⟩ : ∃ fewer, places = fewer + 1 := ⟨places - 1, by omega⟩
    have hplaces : (-(-((fewer + 1 : Nat) : Int) + 1)).toNat = fewer := by omega
    have hhalf : count * 2 ^ (fewer + 1) / 2 = count * 2 ^ fewer := by
      rw [Nat.pow_succ, ← Nat.mul_assoc, Nat.mul_div_cancel _ (by decide)]
    rw [hplaces, hhalf] at hmantissa
    refine ⟨hsign, Nat.eq_of_mul_eq_mul_right (Nat.two_pow_pos fewer) ?_⟩
    rw [hmantissa, Nat.one_mul]

theorem scaleDown_neg (count places : Nat) :
    scaleDown count 1 (-places) = (count * 2 ^ places, 1) := by
  unfold scaleDown
  rw [Int.neg_neg, Int.toNat_natCast, Int.toNat_neg_natCast]
  rfl

/-- A quotient is one only where its exponent is not positive. -/
theorem exponent_le_zero_of_isOne (h : (ofMantissa negative mantissa exponent).isOne = true) :
    exponent ≤ 0 := by
  rcases isOne_of_isOne_ofMantissa h with hwhole | hhalved
  · exact (isOne_finite.1 hwhole).2.1
  · have hraised := (isOne_finite.1 hhalved).2.1
    omega

/-- Of all integers only one counts as one. -/
theorem isOne_ofInt (value : Int) : (ofInt value).isOne = true ↔ value = 1 := by
  constructor
  · intro h
    unfold ofInt quotient at h
    split at h
    · obtain ⟨-, -, hmantissa⟩ := isOne_finite.1 h
      exact absurd hmantissa (Nat.ne_of_lt (Nat.two_pow_pos _))
    · dsimp only at h
      generalize exponentOf value.natAbs 1 = exponent at h
      have hexponent := exponent_le_zero_of_isOne h
      obtain ⟨places, rfl⟩ : ∃ places : Nat, exponent = -places := ⟨(-exponent).toNat, by omega⟩
      rw [scaleDown_neg, roundQuotient_one] at h
      obtain ⟨hsign, hone⟩ := eq_one_of_isOne_ofMantissa h
      have hnonneg : ¬ value < 0 := of_decide_eq_false hsign
      omega
  · rintro rfl
    decide +kernel

end Phrasebook.Number
