import FlowFence.Proofs.Binary32.Value
import Mathlib.Algebra.Order.Ring.Abs

/-!
# Patterns by their fields

The number of a pattern whose sign, exponent and fraction are given, cut off toward zero. Below the
exponent field of `2 ^ 63` the magnitude is at most `2 ^ 63 - 2 ^ 39`, so the cut-off number is one
of a signed word of 64 bits. Cutting off keeps the order of numbers.
-/

namespace FlowFence

namespace Binary32

variable {sign exponent fractionField : Nat} {n : ℤ} {x y : ℚ}

def ofFields (sign exponent fractionField : Nat) : Nat :=
  sign * 2 ^ 31 + exponent * 2 ^ 23 + fractionField

/--
The number that the fields of a pattern denote. The hidden bit of the significand is set unless the
exponent field is zero, and numbers without it have the scale of the smallest numbers with it.
-/
def number (sign exponent fractionField : Nat) : ℚ :=
  (-1) ^ sign * ((if exponent = 0 then fractionField else fractionField + 2 ^ 23 : Nat) : ℚ) *
    2 ^ ((max exponent 1 : Nat) - 150 : ℤ)

/-- A number cut off toward zero, and moved to the end of the signed 64-bit words if outside. -/
def toWord (x : ℚ) : ℤ :=
  max (-2 ^ 63) (min (2 ^ 63 - 1) (towardZero x))

/-! ## Fields -/

theorem exists_fields {bits : Nat} (h : bits < 2 ^ 32) :
    ∃ sign < 2, ∃ fractionField < 2 ^ 23,
      bits = ofFields sign (exponentField bits) fractionField := by
  refine ⟨bits / 2 ^ 31, by omega, fraction bits, fraction_lt bits, ?_⟩
  unfold ofFields exponentField fraction
  omega

section Fields

variable (hsign : sign < 2) (hexponent : exponent < 2 ^ 8) (hfraction : fractionField < 2 ^ 23)

include hexponent hfraction in
theorem exponentField_ofFields :
    exponentField (ofFields sign exponent fractionField) = exponent := by
  unfold exponentField ofFields
  omega

include hsign hexponent hfraction

theorem ofFields_lt : ofFields sign exponent fractionField < 2 ^ 32 := by
  unfold ofFields
  omega

theorem number_eq :
    number sign exponent fractionField =
      if isNegative (ofFields sign exponent fractionField) then
        -magnitude (ofFields sign exponent fractionField)
      else magnitude (ofFields sign exponent fractionField) := by
  have hfield : exponentField (ofFields sign exponent fractionField) = exponent :=
    exponentField_ofFields hexponent hfraction
  have hrest : fraction (ofFields sign exponent fractionField) = fractionField := by
    unfold fraction ofFields
    omega
  have hbit : isNegative (ofFields sign exponent fractionField) = decide (sign = 1) := by
    unfold isNegative ofFields
    rw [decide_eq_decide]
    omega
  unfold number magnitude significand scale
  rw [hfield, hrest, hbit]
  obtain rfl | rfl : sign = 0 ∨ sign = 1 := by omega
  · simp
  · rw [pow_one, neg_one_mul, neg_mul]
    exact (if_pos rfl).symm

theorem truncate?_ofFields :
    truncate? (ofFields sign exponent fractionField) = some n ↔
      exponent < firstTooLarge ∧ n = towardZero (number sign exponent fractionField) := by
  have hfield : exponentField (ofFields sign exponent fractionField) = exponent :=
    exponentField_ofFields hexponent hfraction
  have hnonneg := magnitude_nonneg (ofFields sign exponent fractionField)
  rw [truncate?_eq, number_eq hsign hexponent hfraction, hfield]
  by_cases hlarge : exponent < firstTooLarge
  · rw [if_neg (Nat.not_le.mpr hlarge), Option.some.injEq, eq_comm]
    split <;> simp [towardZero_neg hnonneg, towardZero_of_nonneg hnonneg, hlarge]
  · rw [if_pos (Nat.not_lt.mp hlarge)]
    simp [hlarge]

end Fields

/-! ## Bounds and order -/

theorem magnitude_le {bits : Nat} (h : exponentField bits < firstTooLarge) :
    magnitude bits ≤ 2 ^ 63 - 2 ^ 39 := by
  have hfraction := fraction_lt bits
  have hsignificand : significand bits ≤ 2 ^ 24 - 1 := by
    unfold significand
    split <;> omega
  have hscale : (scale bits : ℤ) - 150 ≤ 39 := by
    unfold firstTooLarge at h
    unfold scale
    omega
  unfold magnitude
  calc (significand bits : ℚ) * 2 ^ ((scale bits : ℤ) - 150)
      ≤ (2 ^ 24 - 1 : Nat) * 2 ^ (39 : ℤ) := by
        gcongr
        norm_num
    _ = 2 ^ 63 - 2 ^ 39 := by norm_num

theorem abs_number_le (hsign : sign < 2) (hexponent : exponent < firstTooLarge)
    (hfraction : fractionField < 2 ^ 23) :
    |number sign exponent fractionField| ≤ 2 ^ 63 - 2 ^ 39 := by
  have hbyte : exponent < 2 ^ 8 := by
    unfold firstTooLarge at hexponent
    omega
  have hfield : exponentField (ofFields sign exponent fractionField) = exponent :=
    exponentField_ofFields hbyte hfraction
  have hbound := magnitude_le (hfield.symm ▸ hexponent)
  rw [number_eq hsign hbyte hfraction]
  split <;> simpa [abs_of_nonneg (magnitude_nonneg _)] using hbound

theorem towardZero_intCast (n : ℤ) : towardZero n = n := by
  unfold towardZero
  split
  · exact Int.ceil_intCast n
  · exact Int.floor_intCast n

theorem towardZero_mono (h : x ≤ y) : towardZero x ≤ towardZero y := by
  unfold towardZero
  split
  · rename_i hx
    split
    · exact Int.ceil_le_ceil h
    · rename_i hy
      calc ⌈x⌉ ≤ 0 := Int.ceil_le.mpr (by exact_mod_cast hx.le)
        _ ≤ ⌊y⌋ := Int.floor_nonneg.mpr (not_lt.mp hy)
  · rename_i hx
    have hy : ¬ y < 0 := not_lt.mpr ((not_lt.mp hx).trans h)
    rw [if_neg hy]
    exact Int.floor_le_floor h

theorem abs_towardZero_le (h : |x| ≤ n) : |towardZero x| ≤ n := by
  obtain ⟨hlow, hhigh⟩ := abs_le.mp h
  have hleast := towardZero_mono hlow
  have hgreatest := towardZero_mono hhigh
  rw [← Int.cast_neg, towardZero_intCast] at hleast
  rw [towardZero_intCast] at hgreatest
  exact abs_le.mpr ⟨hleast, hgreatest⟩

theorem abs_towardZero_number_le (hsign : sign < 2) (hexponent : exponent < firstTooLarge)
    (hfraction : fractionField < 2 ^ 23) :
    |towardZero (number sign exponent fractionField)| ≤ 2 ^ 63 - 2 ^ 39 := by
  apply abs_towardZero_le
  exact_mod_cast abs_number_le hsign hexponent hfraction

/-- A number that is cut off to one of less than `2 ^ 63` is not moved to an end of the words. -/
theorem toWord_eq (h : |towardZero x| < 2 ^ 63) : toWord x = towardZero x := by
  obtain ⟨hlow, hhigh⟩ := abs_lt.mp h
  unfold toWord
  omega

end Binary32

end FlowFence
