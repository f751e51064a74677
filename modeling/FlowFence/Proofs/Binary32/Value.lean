import FlowFence.Binary32
import Mathlib.Algebra.Order.Field.Power
import Mathlib.Data.Rat.Floor
import Mathlib.Tactic.Linarith
import Mathlib.Tactic.NormNum
import Mathlib.Tactic.Positivity
import Mathlib.Tactic.Ring

/-!
# The value of a pattern

The rational number that a pattern of the single-precision interchange format denotes. What is read
of a pattern is that number cut off toward zero, and nothing is read just if its magnitude is `2 ^ 63`
or more or if there is no number.
-/

namespace FlowFence

namespace Binary32

variable {bits : Nat} {x : ℚ}

/--
The number that a pattern denotes. An exponent field of ones stands for an infinity or for no number,
one of zeros for a number without the hidden bit.
-/
def value? (bits : Nat) : Option ℚ :=
  let sign : ℚ := if isNegative bits then -1 else 1
  if exponentField bits = 255 then none
  else if exponentField bits = 0 then some (sign * (fraction bits / 2 ^ 23) * 2 ^ (-126 : ℤ))
  else some (sign * (1 + fraction bits / 2 ^ 23) * 2 ^ ((exponentField bits : ℤ) - 127))

def towardZero (x : ℚ) : ℤ :=
  if x < 0 then ⌈x⌉ else ⌊x⌋

/-! ## Magnitudes -/

def magnitude (bits : Nat) : ℚ :=
  significand bits * 2 ^ ((scale bits : ℤ) - 150)

theorem magnitude_nonneg (bits : Nat) : 0 ≤ magnitude bits := by
  unfold magnitude
  positivity

theorem fraction_lt (bits : Nat) : fraction bits < 2 ^ 23 :=
  Nat.mod_lt bits (by decide)

/-- The significand counts in units of its last bit, which is twenty-three places behind the point. -/
theorem value?_eq (bits : Nat) :
    value? bits = if exponentField bits = 255 then none
      else some (if isNegative bits then -magnitude bits else magnitude bits) := by
  have hpoint (e : ℤ) : (2 : ℚ) ^ (e - 127) = 2 ^ 23 * 2 ^ (e - 150) := by
    rw [← zpow_natCast, ← zpow_add₀ two_ne_zero]
    congr 1
    omega
  have hleast : (2 : ℚ) ^ (-126 : ℤ) = 2 ^ 23 * 2 ^ (-149 : ℤ) := hpoint 1
  unfold value? magnitude significand scale
  by_cases hfield : exponentField bits = 0
  · by_cases hsign : isNegative bits = true <;> simp [hfield, hsign, hleast] <;> ring
  · have hscale : max (exponentField bits) 1 = exponentField bits := by omega
    by_cases hsign : isNegative bits = true <;> simp [hfield, hsign, hscale, hpoint] <;> ring_nf

theorem value?_eq_none_iff : value? bits = none ↔ exponentField bits = 255 := by
  rw [value?_eq]
  split <;> simp [*]

/-- The exponent field tells on which side of `2 ^ 63` a magnitude is. -/
theorem exponentField_lt_iff : exponentField bits < firstTooLarge ↔ magnitude bits < 2 ^ 63 := by
  have hfraction := fraction_lt bits
  unfold firstTooLarge magnitude
  constructor
  · intro hfield
    have hsignificand : significand bits < 2 ^ 24 := by
      unfold significand
      split <;> omega
    have hscale : (scale bits : ℤ) - 150 ≤ 39 := by
      unfold scale
      omega
    calc (significand bits : ℚ) * 2 ^ ((scale bits : ℤ) - 150)
        ≤ significand bits * 2 ^ (39 : ℤ) := by
          gcongr
          norm_num
      _ < 2 ^ 24 * 2 ^ (39 : ℤ) := by
          gcongr
          exact_mod_cast hsignificand
      _ = 2 ^ 63 := by norm_num
  · intro hmagnitude
    by_contra hfield
    have hsignificand : 2 ^ 23 ≤ significand bits := by
      unfold significand
      rw [if_neg (by omega)]
      omega
    have hscale : (40 : ℤ) ≤ (scale bits : ℤ) - 150 := by
      unfold scale
      omega
    have hlarge : (2 : ℚ) ^ 63 ≤ significand bits * 2 ^ ((scale bits : ℤ) - 150) := by
      calc (2 : ℚ) ^ 63
          = (2 : ℚ) ^ 23 * 2 ^ (40 : ℤ) := by norm_num
        _ ≤ (significand bits : ℚ) * 2 ^ ((scale bits : ℤ) - 150) := by
          gcongr
          · exact_mod_cast hsignificand
          · norm_num
    linarith

theorem floor_magnitude (bits : Nat) :
    ⌊magnitude bits⌋ =
      ((if 150 ≤ scale bits then significand bits * 2 ^ (scale bits - 150)
        else significand bits / 2 ^ (150 - scale bits) : Nat) : ℤ) := by
  unfold magnitude
  split
  · rename_i hscale
    have hwhole : (significand bits : ℚ) * 2 ^ ((scale bits : ℤ) - 150) =
        (significand bits * 2 ^ (scale bits - 150) : Nat) := by
      push_cast
      rw [← zpow_natCast, Nat.cast_sub hscale]
      rfl
    rw [hwhole, Int.floor_natCast]
  · rename_i hscale
    have hquotient : (significand bits : ℚ) * 2 ^ ((scale bits : ℤ) - 150) =
        significand bits / (2 ^ (150 - scale bits) : Nat) := by
      push_cast
      rw [div_eq_mul_inv, ← zpow_natCast, ← zpow_neg, Nat.cast_sub (by omega)]
      congr 2
      push_cast
      ring
    rw [hquotient, Rat.floor_natCast_div_natCast]
    norm_cast

/-! ## Numbers cut off -/

theorem towardZero_of_nonneg (h : 0 ≤ x) : towardZero x = ⌊x⌋ :=
  if_neg (not_lt.mpr h)

theorem towardZero_neg (h : 0 ≤ x) : towardZero (-x) = -⌊x⌋ := by
  unfold towardZero
  split
  · exact Int.ceil_neg
  · obtain rfl : x = 0 := by linarith
    simp

theorem towardZero_nonneg_iff : 0 ≤ towardZero x ↔ -1 < x := by
  unfold towardZero
  split
  · rw [← Int.sub_one_lt_iff, Int.lt_ceil]
    norm_num
  · rename_i hsign
    have hnonneg : 0 ≤ x := not_lt.mp hsign
    exact iff_of_true (Int.floor_nonneg.mpr hnonneg) (by linarith)

theorem towardZero_eq_max (h : -1 < x) : towardZero x = max ⌊x⌋ 0 := by
  rcases lt_or_ge x 0 with hneg | hnonneg
  · have hfloor : ⌊x⌋ < 0 := Int.floor_lt.mpr (by exact_mod_cast hneg)
    have hceil : ⌈x⌉ ≤ 0 := Int.ceil_le.mpr (by exact_mod_cast hneg.le)
    have hleast : 0 ≤ towardZero x := towardZero_nonneg_iff.mpr h
    rw [max_eq_right hfloor.le]
    unfold towardZero at hleast ⊢
    rw [if_pos hneg] at hleast ⊢
    omega
  · rw [towardZero_of_nonneg hnonneg, max_eq_left (Int.floor_nonneg.mpr hnonneg)]

theorem truncate?_eq (bits : Nat) :
    truncate? bits = if firstTooLarge ≤ exponentField bits then none
      else some (if isNegative bits then -⌊magnitude bits⌋ else ⌊magnitude bits⌋) := by
  rw [floor_magnitude]
  rfl

/-- A pattern is read as the number it denotes, cut off toward zero, if the magnitude allows. -/
theorem truncate?_eq_some_iff {n : ℤ} :
    truncate? bits = some n ↔ ∃ x ∈ value? bits, |x| < 2 ^ 63 ∧ n = towardZero x := by
  have hlarge : exponentField bits < firstTooLarge ↔ magnitude bits < 2 ^ 63 :=
    exponentField_lt_iff
  have hfinite : exponentField bits < firstTooLarge → exponentField bits ≠ 255 := by
    unfold firstTooLarge
    omega
  have hnonneg := magnitude_nonneg bits
  rw [truncate?_eq, value?_eq]
  by_cases hfield : exponentField bits < firstTooLarge
  · rw [if_neg (not_le.mpr hfield), if_neg (hfinite hfield)]
    have hbound := hlarge.mp hfield
    by_cases hsign : isNegative bits = true
    · simp [hsign, abs_of_nonneg hnonneg, hbound, towardZero_neg hnonneg, eq_comm]
    · simp [hsign, abs_of_nonneg hnonneg, hbound, towardZero_of_nonneg hnonneg, eq_comm]
  · rw [if_pos (not_lt.mp hfield)]
    have hbound : ¬ magnitude bits < 2 ^ 63 := fun h => hfield (hlarge.mpr h)
    by_cases hsign : isNegative bits = true <;>
      simp [hsign, abs_of_nonneg hnonneg, hbound]

end Binary32

end FlowFence
