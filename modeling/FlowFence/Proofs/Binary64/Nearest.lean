import FlowFence.Binary64.Basic
import Mathlib.Algebra.Order.Field.Power
import Mathlib.Data.Rat.Cast.Order
import Mathlib.Tactic.Linarith
import Mathlib.Tactic.NormNum
import Mathlib.Tactic.Positivity
import Mathlib.Tactic.Ring

/-!
# The number nearest to a natural number

The rational number that a double-precision number denotes. A natural number of at most fifty-three
bits is itself a number of the format and is converted to it; a longer one is converted to a number of
the format that no other is nearer than.
-/

namespace FlowFence

namespace Binary64

variable {n : Nat}

def value? : Binary64 → Option ℚ
  | .finite negative mantissa exponent =>
      some ((if negative then -1 else 1) * mantissa * 2 ^ exponent)
  | .infinite _ => none
  | .nan => none

/-- Whether a number is finite and has the precision and the range of the format. -/
def IsInFormat : Binary64 → Prop
  | .finite _ mantissa exponent =>
      mantissa < mantissaBound ∧ leastExponent ≤ exponent ∧ exponent ≤ greatestExponent
  | .infinite _ => False
  | .nan => False

/-- Whether a number is one of the format and no other is nearer to a natural number. -/
structure IsNearest (number : Binary64) (n : Nat) : Prop where
  inFormat : number.IsInFormat
  nearest : ∃ x, number.value? = some x ∧
    ∀ other y, IsInFormat other → other.value? = some y → |x - n| ≤ |y - n|

/-! ## Rounded quotients -/

/-- The rounded quotient is off by half a denominator at most. -/
theorem two_mul_abs_roundQuotient_le (numerator : Nat) {denominator : Nat} (h : 0 < denominator) :
    2 * |(roundQuotient numerator denominator : ℤ) * denominator - numerator| ≤ denominator := by
  have hdivision := Nat.div_add_mod numerator denominator
  have hremainder := Nat.mod_lt numerator h
  unfold roundQuotient
  generalize numerator / denominator = quotient at *
  generalize numerator % denominator = remainder at *
  have hnumerator : (numerator : ℤ) = quotient * denominator + remainder := by
    rw [← hdivision]
    push_cast
    ring
  have hdown : 2 * |(quotient : ℤ) * denominator - numerator| = 2 * remainder := by
    rw [hnumerator, abs_sub_comm, add_sub_cancel_left, abs_of_nonneg (by positivity)]
  have hup : 2 * |((quotient + 1 : ℕ) : ℤ) * denominator - numerator| =
      2 * (denominator - remainder) := by
    have hover : ((quotient + 1 : ℕ) : ℤ) * denominator - numerator = denominator - remainder := by
      rw [hnumerator]
      push_cast
      ring
    rw [hover, abs_of_nonneg (by omega)]
  dsimp only
  split
  · rw [hdown]
    omega
  split
  · rw [hup]
    omega
  · rcases Nat.mod_two_eq_zero_or_one quotient with heven | hodd
    · rw [heven, Nat.add_zero, hdown]
      omega
    · rw [hodd, hup]
      omega

/-- No multiple of the denominator is nearer than the rounded quotient. -/
theorem abs_roundQuotient_le (numerator : Nat) {denominator : Nat} (h : 0 < denominator) (k : ℤ) :
    |(roundQuotient numerator denominator : ℤ) * denominator - numerator| ≤
      |k * denominator - numerator| := by
  have hhalf := two_mul_abs_roundQuotient_le numerator h
  generalize (roundQuotient numerator denominator : ℤ) = found at *
  by_cases hsame : k = found
  · rw [hsame]
  · have hdistance : (denominator : ℤ) ≤ |k * denominator - found * denominator| := by
      rw [← sub_mul, abs_mul, Nat.abs_cast]
      exact le_mul_of_one_le_left (by positivity) (Int.one_le_abs (sub_ne_zero.mpr hsame))
    have htriangle := abs_sub_le (k * denominator) (numerator : ℤ) (found * denominator)
    rw [abs_sub_comm (numerator : ℤ)] at htriangle
    linarith

theorem roundQuotient_one (numerator : Nat) : roundQuotient numerator 1 = numerator := by
  simp [roundQuotient, Nat.mod_one]

theorem roundQuotient_le {numerator denominator bound : Nat}
    (h : numerator < bound * denominator) : roundQuotient numerator denominator ≤ bound := by
  have hquotient : numerator / denominator < bound := Nat.div_lt_of_lt_mul (by rwa [Nat.mul_comm])
  unfold roundQuotient
  dsimp only
  split
  · omega
  split
  · omega
  · omega

/-! ## The last bit -/

theorem two_pow_mul_two_pow {a b c : Nat} (h : a + b = c) : 2 ^ a * 2 ^ b = 2 ^ c := by
  rw [← Nat.pow_add, h]

/-- The last of fifty-three bits, counted from the first bit of a number. -/
theorem lastBit_one (h : n ≠ 0) : lastBit n 1 = (n.log2 : Int) - 52 := by
  have hlow := Nat.log2_self_le h
  have hscaled : mantissaBound ≤
      (scaleRatio n 1 ((n.log2 : Int) - 53)).1 / (scaleRatio n 1 ((n.log2 : Int) - 53)).2 := by
    unfold scaleRatio mantissaBound
    split
    · rename_i hshort
      have hshift : (-((n.log2 : Int) - 53)).toNat = 53 - n.log2 := by omega
      rw [hshift, Nat.div_one, ← two_pow_mul_two_pow (show n.log2 + (53 - n.log2) = 53 by omega)]
      exact Nat.mul_le_mul_right _ hlow
    · rename_i hlong
      have hshift : ((n.log2 : Int) - 53).toNat = n.log2 - 53 := by omega
      rw [hshift, Nat.one_mul, Nat.le_div_iff_mul_le (by positivity),
        two_pow_mul_two_pow (show 53 + (n.log2 - 53) = n.log2 by omega)]
      exact hlow
  have hone : Nat.log2 1 = 0 := by decide
  unfold lastBit
  simp only [hone, Nat.cast_zero, sub_zero]
  rw [if_neg (Nat.not_lt.mpr hscaled)]
  unfold leastExponent
  omega

/-! ## Conversion -/

theorem ofNat_zero : ofNat 0 = zero := rfl

theorem shifted_lt (hshort : n.log2 < 53) : n * 2 ^ (52 - n.log2) < mantissaBound := by
  calc n * 2 ^ (52 - n.log2)
      < 2 ^ (n.log2 + 1) * 2 ^ (52 - n.log2) :=
        Nat.mul_lt_mul_of_pos_right Nat.lt_log2_self (Nat.two_pow_pos _)
    _ = mantissaBound := two_pow_mul_two_pow (by omega)

/-- A number of at most fifty-three bits is shifted until it has as many. -/
theorem ofNat_of_log2_lt (h : n ≠ 0) (hshort : n.log2 < 53) :
    ofNat n = .finite false (n * 2 ^ (52 - n.log2)) (-((52 - n.log2 : Nat) : Int)) := by
  have hexponent : (n.log2 : Int) - 52 = -((52 - n.log2 : Nat) : Int) := by omega
  have hscaled : scaleRatio n 1 (-((52 - n.log2 : Nat) : Int)) = (n * 2 ^ (52 - n.log2), 1) := by
    generalize 52 - n.log2 = shift
    unfold scaleRatio
    rw [neg_neg, Int.toNat_natCast]
    split
    · rfl
    · obtain rfl : shift = 0 := by omega
      simp
  unfold ofNat ofRatio
  rw [if_neg h, lastBit_one h, hexponent]
  simp only [hscaled, roundQuotient_one, if_neg (Nat.ne_of_lt (shifted_lt hshort))]
  rw [if_neg (by unfold greatestExponent; omega)]

/-- How much the last of the first fifty-three bits of a number is worth. -/
def unit (n : Nat) : Nat := 2 ^ (n.log2 - 52)

theorem unit_pos (n : Nat) : 0 < unit n :=
  Nat.two_pow_pos _

theorem ne_zero_of_le_log2 (hlong : 52 ≤ n.log2) : n ≠ 0 := by
  rintro rfl
  exact absurd hlong (by decide)

/-- A number of fifty-three bits or more is rounded, which can make its mantissa one bit longer. -/
theorem ofNat_of_le_log2 (hlong : 52 ≤ n.log2) (hrange : n.log2 < 1023) :
    ofNat n =
      if roundQuotient n (unit n) = mantissaBound then
        .finite false (mantissaBound / 2) ((n.log2 : Int) - 52 + 1)
      else .finite false (roundQuotient n (unit n)) ((n.log2 : Int) - 52) := by
  have hpositive := ne_zero_of_le_log2 hlong
  have hshift : ((n.log2 : Int) - 52).toNat = n.log2 - 52 := by omega
  have hscaled : scaleRatio n 1 ((n.log2 : Int) - 52) = (n, unit n) := by
    rw [scaleRatio, if_neg (by omega), hshift, Nat.one_mul]
    rfl
  unfold ofNat ofRatio
  rw [if_neg hpositive, lastBit_one hpositive]
  simp only [hscaled]
  by_cases hcarry : roundQuotient n (unit n) = mantissaBound
  · rw [if_pos hcarry, if_pos hcarry, if_neg (by unfold greatestExponent; omega), hcarry]
  · rw [if_neg hcarry, if_neg hcarry, if_neg (by unfold greatestExponent; omega)]

theorem roundQuotient_unit_le (hlong : 52 ≤ n.log2) : roundQuotient n (unit n) ≤ mantissaBound := by
  apply roundQuotient_le
  calc n < 2 ^ (n.log2 + 1) := Nat.lt_log2_self
    _ = mantissaBound * unit n := (two_pow_mul_two_pow (by omega)).symm

theorem unit_eq_zpow (hlong : 52 ≤ n.log2) : (unit n : ℚ) = 2 ^ ((n.log2 : ℤ) - 52) := by
  unfold unit
  push_cast
  rw [← zpow_natCast, Nat.cast_sub hlong]
  rfl

/-- What a long number is converted to is the multiple of its unit that is nearest. -/
theorem value?_ofNat_of_le_log2 (hlong : 52 ≤ n.log2) (hrange : n.log2 < 1023) :
    (ofNat n).value? = some ((roundQuotient n (unit n) : ℚ) * unit n) := by
  rw [ofNat_of_le_log2 hlong hrange, unit_eq_zpow hlong]
  split
  · rename_i hcarry
    have hhalf : ((mantissaBound / 2 : ℕ) : ℚ) * 2 = mantissaBound := by norm_num [mantissaBound]
    rw [hcarry, value?, zpow_add_one₀ two_ne_zero, ← hhalf]
    simp only [Bool.false_eq_true, if_false, one_mul, Option.some.injEq]
    ring
  · simp [value?]

theorem isInFormat_ofNat (hrange : n.log2 < 1023) : (ofNat n).IsInFormat := by
  have hleast : leastExponent = -1074 := rfl
  have hgreatest : greatestExponent = 971 := rfl
  by_cases hzero : n = 0
  · subst hzero
    rw [ofNat_zero]
    exact ⟨by decide, by decide, by decide⟩
  by_cases hshort : n.log2 < 53
  · rw [ofNat_of_log2_lt hzero hshort]
    exact ⟨shifted_lt hshort, by omega, by omega⟩
  · have hlong : 52 ≤ n.log2 := by omega
    have hbound := roundQuotient_unit_le hlong
    rw [ofNat_of_le_log2 hlong hrange]
    split
    · exact ⟨by decide, by omega, by omega⟩
    · exact ⟨by omega, by omega, by omega⟩

theorem value?_ofNat_of_log2_lt (hshort : n.log2 < 53) : (ofNat n).value? = some (n : ℚ) := by
  by_cases hzero : n = 0
  · subst hzero
    simp [ofNat_zero, zero, value?]
  · rw [ofNat_of_log2_lt hzero hshort, value?]
    push_cast
    rw [one_mul, mul_assoc, zpow_neg, zpow_natCast, mul_inv_cancel₀ (by positivity), mul_one]

/-! ## Distances -/

/--
A number of the format is a multiple of the unit of a long number, or below the largest power of two
in it, which is such a multiple as well.
-/
theorem multiple_or_le (hlong : 52 ≤ n.log2) {other : Binary64} (h : other.IsInFormat) {y : ℚ}
    (hvalue : other.value? = some y) :
    (∃ k : ℤ, y = k * unit n) ∨ y ≤ ((2 ^ 52 : ℤ) : ℚ) * unit n := by
  cases other with
  | infinite | nan => exact h.elim
  | finite negative mantissa exponent =>
      obtain ⟨hmantissa, -, -⟩ := h
      obtain rfl := Option.some.inj hvalue
      by_cases hexponent : (n.log2 : ℤ) - 52 ≤ exponent
      · refine .inl ⟨(if negative then -1 else 1) * mantissa *
          2 ^ (exponent - ((n.log2 : ℤ) - 52)).toNat, ?_⟩
        have hsplit : (2 : ℚ) ^ exponent =
            2 ^ (exponent - ((n.log2 : ℤ) - 52)).toNat * unit n := by
          rw [unit_eq_zpow hlong, ← zpow_natCast, ← zpow_add₀ two_ne_zero,
            Int.toNat_of_nonneg (by omega)]
          simp
        rw [hsplit]
        push_cast
        ring
      · refine .inr ?_
        have hsign : (if negative then (-1 : ℚ) else 1) ≤ 1 := by split <;> norm_num
        have hsize : (mantissa : ℚ) ≤ 2 ^ 53 := by exact_mod_cast hmantissa.le
        calc (if negative then (-1 : ℚ) else 1) * mantissa * 2 ^ exponent
            ≤ 1 * 2 ^ 53 * 2 ^ ((n.log2 : ℤ) - 52 - 1) := by
              gcongr
              · norm_num
              · omega
          _ = ((2 ^ 52 : ℤ) : ℚ) * unit n := by
              rw [unit_eq_zpow hlong, zpow_sub_one₀ two_ne_zero]
              push_cast
              ring

theorem two_pow_mul_unit_le (hlong : 52 ≤ n.log2) : 2 ^ 52 * unit n ≤ n := by
  rw [unit, two_pow_mul_two_pow (Nat.add_sub_of_le hlong)]
  exact Nat.log2_self_le (ne_zero_of_le_log2 hlong)

theorem abs_rounded_le (k : ℤ) :
    |(roundQuotient n (unit n) : ℚ) * unit n - n| ≤ |(k : ℚ) * unit n - n| := by
  exact_mod_cast abs_roundQuotient_le n (unit_pos n) k

/-- A natural number in the range of the format is converted to a number that none is nearer than. -/
theorem isNearest_ofNat (hrange : n.log2 < 1023) : (ofNat n).IsNearest n := by
  refine ⟨isInFormat_ofNat hrange, ?_⟩
  by_cases hshort : n.log2 < 53
  · refine ⟨n, value?_ofNat_of_log2_lt hshort, fun other y _ _ => ?_⟩
    rw [sub_self, abs_zero]
    exact abs_nonneg _
  · have hlong : 52 ≤ n.log2 := by omega
    refine ⟨_, value?_ofNat_of_le_log2 hlong hrange, fun other y hother hvalue => ?_⟩
    rcases multiple_or_le hlong hother hvalue with ⟨k, rfl⟩ | hbelow
    · exact abs_rounded_le k
    · have hpower : ((2 ^ 52 : ℤ) : ℚ) * unit n ≤ n := by
        exact_mod_cast two_pow_mul_unit_le hlong
      calc |(roundQuotient n (unit n) : ℚ) * unit n - n|
          ≤ |((2 ^ 52 : ℤ) : ℚ) * unit n - n| := abs_rounded_le _
        _ = n - ((2 ^ 52 : ℤ) : ℚ) * unit n := by
            rw [abs_sub_comm, abs_of_nonneg (sub_nonneg.mpr hpower)]
        _ ≤ n - y := by linarith
        _ ≤ |y - n| := by
            rw [abs_sub_comm]
            exact le_abs_self _

end Binary64

end FlowFence
