import FlowFence.Binary64.Text
import FlowFence.Proofs.Binary64.Nearest
import FlowFence.Proofs.Text.Numeral

/-!
# Texts of whole numbers

A natural number of at most fifty-three bits is written in the telemetry as its decimal numeral: no
other integer reads back as the number it is converted to, so that the shortest decimal leaves out
nothing but zeros at the end, which are written again.
-/

namespace FlowFence

namespace Binary64

variable {n : Nat}

/-! ## The decimals of a whole number -/

section Whole

variable (shift : Nat)

def wholeInterval (n shift : Nat) : Interval :=
  interval (n * 2 ^ shift) (-(shift : Int))

/-- The unit of the interval is at most a quarter. -/
theorem exponent_wholeInterval : (wholeInterval n shift).exponent = -((shift + 2 : Nat) : Int) := by
  unfold wholeInterval interval
  dsimp only
  push_cast
  ring

theorem value_wholeInterval : (wholeInterval n shift).value = n * 2 ^ (shift + 2) := by
  change 4 * (n * 2 ^ shift) = n * 2 ^ (shift + 2)
  rw [Nat.pow_add]
  ring

/-- The ends of the interval are at most two quarters of the last bit away. -/
theorem ends_wholeInterval (hn : 0 < n) :
    (wholeInterval n shift).low < n * 2 ^ (shift + 2) ∧
      n * 2 ^ (shift + 2) ≤ (wholeInterval n shift).low + 2 ∧
      (wholeInterval n shift).high = n * 2 ^ (shift + 2) + 2 := by
  have hpositive : 0 < n * 2 ^ shift := Nat.mul_pos hn (Nat.two_pow_pos shift)
  rw [← value_wholeInterval]
  unfold wholeInterval interval
  dsimp only
  split <;> omega

/-- No other integer lies in the interval. -/
theorem contains_wholeInterval_iff (hn : 0 < n) (digits power : Nat) :
    (wholeInterval n shift).contains digits power = true ↔ digits * 10 ^ power = n := by
  obtain ⟨hstrict, hlow, hhigh⟩ := ends_wholeInterval shift hn
  have hquarters : 4 ≤ 2 ^ (shift + 2) := by
    rw [Nat.pow_add]
    exact Nat.le_mul_of_pos_left 4 (Nat.two_pow_pos shift)
  have hpower : ¬(power : Int) < 0 := by omega
  have hnegative : -((shift + 2 : Nat) : Int) < 0 := by omega
  unfold Interval.contains
  rw [exponent_wholeInterval]
  simp only [Int.natAbs_neg, Int.natAbs_natCast, Int.natCast_nonneg, if_true, if_neg hpower,
    if_pos hnegative, if_neg (not_le.mpr hnegative), Nat.mul_one, hhigh]
  generalize (wholeInterval n shift).low = low at *
  generalize digits * 10 ^ power = decimal at *
  generalize 2 ^ (shift + 2) = quarters at *
  constructor
  · -- a distance of two is less than the four of one unit
    intro hcontains
    have hnear : n * quarters ≤ decimal * quarters + 2 ∧ decimal * quarters ≤ n * quarters + 2 := by
      split at hcontains <;> simp only [Bool.and_eq_true, decide_eq_true_eq] at hcontains <;> omega
    by_contra hother
    rcases Nat.lt_or_gt_of_ne hother with hbelow | habove
    · have hstep := Nat.mul_le_mul_right quarters (Nat.succ_le_of_lt hbelow)
      rw [Nat.succ_mul] at hstep
      omega
    · have hstep := Nat.mul_le_mul_right quarters (Nat.succ_le_of_lt habove)
      rw [Nat.succ_mul] at hstep
      omega
  · rintro rfl
    split <;> simp only [Bool.and_eq_true, decide_eq_true_eq] <;> omega

theorem scaled_wholeInterval (power : Nat) :
    (wholeInterval n shift).scaled power =
      (2 ^ (shift + 2) * n, 2 ^ (shift + 2) * 10 ^ power) := by
  have hnegative : ¬((shift + 2 : Nat) : Int) < 0 := by omega
  unfold Interval.scaled scaleRatio
  rw [exponent_wholeInterval, value_wholeInterval, neg_neg]
  simp only [if_neg hnegative, Int.natCast_nonneg, if_true, Int.toNat_natCast, Nat.one_mul,
    Nat.mul_comm n]

theorem quotient_wholeInterval (power : Nat) :
    2 ^ (shift + 2) * n / (2 ^ (shift + 2) * 10 ^ power) = n / 10 ^ power :=
  Nat.mul_div_mul_left n _ (Nat.two_pow_pos _)

/-- Digits can be left out if they are zeros, and not otherwise. -/
theorem shortestWith?_wholeInterval (hn : 0 < n) {position count : Nat} (h : count ≤ position) :
    (wholeInterval n shift).shortestWith? position count =
      if 10 ^ (position - count) ∣ n then
        some (n / 10 ^ (position - count), ((position - count : Nat) : Int))
      else none := by
  have hpower : (position : Int) - count = ((position - count : Nat) : Int) := by omega
  unfold Interval.shortestWith?
  rw [hpower]
  generalize position - count = power
  simp only [scaled_wholeInterval, quotient_wholeInterval]
  have hunit : 0 < 10 ^ power := Nat.pow_pos (by decide)
  by_cases hzeros : 10 ^ power ∣ n
  · have hdown : (wholeInterval n shift).contains (n / 10 ^ power) power = true :=
      (contains_wholeInterval_iff shift hn _ _).mpr (Nat.div_mul_cancel hzeros)
    have hup : (wholeInterval n shift).contains (n / 10 ^ power + 1) power = false := by
      rw [Bool.eq_false_iff, Ne, contains_wholeInterval_iff shift hn, Nat.succ_mul,
        Nat.div_mul_cancel hzeros]
      omega
    rw [hdown, hup, if_pos hzeros]
  · have hnone (digits : Nat) : (wholeInterval n shift).contains digits power = false := by
      rw [Bool.eq_false_iff, Ne, contains_wholeInterval_iff shift hn]
      rintro rfl
      exact hzeros (Nat.dvd_mul_left _ _)
    rw [hnone, hnone, if_neg hzeros]

/-- The number of digits before the point. -/
theorem pointPosition_wholeInterval (hn : 0 < n) :
    pointPosition ((wholeInterval n shift).scaled 0).1 ((wholeInterval n shift).scaled 0).2 =
      (Text.decimal n).length := by
  have hscaled : (wholeInterval n shift).scaled 0 = (2 ^ (shift + 2) * n, 2 ^ (shift + 2) * 1) :=
    scaled_wholeInterval shift 0
  rw [hscaled]
  unfold pointPosition
  rw [if_pos (Nat.mul_le_mul_left _ hn), Nat.mul_div_mul_left _ _ (Nat.two_pow_pos _), Nat.div_one]

/-- The shortest decimal leaves out zeros at the end. -/
theorem shortest_whole (hn : 0 < n) (hlength : (Text.decimal n).length ≤ 17) :
    ∃ power : Nat, 10 ^ power ∣ n ∧
      shortest (n * 2 ^ shift) (-(shift : Int)) = (n / 10 ^ power, (power : Int)) := by
  have hposition := pointPosition_wholeInterval shift hn
  have hdigits : 0 < (Text.decimal n).length := List.length_pos_of_ne_nil Nat.toDigits_ne_nil
  generalize (Text.decimal n).length = position at *
  -- with as many digits as the numeral has nothing is left out, so one of the first counts is found
  have hfirst : ((List.range position).findSome? fun count =>
      (wholeInterval n shift).shortestWith? position (count + 1 : Nat)).isSome := by
    rw [List.findSome?_isSome_iff]
    refine ⟨position - 1, List.mem_range.mpr (by omega), ?_⟩
    rw [Nat.sub_add_cancel hdigits, shortestWith?_wholeInterval shift hn (le_refl position)]
    simp
  obtain ⟨found, hfound⟩ := Option.isSome_iff_exists.mp hfirst
  obtain ⟨count, hcount, hshortest⟩ := List.exists_of_findSome?_eq_some hfound
  rw [shortestWith?_wholeInterval shift hn (List.mem_range.mp hcount)] at hshortest
  split at hshortest
  · rename_i hzeros
    refine ⟨position - (count + 1), hzeros, ?_⟩
    have hrange : List.range 17 =
        List.range position ++ (List.range (17 - position)).map (position + ·) := by
      rw [← List.range_add, Nat.add_sub_of_le hlength]
    unfold shortest
    change ((List.range 17).findSome? fun count =>
      (wholeInterval n shift).shortestWith? (pointPosition ((wholeInterval n shift).scaled 0).1
        ((wholeInterval n shift).scaled 0).2) (count + 1)).getD (0, 0) = _
    rw [hposition, hrange, List.findSome?_append, hfound, Option.some_or, Option.getD_some]
    exact (Option.some.inj hshortest).symm
  · cases hshortest

end Whole

/-! ## Texts -/

/-- The zeros that the shortest decimal leaves out are written again. -/
theorem text_whole (hn : 0 < n) (hlength : (Text.decimal n).length ≤ 17) (shift : Nat) :
    (Binary64.finite false (n * 2 ^ shift) (-(shift : Int))).text = Text.decimal n := by
  obtain ⟨power, hzeros, hshortest⟩ := shortest_whole shift hn hlength
  have hmantissa : n * 2 ^ shift ≠ 0 := Nat.ne_of_gt (Nat.mul_pos hn (Nat.two_pow_pos shift))
  have hdigits : 0 < n / 10 ^ power :=
    Nat.div_pos (Nat.le_of_dvd hn hzeros) (Nat.pow_pos (by decide))
  have hwritten : Text.decimal (n / 10 ^ power * 10 ^ power) =
      Text.decimal (n / 10 ^ power) ++ List.replicate power '0' :=
    Text.toDigits_mul_pow (by decide) hdigits power
  rw [Nat.div_mul_cancel hzeros] at hwritten
  unfold text
  simp only [if_neg hmantissa, hshortest, Bool.false_eq_true, if_false, List.nil_append]
  unfold positional
  rw [if_pos (Int.natCast_nonneg power), Int.toNat_natCast]
  exact hwritten.symm

/-- A natural number of at most fifty-three bits is written as its decimal numeral. -/
theorem text_ofNat (h : n ≤ 2 ^ 53) : (ofNat n).text = Text.decimal n := by
  rcases Nat.eq_or_lt_of_le h with rfl | hless
  · decide +kernel
  by_cases hzero : n = 0
  · subst hzero
    rfl
  have hshort : n.log2 < 53 := (Nat.log2_lt hzero).mpr hless
  have hlength : (Text.decimal n).length ≤ 17 := by
    rw [Text.decimal, Nat.length_toDigits_le_iff (by decide) (by decide)]
    omega
  rw [ofNat_of_log2_lt hzero hshort]
  exact text_whole (Nat.pos_of_ne_zero hzero) hlength (52 - n.log2)

end Binary64

end FlowFence
