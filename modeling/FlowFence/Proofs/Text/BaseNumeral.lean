import FlowFence.Proofs.Text.Numeral
import FlowFence.Proofs.Text.Words
import FlowFence.Text.BaseNumeral

/-!
# Words and numerals read back

A machine word in decimal, a numeral in decimal or with `0x` in front, and one with leading zeros
are read as the number that was written.
-/

namespace FlowFence

namespace Text

variable {base : Nat}

theorem not_isBlank_of_mem_toDigits (hbase : 1 < base) (hle : base ≤ 16) {n : Nat} {c : Char}
    (h : c ∈ Nat.toDigits base n) : isBlank c = false := by
  obtain ⟨digit, hdigit, rfl⟩ := exists_digit_of_mem_toDigits hbase h
  have hplain : ∀ d < 16, isBlank (Nat.digitChar d) = false := by decide
  exact hplain digit (by omega)

theorem digitIn?_of_isBlank {c : Char} (h : isBlank c = true) : digitIn? base c = none := by
  have hle (low high : Char) : low ≤ high ↔ low.toNat ≤ high.toNat := by
    rw [Char.le_def, UInt32.le_iff_toNat_le]
    rfl
  have hvalue : digitValue? c = none := by
    simp only [isBlank, Bool.or_eq_true, Bool.and_eq_true, decide_eq_true_eq, beq_iff_eq] at h
    simp only [digitValue?, hle, Char.reduceToNat]
    rw [if_neg (by omega), if_neg (by omega), if_neg (by omega)]
  rw [digitIn?, hvalue]
  rfl

theorem not_isBlank_of_mem_numeral {text : List Char} {n : Nat} (h : numeral? base text = some n)
    {c : Char} (hc : c ∈ text) : isBlank c = false := by
  cases hblank : isBlank c with
  | false => rfl
  | true =>
      rw [numeral?_eq_none (digitIn?_of_isBlank hblank) hc] at h
      cases h

theorem word?_decimal {limit n : Nat} (h : n ≤ limit) : word? limit (decimal n) = some n := by
  have hplus : '+' ∉ decimal n := not_mem_toDigits (by decide) (by decide) (by decide) n
  unfold word?
  split
  · rename_i digits hdigits
    exact (hplus (by simp [hdigits])).elim
  · simp [h]

theorem not_mem_of_word? {limit n : Nat} {text : List Char} {c : Char} (hplus : c ≠ '+')
    (hdigit : digitIn? 10 c = none) (h : word? limit text = some n) : c ∉ text := by
  have hdigits {digits : List Char} (h : (numeral? 10 digits).filter (· ≤ limit) = some n) :
      c ∉ digits := by
    intro hmem
    rw [numeral?_eq_none hdigit hmem] at h
    cases h
  unfold word? at h
  split at h
  · simp [hplus, hdigits h]
  · exact hdigits h

theorem baseAndDigits_decimal {n : Nat} (h : 0 < n) :
    baseAndDigits (decimal n) = (10, decimal n) := by
  have hlead : (decimal n).head? ≠ some '0' := head?_toDigits_ne_zero (by decide) (by decide) h
  unfold baseAndDigits
  split
  · rename_i mark rest hdigits
    simp [hdigits] at hlead
  · rfl

theorem unsignedNumeral?_decimal {n : Nat} (hpos : 0 < n) (h : n < 2 ^ 64) :
    unsignedNumeral? (decimal n) = some n := by
  have htrim : trim (decimal n) = decimal n :=
    trim_eq_self fun c hc => not_isBlank_of_mem_toDigits (by decide) (by decide) hc
  rw [unsignedNumeral?, htrim, baseAndDigits_decimal hpos]
  dsimp only
  rw [numeral?_decimal, Option.filter_some, if_pos (decide_eq_true h)]

/-- Zeros in front of a numeral do not change its value. -/
theorem numeral?_padded (hbase : 1 < base) (hle : base ≤ 16) (width n : Nat) :
    numeral? base (padded width (Nat.toDigits base n)) = some n := by
  rw [numeral?, padded, readDigits_append, readDigits_zeros (Nat.zero_lt_of_lt hbase)]
  simp [readDigits_toDigits hbase hle]

theorem signedNumeral?_hexadecimal {n : Nat} (h : n < 2 ^ 63) :
    signedNumeral? ('0' :: 'x' :: hexadecimal n) = some (n : Int) := by
  have htrim : trim ('0' :: 'x' :: hexadecimal n) = '0' :: 'x' :: hexadecimal n := by
    refine trim_eq_self fun c hc => ?_
    simp only [List.mem_cons] at hc
    rcases hc with rfl | rfl | hdigit
    · decide
    · decide
    · exact not_isBlank_of_mem_toDigits (by decide) (by decide) hdigit
  have hread : unsignedNumeral? ('0' :: 'x' :: hexadecimal n) = some n := by
    rw [unsignedNumeral?, htrim]
    simp [baseAndDigits]
    omega
  have hsign : takeSign ('0' :: 'x' :: hexadecimal n) = (false, '0' :: 'x' :: hexadecimal n) := rfl
  rw [signedNumeral?, hsign]
  dsimp only
  rw [hread, Option.filter_some, if_pos (decide_eq_true h)]
  rfl

end Text

end FlowFence
