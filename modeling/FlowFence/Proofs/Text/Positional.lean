import FlowFence.Proofs.Text.Numeral
import Mathlib.Data.List.Forall2
import Mathlib.Data.Nat.Digits.Defs

/-!
# Numerals by place

A numeral is one or more digits of its base, letters in either case, and stands for the sum of its
digits, each times the power of the base for its place. Nothing else is read as a numeral.
-/

namespace FlowFence

namespace Text

variable {base : Nat} {c : Char} {digit n : Nat} {text : List Char}

def IsDigitOf (base : Nat) (c : Char) (digit : Nat) : Prop :=
  digit < base ∧ (c = Nat.digitChar digit ∨ c = (Nat.digitChar digit).toUpper)

/-- Whether a text is one or more digits of a base and stands for a number by their places. -/
def IsNumeral (base : Nat) (text : List Char) (n : Nat) : Prop :=
  text ≠ [] ∧ ∃ digits, List.Forall₂ (IsDigitOf base) text digits ∧
    n = Nat.ofDigits base digits.reverse

/-! ## Digits -/

theorem toNat_lt_of_digitValue? (h : digitValue? c = some digit) : c.toNat < 128 := by
  have hle (low high : Char) : low ≤ high ↔ low.toNat ≤ high.toNat := by
    rw [Char.le_def, UInt32.le_iff_toNat_le]
    rfl
  by_contra hlarge
  simp only [digitValue?, hle, Char.reduceToNat] at h
  rw [if_neg (by omega), if_neg (by omega), if_neg (by omega)] at h
  cases h

theorem digitValue?_eq_some_iff (hdigit : digit < 16) :
    digitValue? c = some digit ↔
      c = Nat.digitChar digit ∨ c = (Nat.digitChar digit).toUpper := by
  constructor
  · intro h
    have hall : ∀ code < 128, ∀ digit < 16, digitValue? (Char.ofNat code) = some digit →
        Char.ofNat code = Nat.digitChar digit ∨
          Char.ofNat code = (Nat.digitChar digit).toUpper := by
      decide +kernel
    rw [← Char.ofNat_toNat c] at h ⊢
    exact hall c.toNat (toNat_lt_of_digitValue? (by rwa [Char.ofNat_toNat] at h)) digit hdigit h
  · have hall : ∀ digit < 16, digitValue? (Nat.digitChar digit) = some digit ∧
        digitValue? (Nat.digitChar digit).toUpper = some digit := by
      decide +kernel
    rintro (rfl | rfl)
    · exact (hall digit hdigit).1
    · exact (hall digit hdigit).2

theorem digitIn?_eq_some_iff (hbase : base ≤ 16) :
    digitIn? base c = some digit ↔ IsDigitOf base c digit := by
  rw [digitIn?, Option.filter_eq_some_iff, decide_eq_true_eq, and_comm, IsDigitOf]
  refine and_congr_right fun hdigit => ?_
  exact digitValue?_eq_some_iff (by omega)

/-! ## Places -/

/-- Further digits move those before them up by a place each. -/
theorem readDigits_eq_some_iff (hbase : base ≤ 16) (front : List Nat) :
    readDigits base (Nat.ofDigits base front.reverse) text = some n ↔
      ∃ digits, List.Forall₂ (IsDigitOf base) text digits ∧
        n = Nat.ofDigits base (front ++ digits).reverse := by
  induction text generalizing front with
  | nil => simp [readDigits, eq_comm]
  | cons c text ih =>
      have hnext (digit : Nat) : Nat.ofDigits base front.reverse * base + digit =
          Nat.ofDigits base (front ++ [digit]).reverse := by
        simp [Nat.ofDigits_cons, Nat.mul_comm, Nat.add_comm]
      rw [readDigits]
      constructor
      · intro h
        split at h
        · rename_i digit hdigit
          rw [hnext, ih] at h
          obtain ⟨digits, hdigits, hn⟩ := h
          refine ⟨digit :: digits, .cons ((digitIn?_eq_some_iff hbase).mp hdigit) hdigits, ?_⟩
          rw [hn, List.append_assoc, List.singleton_append]
        · cases h
      · rintro ⟨_, hdigits, rfl⟩
        obtain ⟨digit, digits, hdigit, hrest, rfl⟩ := List.forall₂_cons_left_iff.mp hdigits
        rw [(digitIn?_eq_some_iff hbase).mpr hdigit]
        dsimp only
        rw [hnext, ih]
        exact ⟨digits, hrest, by rw [List.append_assoc, List.singleton_append]⟩

theorem numeral?_eq_some_iff (hbase : base ≤ 16) :
    numeral? base text = some n ↔ IsNumeral base text n := by
  cases text with
  | nil => simp [numeral?, IsNumeral]
  | cons c text =>
      have hread : readDigits base 0 (c :: text) = some n ↔ _ := readDigits_eq_some_iff hbase []
      simpa [numeral?, IsNumeral] using hread

/-! ## Decimal numerals -/

/-- Decimal digits have no case. -/
theorem isDigitOf_ten_iff : IsDigitOf 10 c digit ↔ digit < 10 ∧ c = Nat.digitChar digit := by
  have hcase : ∀ d < 10, (Nat.digitChar d).toUpper = Nat.digitChar d := by decide
  rw [IsDigitOf]
  refine and_congr_right fun hdigit => ?_
  rw [hcase digit hdigit, or_self]

/-- Digits behind those of a positive value are written behind them. -/
theorem decimal_of_readDigits {value : Nat} (hvalue : 0 < value)
    (h : readDigits 10 value text = some n) : decimal n = decimal value ++ text := by
  induction text generalizing value with
  | nil =>
      rw [readDigits, Option.some.injEq] at h
      rw [h, List.append_nil]
  | cons c text ih =>
      rw [readDigits] at h
      split at h
      · rename_i digit hdigit
        obtain ⟨hlt, rfl⟩ := isDigitOf_ten_iff.mp ((digitIn?_eq_some_iff (by decide)).mp hdigit)
        have hnext : decimal (value * 10 + digit) = decimal value ++ [Nat.digitChar digit] := by
          rw [decimal, Nat.mul_comm, ← Nat.toDigits_append_toDigits (by decide) hvalue hlt,
            Nat.toDigits_of_lt_base hlt, ← decimal]
        rw [ih (by omega) h, hnext, List.append_assoc, List.singleton_append]
      · cases h

/-- A decimal numeral without leading zeros is the one that is written for its value. -/
theorem eq_decimal_of_numeral? (hlead : text.length = 1 ∨ text.head? ≠ some '0')
    (h : numeral? 10 text = some n) : text = decimal n := by
  cases text with
  | nil => cases h
  | cons c text =>
      rw [numeral?, List.isEmpty_cons, if_neg (by decide), readDigits] at h
      split at h
      · rename_i digit hdigit
        obtain ⟨hlt, rfl⟩ := isDigitOf_ten_iff.mp ((digitIn?_eq_some_iff (by decide)).mp hdigit)
        rw [Nat.zero_mul, Nat.zero_add] at h
        have hfirst : decimal digit = [Nat.digitChar digit] := Nat.toDigits_of_lt_base hlt
        cases text with
        | nil =>
            rw [readDigits, Option.some.injEq] at h
            rw [← h, hfirst]
        | cons second text =>
            have hzero : digit ≠ 0 := by
              intro hzero
              subst hzero
              simp at hlead
            rw [decimal_of_readDigits (by omega) h, hfirst, List.singleton_append]
      · cases h

/-! ## Words -/

/-- Whether a text is a decimal numeral for a number, with a plus sign in front of it or not. -/
def IsWord (text : List Char) (n : Nat) : Prop :=
  IsNumeral 10 text n ∨ ∃ digits, text = '+' :: digits ∧ IsNumeral 10 digits n

theorem word?_eq_some_iff {limit : Nat} : word? limit text = some n ↔ IsWord text n ∧ n ≤ limit := by
  have hplus : ∀ digits, ¬ IsNumeral 10 ('+' :: digits) n := by
    intro digits h
    have hread := (numeral?_eq_some_iff (by decide)).mpr h
    rw [numeral?_eq_none (by decide) List.mem_cons_self] at hread
    cases hread
  unfold word?
  split
  · rename_i digits
    simp [Option.filter_eq_some_iff, numeral?_eq_some_iff, IsWord, hplus]
  · rename_i hnone
    have hnone : ∀ digits, text ≠ '+' :: digits := fun digits heq => hnone digits heq
    simp [Option.filter_eq_some_iff, numeral?_eq_some_iff, IsWord, hnone]

end Text

end FlowFence
