import FlowFence.Text.Numeral

/-!
# Numerals read back

The digits written for a number are read as that number, in decimal and in hexadecimal.
-/

namespace FlowFence

namespace Text

variable {base : Nat}

/-! ## Digits -/

theorem digitIn?_digitChar (hbase : base ≤ 16) {digit : Nat} (h : digit < base) :
    digitIn? base (Nat.digitChar digit) = some digit := by
  have hvalue : ∀ d < 16, digitValue? (Nat.digitChar d) = some d := by decide
  rw [digitIn?, hvalue digit (by omega)]
  simp [h]

theorem exists_digit_of_mem_toDigits (hbase : 1 < base) {n : Nat} {c : Char}
    (h : c ∈ Nat.toDigits base n) : ∃ digit < base, c = Nat.digitChar digit := by
  induction n using Nat.strongRecOn with
  | _ n ih =>
      rw [Nat.toDigits_eq_if hbase] at h
      split at h
      · exact ⟨n, ‹_›, List.mem_singleton.mp h⟩
      · rcases List.mem_append.mp h with h | h
        · exact ih (n / base) (Nat.div_lt_self (by omega) hbase) h
        · exact ⟨n % base, Nat.mod_lt n (by omega), List.mem_singleton.mp h⟩

/-- No digit of a numeral is a character that is no digit. -/
theorem not_mem_toDigits (hbase : 1 < base) (hle : base ≤ 16) {c : Char}
    (hc : digitValue? c = none) (n : Nat) : c ∉ Nat.toDigits base n := by
  intro h
  obtain ⟨digit, hdigit, rfl⟩ := exists_digit_of_mem_toDigits hbase h
  have hread := digitIn?_digitChar hle hdigit
  simp [digitIn?, hc] at hread

theorem head?_toDigits_ne_zero (hbase : 1 < base) (hle : base ≤ 16) {n : Nat} (h : 0 < n) :
    (Nat.toDigits base n).head? ≠ some '0' := by
  induction n using Nat.strongRecOn with
  | _ n ih =>
      rw [Nat.toDigits_eq_if hbase]
      split
      · have hdigit : ∀ d < 16, 0 < d → Nat.digitChar d ≠ '0' := by decide
        simpa using hdigit n (by omega) h
      · have hquotient : 0 < n / base := Nat.div_pos (by omega) (by omega)
        have hfront := ih (n / base) (Nat.div_lt_self h hbase) hquotient
        cases hdigits : Nat.toDigits base (n / base) with
        | nil => exact (Nat.toDigits_ne_nil hdigits).elim
        | cons c digits => simpa [hdigits] using hfront

/-- Zeros behind a numeral multiply its value by powers of the base. -/
theorem toDigits_mul_pow (hbase : 1 < base) {n : Nat} (h : 0 < n) (count : Nat) :
    Nat.toDigits base (n * base ^ count) = Nat.toDigits base n ++ List.replicate count '0' := by
  induction count with
  | zero => simp
  | succ count ih =>
      have hpos : 0 < n * base ^ count := Nat.mul_pos h (Nat.pow_pos (by omega))
      have hnext := Nat.toDigits_append_toDigits hbase hpos (Nat.zero_lt_of_lt hbase)
      rw [Nat.pow_succ', Nat.mul_left_comm, ← Nat.add_zero (base * _), ← hnext, ih,
        Nat.toDigits_zero, List.append_assoc, ← List.replicate_succ']

/-! ## Reading -/

theorem readDigits_append (value : Nat) (front back : List Char) :
    readDigits base value (front ++ back) =
      (readDigits base value front).bind fun read => readDigits base read back := by
  induction front generalizing value with
  | nil => rfl
  | cons c front ih =>
      simp only [List.cons_append, readDigits]
      cases digitIn? base c with
      | none => rfl
      | some digit => exact ih _

theorem readDigits_zeros (hbase : 0 < base) (value count : Nat) :
    readDigits base value (List.replicate count '0') = some (value * base ^ count) := by
  induction count generalizing value with
  | zero => simp [readDigits]
  | succ count ih =>
      have hzero : digitIn? base '0' = some 0 := by
        simpa [digitIn?, show digitValue? '0' = some 0 by decide] using hbase
      rw [List.replicate_succ, readDigits, hzero]
      dsimp only
      rw [Nat.add_zero, ih, Nat.pow_succ', Nat.mul_assoc]

theorem readDigits_toDigits (hbase : 1 < base) (hle : base ≤ 16) (n : Nat) :
    readDigits base 0 (Nat.toDigits base n) = some n := by
  induction n using Nat.strongRecOn with
  | _ n ih =>
      rw [Nat.toDigits_eq_if hbase]
      split
      · simp [readDigits, digitIn?_digitChar hle ‹_›]
      · have hmod := digitIn?_digitChar hle (Nat.mod_lt n (by omega : 0 < base))
        rw [readDigits_append, ih (n / base) (Nat.div_lt_self (by omega) hbase)]
        simp [readDigits, hmod, Nat.div_add_mod']

theorem numeral?_toDigits (hbase : 1 < base) (hle : base ≤ 16) (n : Nat) :
    numeral? base (Nat.toDigits base n) = some n := by
  simp [numeral?, readDigits_toDigits hbase hle]

theorem readDigits_eq_none {c : Char} (hc : digitIn? base c = none) {text : List Char}
    (h : c ∈ text) (value : Nat) : readDigits base value text = none := by
  induction text generalizing value with
  | nil => cases h
  | cons d text ih =>
      rw [readDigits]
      rcases List.mem_cons.mp h with rfl | h
      · rw [hc]
      · cases digitIn? base d with
        | none => rfl
        | some digit => exact ih h _

theorem numeral?_eq_none {c : Char} (hc : digitIn? base c = none) {text : List Char}
    (h : c ∈ text) : numeral? base text = none := by
  simp [numeral?, readDigits_eq_none hc h]

@[simp] theorem numeral?_decimal (n : Nat) : numeral? 10 (decimal n) = some n :=
  numeral?_toDigits (by decide) (by decide) n

@[simp] theorem numeral?_hexadecimal (n : Nat) : numeral? 16 (hexadecimal n) = some n :=
  numeral?_toDigits (by decide) (by decide) n

end Text

end FlowFence
