import FlowFence.Proofs.Text.BaseNumeral
import FlowFence.Proofs.Text.Positional

/-!
# Numerals in four bases

The grammar of numerals that name their base, said without the reader. No digit of a base is the
mark of another one behind a zero, so that each text is of one form at most.
-/

namespace FlowFence

namespace Text

variable {text digits : List Char} {mark : Char} {base n : Nat}

def baseMarks : List (Char × Nat) :=
  [('x', 16), ('X', 16), ('b', 2), ('B', 2), ('o', 8), ('O', 8)]

/--
Whether a text is a numeral in the base that shows in front: in that of its mark behind a zero, in
octal behind a zero without a mark, else in decimal.
-/
inductive IsBased : List Char → Nat → Prop where
  | marked {mark : Char} {base : Nat} {digits : List Char} {n : Nat}
      (named : (mark, base) ∈ baseMarks) (value : IsNumeral base digits n) :
      IsBased ('0' :: mark :: digits) n
  | octal {digits : List Char} {n : Nat} (value : IsNumeral 8 digits n) : IsBased ('0' :: digits) n
  | decimal {text : List Char} {n : Nat} (lead : text = ['0'] ∨ text.head? ≠ some '0')
      (value : IsNumeral 10 text n) : IsBased text n

theorem baseAndDigits_of_mem (h : (mark, base) ∈ baseMarks) (digits : List Char) :
    baseAndDigits ('0' :: mark :: digits) = (base, digits) := by
  simp only [baseMarks, List.mem_cons, Prod.mk.injEq, List.not_mem_nil, or_false] at h
  rcases h with ⟨rfl, rfl⟩ | ⟨rfl, rfl⟩ | ⟨rfl, rfl⟩ | ⟨rfl, rfl⟩ | ⟨rfl, rfl⟩ | ⟨rfl, rfl⟩ <;> rfl

theorem baseAndDigits_of_not_mem (h : ∀ base, (mark, base) ∉ baseMarks) (digits : List Char) :
    baseAndDigits ('0' :: mark :: digits) = (8, mark :: digits) := by
  have hhexadecimal := h 16
  have hbinary := h 2
  have hoctal := h 8
  simp [baseMarks] at hhexadecimal hbinary hoctal
  simp [baseAndDigits, hhexadecimal, hbinary, hoctal]

theorem baseAndDigits_of_lead (h : text = ['0'] ∨ text.head? ≠ some '0') :
    baseAndDigits text = (10, text) := by
  unfold baseAndDigits
  split
  · simp at h
  · rfl

/-- No octal digit is a mark. -/
theorem not_mem_baseMarks_of_isNumeral (h : IsNumeral 8 (mark :: digits) n) (base : Nat) :
    (mark, base) ∉ baseMarks := by
  obtain ⟨-, values, hvalues, -⟩ := h
  obtain ⟨digit, rest, hdigit, -, -⟩ := List.forall₂_cons_left_iff.mp hvalues
  have hnone : ∀ digit < 8, ∀ named ∈ baseMarks,
      named.1 ≠ Nat.digitChar digit ∧ named.1 ≠ (Nat.digitChar digit).toUpper := by
    decide +kernel
  intro hnamed
  obtain ⟨hlower, hupper⟩ := hnone digit hdigit.1 (mark, base) hnamed
  rcases hdigit.2 with hmark | hmark
  · exact hlower hmark
  · exact hupper hmark

theorem isBased_iff :
    IsBased text n ↔ IsNumeral (baseAndDigits text).1 (baseAndDigits text).2 n := by
  constructor
  · intro h
    cases h with
    | marked named value => rwa [baseAndDigits_of_mem named]
    | @octal digits _ value =>
        obtain ⟨mark, digits, rfl⟩ := List.exists_cons_of_ne_nil value.1
        rwa [baseAndDigits_of_not_mem (not_mem_baseMarks_of_isNumeral value)]
    | decimal lead value => rwa [baseAndDigits_of_lead lead]
  · intro h
    by_cases hlead : text = ['0'] ∨ text.head? ≠ some '0'
    · rw [baseAndDigits_of_lead hlead] at h
      exact .decimal hlead h
    · obtain ⟨hlong, hzero⟩ := not_or.mp hlead
      obtain ⟨rest, rfl⟩ := List.head?_eq_some_iff.mp (Classical.not_not.mp hzero)
      cases rest with
      | nil => exact absurd rfl hlong
      | cons mark digits =>
          by_cases hnamed : ∃ base, (mark, base) ∈ baseMarks
          · obtain ⟨base, hnamed⟩ := hnamed
            rw [baseAndDigits_of_mem hnamed] at h
            exact .marked hnamed h
          · rw [baseAndDigits_of_not_mem (not_exists.mp hnamed)] at h
            exact .octal h

theorem baseAndDigits_le (text : List Char) : (baseAndDigits text).1 ≤ 16 := by
  unfold baseAndDigits
  repeat' split
  all_goals simp

theorem unsignedNumeral?_eq_some_iff :
    unsignedNumeral? text = some n ↔ IsBased (trim text) n ∧ n < 2 ^ 64 := by
  rw [unsignedNumeral?, Option.filter_eq_some_iff, decide_eq_true_eq,
    numeral?_eq_some_iff (baseAndDigits_le (trim text)), isBased_iff]

end Text

end FlowFence
