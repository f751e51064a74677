import FlowFence.Proofs.Binary32.Value
import FlowFence.Proofs.Route.Community

/-!
# Rates

A rate is cut off toward zero before its sign is looked at, so the least rate that is read is not
zero but anything above `-1`.
-/

namespace FlowFence

namespace Route

variable {action : Action} {group kind code field : List Char} {bits : Nat}

/-- A rate is read of a number above `-1` and below `2 ^ 63`. -/
theorem rate_eq_ok_iff {n : Int} (hrate : action.isRate = true) (hbits : bits < 2 ^ 32)
    (hcode : typeCode? code = some (action.code : Int)) (hfield : IsHexadecimal bits field) :
    actionAndArgument? code field = .ok (action, n) ↔
      ∃ x ∈ Binary32.value? bits, -1 < x ∧ x < 2 ^ 63 ∧ n = max ⌊x⌋ 0 := by
  rw [actionAndArgument?_eq_ok_iff, decodeRate?_of_isHexadecimal hbits hfield,
    Binary32.truncate?_eq_some_iff]
  constructor
  · rintro ⟨-, ⟨x, hx, hbound, rfl⟩, hnonneg⟩
    have hleast : -1 < x := Binary32.towardZero_nonneg_iff.mp (hnonneg hrate)
    exact ⟨x, hx, hleast, (abs_lt.mp hbound).2, Binary32.towardZero_eq_max hleast⟩
  · rintro ⟨x, hx, hleast, hbound, rfl⟩
    rw [← Binary32.towardZero_eq_max hleast]
    refine ⟨hcode, ⟨x, hx, abs_lt.mpr ⟨by linarith, hbound⟩, rfl⟩, fun _ => ?_⟩
    exact Binary32.towardZero_nonneg_iff.mpr hleast

/--
A community of a rate, whose argument is a pattern in hexadecimal, is read just if the pattern
denotes a number above `-1` and below `2 ^ 63`; the argument is the floor of that number, and zero
for those below zero. Every other pattern is a fault of the community.
-/
theorem rate_is_accepted_iff (hrate : action.isRate = true) (hbits : bits < 2 ^ 32)
    (hgroup : communityFields group = [kind, code, field])
    (hcode : typeCode? code = some (action.code : Int)) (hfield : IsHexadecimal bits field) :
    (∀ result, community? group = .ok result ↔
      ∃ x ∈ Binary32.value? bits, -1 < x ∧ x < 2 ^ 63 ∧ result = (action, max ⌊x⌋ 0)) ∧
    ((∀ x ∈ Binary32.value? bits, x ≤ -1 ∨ 2 ^ 63 ≤ x) →
      ∃ fault, community? group = .error (.community fault)) := by
  rw [community?_of_fields hgroup]
  constructor
  · rintro ⟨found, n⟩
    constructor
    · intro h
      obtain rfl : found = action := by
        have hfound := typeCode?_of_actionAndArgument? h
        rw [hcode, Option.some.injEq] at hfound
        exact (Action.code_inj.mp hfound).symm
      obtain ⟨x, hx, hleast, hbound, rfl⟩ := (rate_eq_ok_iff hrate hbits hcode hfield).mp h
      exact ⟨x, hx, hleast, hbound, rfl⟩
    · rintro ⟨x, hx, hleast, hbound, hresult⟩
      cases hresult
      exact (rate_eq_ok_iff hrate hbits hcode hfield).mpr ⟨x, hx, hleast, hbound, rfl⟩
  · intro hillegal
    refine exists_fault_of_code hcode fun n h => ?_
    obtain ⟨x, hx, hleast, hbound, -⟩ := (rate_eq_ok_iff hrate hbits hcode hfield).mp h
    rcases hillegal x hx with hx | hx <;> linarith

/-- Digits may be of either case, and a pattern of no number is a fault. -/
theorem pageRate_is_accepted :
    community? "generic, 0x80060000, 4AC80000".toList = .ok (.rateBytes, 6553600) ∧
      ∃ fault, community? "generic, 0x800c0000, 0x7fc00000".toList = .error (.community fault) := by
  have hvalue : Binary32.value? 0x4ac80000 = some 6553600 := by
    norm_num [Binary32.value?, Binary32.exponentField, Binary32.fraction, Binary32.isNegative]
  have hnone : Binary32.value? 0x7fc00000 = none := Binary32.value?_eq_none_iff.mpr (by decide)
  obtain ⟨haccepts, -⟩ := @rate_is_accepted_iff .rateBytes "generic, 0x80060000, 4AC80000".toList
    "generic".toList "0x80060000".toList "4AC80000".toList 0x4ac80000 (by decide) (by decide)
    (by decide) (by decide) ⟨[], by simp, _, rfl, by decide⟩
  obtain ⟨-, hrefuses⟩ := @rate_is_accepted_iff .ratePackets
    "generic, 0x800c0000, 0x7fc00000".toList "generic".toList "0x800c0000".toList
    "0x7fc00000".toList 0x7fc00000 (by decide) (by decide) (by decide) (by decide)
    ⟨['0', 'x'], by simp, "7fc00000".toList, rfl, by decide⟩
  constructor
  · refine (haccepts _).mpr ⟨6553600, hvalue, by norm_num, by norm_num, ?_⟩
    norm_num
  · refine hrefuses fun x hx => ?_
    rw [hnone] at hx
    cases hx

/-- A rate between `-1` and zero is read as zero, though it is no legal rate. -/
theorem small_negative_rate_is_accepted :
    ¬ ∀ (action : Action) (group kind code field : List Char) (bits : Nat) (n : Int),
      action.isRate = true → bits < 2 ^ 32 → communityFields group = [kind, code, field] →
        typeCode? code = some (action.code : Int) → IsHexadecimal bits field →
          (community? group = .ok (action, n) ↔
            ∃ x ∈ Binary32.value? bits, 0 ≤ x ∧ x < 2 ^ 63 ∧ n = ⌊x⌋) := by
  intro hall
  have hvalue : Binary32.value? 0xbf000000 = some (-1 / 2) := by
    norm_num [Binary32.value?, Binary32.exponentField, Binary32.fraction, Binary32.isNegative]
  have hread : community? "generic, 0x80060000, 0xbf000000".toList = .ok (.rateBytes, 0) := by
    decide
  have hlegal := (hall .rateBytes "generic, 0x80060000, 0xbf000000".toList "generic".toList
    "0x80060000".toList "0xbf000000".toList 0xbf000000 0 (by decide) (by decide) (by decide)
    (by decide) ⟨['0', 'x'], by simp, "bf000000".toList, rfl, by decide⟩).mp hread
  obtain ⟨x, hx, hnonneg, -⟩ := hlegal
  rw [hvalue, Option.mem_some_iff] at hx
  subst hx
  norm_num at hnonneg

end Route

end FlowFence
