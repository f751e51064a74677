import FlowFence.Proofs.Address.RoundTrip

/-!
# Written forms of addresses

The text written for an address of the second family leaves out the longest run of two or more zero
groups, the first of them if there are several; it is all groups if there is none, and has octets
for its last two groups just if it is a mapped address of the first family.
-/

namespace FlowFence

namespace Address

variable {values : List Nat} {place length : Nat} {text : List Char}

def ZerosAt (values : List Nat) (place count : Nat) : Prop :=
  ∀ i < count, values[place + i]? = some 0

/-- Whether a run of zero groups is the longest one, and the first of these. -/
structure IsFirstLongest (values : List Nat) (place length : Nat) : Prop where
  zeros : ZerosAt values place length
  longest : ∀ other count, ZerosAt values other count → count ≤ length
  first : ∀ other count, ZerosAt values other count → other < place → count < length

/-- Whether a text is the one that the rules for texts of addresses give an address. -/
inductive IsWritten : List Char → Address → Prop where
  | octets (bits : BitVec 32) : IsWritten (octetsText bits.toNat) (v4 bits)
  | mapped {bits : BitVec 128} (mapped : bits.toNat / 2 ^ 32 = 0xFFFF) :
      IsWritten ("::ffff:".toList ++ octetsText (bits.toNat % 2 ^ 32)) (v6 bits)
  | whole {bits : BitVec 128} (unmapped : bits.toNat / 2 ^ 32 ≠ 0xFFFF)
      (none : ∀ place, ¬ ZerosAt (groups bits) place 2) :
      IsWritten (groupsText (groups bits)) (v6 bits)
  | shortened {bits : BitVec 128} {place length : Nat}
      (unmapped : bits.toNat / 2 ^ 32 ≠ 0xFFFF)
      (run : IsFirstLongest (groups bits) place length) (long : 2 ≤ length) :
      IsWritten (groupsText ((groups bits).take place) ++ ':' :: ':' ::
        groupsText ((groups bits).drop (place + length))) (v6 bits)

/-! ## Runs of zero groups -/

theorem zerosAt_zero_iff {count : Nat} : ZerosAt values 0 count ↔ count ≤ zerosAhead values := by
  induction values generalizing count with
  | nil =>
      cases count with
      | zero => simp [ZerosAt]
      | succ count =>
          have hnone : ¬ ZerosAt [] 0 (count + 1) := fun h => by
            have hfirst := h 0 (Nat.succ_pos count)
            cases hfirst
          simp [hnone, zerosAhead]
  | cons group values ih =>
      cases count with
      | zero => simp [ZerosAt]
      | succ count =>
          have hsplit : ZerosAt (group :: values) 0 (count + 1) ↔
              group = 0 ∧ ZerosAt values 0 count := by
            simp only [ZerosAt, Nat.forall_lt_succ_left, Nat.zero_add, List.getElem?_cons_zero,
              List.getElem?_cons_succ, Option.some.injEq]
          rw [hsplit, ih, zerosAhead, zerosAhead, List.takeWhile_cons]
          by_cases hzero : group = 0
          · simp [hzero]
          · simp [hzero]

theorem zerosAt_iff {count : Nat} :
    ZerosAt values place count ↔ count ≤ zerosAhead (values.drop place) := by
  rw [← zerosAt_zero_iff, ZerosAt, ZerosAt]
  simp only [List.getElem?_drop, Nat.zero_add]

/-- The run that is found among the first places is the first of the longest ones there. -/
theorem longest_of_places (values : List Nat) (places : Nat) :
    let found := (List.range places).foldl
      (fun best place =>
        let length := zerosAhead (values.drop place)
        if best.2 < length then (place, length) else best) (0, 0)
    found.1 ≤ places ∧ ∀ other < places, zerosAhead (values.drop other) ≤ found.2 ∧
      (other < found.1 → zerosAhead (values.drop other) < found.2) := by
  induction places with
  | zero => simp
  | succ places ih =>
      rw [List.range_succ, List.foldl_append, List.foldl_cons, List.foldl_nil]
      generalize (List.range places).foldl _ _ = found at ih ⊢
      obtain ⟨hle, hothers⟩ := ih
      dsimp only
      split
      · rename_i hlonger
        refine ⟨Nat.le_succ places, fun other hother => ?_⟩
        rcases Nat.lt_succ_iff_lt_or_eq.mp hother with hbefore | rfl
        · have hshort := (hothers other hbefore).1
          exact ⟨by omega, fun _ => by omega⟩
        · exact ⟨Nat.le_refl _, fun hlt => (Nat.lt_irrefl _ hlt).elim⟩
      · rename_i hshorter
        refine ⟨Nat.le_succ_of_le hle, fun other hother => ?_⟩
        rcases Nat.lt_succ_iff_lt_or_eq.mp hother with hbefore | rfl
        · exact hothers other hbefore
        · exact ⟨by omega, fun hlt => by omega⟩

/-- The writer finds the run to leave out. -/
theorem isFirstLongest_longestZeros (values : List Nat) :
    IsFirstLongest values (longestZeros values).1 (longestZeros values).2 := by
  obtain ⟨hle, hothers⟩ := longest_of_places values values.length
  rw [← longestZeros] at hle hothers
  have hbehind {other count : Nat} (hother : ¬ other < values.length)
      (h : ZerosAt values other count) : count = 0 := by
    have hcount := zerosAt_iff.mp h
    rw [List.drop_eq_nil_of_le (Nat.le_of_not_lt hother)] at hcount
    exact Nat.le_zero.mp hcount
  refine ⟨zerosAt_iff.mpr (longestZeros_le_zerosAhead values), ?_, ?_⟩
  · intro other count h
    by_cases hother : other < values.length
    · exact Nat.le_trans (zerosAt_iff.mp h) (hothers other hother).1
    · rw [hbehind hother h]
      exact Nat.zero_le _
  · intro other count h hlt
    exact Nat.lt_of_le_of_lt (zerosAt_iff.mp h) ((hothers other (by omega)).2 hlt)

theorem IsFirstLongest.unique {place' length' : Nat} (h : IsFirstLongest values place length)
    (h' : IsFirstLongest values place' length') : place = place' ∧ length = length' := by
  have hlength : length = length' :=
    Nat.le_antisymm (h'.longest place length h.zeros) (h.longest place' length' h'.zeros)
  refine ⟨Nat.le_antisymm ?_ ?_, hlength⟩
  · apply Nat.le_of_not_lt
    intro hlt
    have hshort := h.first place' length' h'.zeros hlt
    omega
  · apply Nat.le_of_not_lt
    intro hlt
    have hshort := h'.first place length h.zeros hlt
    omega

theorem IsFirstLongest.two_le_iff (h : IsFirstLongest values place length) :
    2 ≤ length ↔ ∃ other, ZerosAt values other 2 := by
  constructor
  · intro hlong
    exact ⟨place, fun i hi => h.zeros i (by omega)⟩
  · intro hpair
    obtain ⟨other, hzeros⟩ := hpair
    exact h.longest other 2 hzeros

/-! ## Texts -/

theorem textV6_of_unmapped {bits : BitVec 128} (h : bits.toNat / 2 ^ 32 ≠ 0xFFFF) :
    textV6 bits = textOfGroups (groups bits) :=
  if_neg h

theorem textOfGroups_eq (run : IsFirstLongest values place length) :
    textOfGroups values = if length < 2 then groupsText values
      else groupsText (values.take place) ++ ':' :: ':' ::
        groupsText (values.drop (place + length)) := by
  obtain ⟨rfl, rfl⟩ := run.unique (isFirstLongest_longestZeros values)
  simp [textOfGroups]

theorem isWritten_textV6 (bits : BitVec 128) : IsWritten (textV6 bits) (v6 bits) := by
  rw [textV6]
  split
  · exact .mapped ‹_›
  · rename_i hunmapped
    have hrun := isFirstLongest_longestZeros (groups bits)
    rw [textOfGroups_eq hrun]
    split
    · rename_i hshort
      refine .whole hunmapped fun other hzeros => ?_
      have hlong := hrun.two_le_iff.mpr ⟨other, hzeros⟩
      omega
    · exact .shortened hunmapped hrun (by omega)

/-- The text of an address is the only one that is written as the rules say. -/
theorem isWritten_iff {address : Address} : IsWritten text address ↔ text = address.text := by
  constructor
  · intro h
    cases h with
    | octets bits => rfl
    | mapped mapped => exact (if_pos mapped).symm
    | @whole bits unmapped none =>
        have hrun := isFirstLongest_longestZeros (groups bits)
        have hshort : (longestZeros (groups bits)).2 < 2 := by
          apply Nat.lt_of_not_le
          intro hlong
          obtain ⟨place, hzeros⟩ := hrun.two_le_iff.mp hlong
          exact none place hzeros
        change _ = textV6 bits
        rw [textV6_of_unmapped unmapped, textOfGroups_eq hrun, if_pos hshort]
    | @shortened bits place length unmapped run long =>
        change _ = textV6 bits
        rw [textV6_of_unmapped unmapped, textOfGroups_eq run, if_neg (Nat.not_lt.mpr long)]
  · intro h
    obtain ⟨family, bits⟩ := address
    rw [h]
    cases family with
    | ipv4 => exact .octets bits
    | ipv6 => exact isWritten_textV6 bits

end Address

end FlowFence
