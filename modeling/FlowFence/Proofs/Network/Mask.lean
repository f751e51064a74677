import FlowFence.Proofs.Address.Bytes
import FlowFence.Traffic.Matching

/-!
# Masks and blocks

A mask is as many one bits as its length says and zero bits behind them. Comparing the masked bytes
of an address with the bytes of a block's base is therefore the same as comparing leading bits.
-/

namespace FlowFence

namespace Network

def IsBuilt (network : Network) : Prop :=
  ∃ address length, make? address length = .ok network

theorem getMsbD_mask {family : Family} {length : Nat} (h : length ≤ family.width) (i : Nat) :
    (mask family length).getMsbD i = decide (i < length) := by
  simp only [mask, BitVec.getMsbD_shiftLeft, BitVec.getMsbD_allOnes, decide_eq_decide]
  omega

theorem length_le_of_isBuilt {network : Network} (h : network.IsBuilt) :
    network.length ≤ network.family.width := by
  obtain ⟨address, length, hmake⟩ := h
  unfold make? at hmake
  split at hmake
  · cases hmake
    assumption
  · cases hmake

/-- The base of a block has no bit behind the length. -/
theorem and_mask_of_isBuilt {network : Network} (h : network.IsBuilt) :
    network.base.bits &&& mask network.base.family network.length = network.base.bits := by
  obtain ⟨address, length, hmake⟩ := h
  unfold make? at hmake
  split at hmake
  · cases hmake
    dsimp only
    rw [BitVec.and_assoc, BitVec.and_self]
  · cases hmake

/-- Masking makes bit vectors equal just when they agree on the leading bits. -/
theorem and_mask_eq_and_mask_iff {family : Family} {length : Nat} (h : length ≤ family.width)
    (a b : BitVec family.width) :
    a &&& mask family length = b &&& mask family length ↔
      ∀ i < length, a.getMsbD i = b.getMsbD i := by
  constructor
  · intro heq i hi
    have hbit := congrArg (fun bits => bits.getMsbD i) heq
    simpa [getMsbD_mask h, hi] using hbit
  · intro hagree
    apply BitVec.eq_of_getMsbD_eq
    intro i _
    by_cases hi : i < length
    · simp [hagree i hi]
    · simp [getMsbD_mask h, hi]

theorem masked_bytes_eq_iff_holds {network : Network} (hbuilt : network.IsBuilt)
    {address : Address} (hfamily : address.family = network.family) :
    List.zipWith (· &&& ·) address.bytes network.maskBytes = network.baseBytes ↔
      network.Holds address := by
  have hle := length_le_of_isBuilt hbuilt
  have hbase := and_mask_of_isBuilt hbuilt
  obtain ⟨⟨family, base⟩, length⟩ := network
  obtain ⟨family', bits⟩ := address
  dsimp only [Network.family] at hfamily hle hbase
  subst hfamily
  have hholds : Holds ⟨⟨family', base⟩, length⟩ ⟨family', bits⟩ ↔
      ∀ i < length, base.getMsbD i = bits.getMsbD i :=
    ⟨fun h => h.bits, fun h => ⟨rfl, h⟩⟩
  rw [hholds, ← and_mask_eq_and_mask_iff hle, hbase]
  change List.zipWith (· &&& ·) (bigEndian family'.byteCount bits)
    (bigEndian family'.byteCount (mask family' length)) = bigEndian family'.byteCount base ↔ _
  rw [← bigEndian_and]
  exact ⟨fun h => (bigEndian_injective (Family.width_eq family') h).symm, fun h => by rw [← h]⟩

theorem bitList_mask {family : Family} {length : Nat} (h : length ≤ family.width) :
    bitList (bigEndian family.byteCount (mask family length)) =
      List.replicate length true ++ List.replicate (family.width - length) false := by
  rw [bitList_bigEndian (Family.width_eq _)]
  apply List.ext_getElem
  · simp
    omega
  · intro i _ _
    simp only [List.getElem_map, List.getElem_range, getMsbD_mask h, List.getElem_append,
      List.length_replicate, List.getElem_replicate]
    split <;> simp_all

/-! ## Masked comparisons -/

section Comparison

variable {family : Family} {length : Nat} {kept data : BitVec family.width}

theorem xor_eq_iff {width : Nat} {a b c : BitVec width} : a ^^^ b = c ↔ a = c ^^^ b := by
  constructor
  · rintro rfl
    rw [BitVec.xor_assoc, BitVec.xor_self, BitVec.xor_zero]
  · rintro rfl
    rw [BitVec.xor_assoc, BitVec.xor_self, BitVec.xor_zero]

theorem exists_differs_at {width i : Nat} (hi : i < width) (bits : BitVec width) :
    ∃ other : BitVec width,
      ∀ j, other.getMsbD j = if j = i then !bits.getMsbD i else bits.getMsbD j := by
  refine ⟨bits ^^^ BitVec.twoPow width (width - 1 - i), fun j => ?_⟩
  have hbit : (BitVec.twoPow width (width - 1 - i)).getMsbD j = decide (j = i) := by
    rw [BitVec.getMsbD, BitVec.getLsbD_twoPow]
    by_cases hj : j = i
    · subst hj
      simp [hi]
      omega
    · simp [hj]
      omega
  rw [BitVec.getMsbD_xor, hbit]
  by_cases hj : j = i <;> simp [hj]

theorem eq_mask_of_compares (h : length ≤ family.width)
    (hcompares : ∀ bits, bits &&& kept = data &&& kept ↔
      ∀ i < length, data.getMsbD i = bits.getMsbD i) :
    kept = mask family length := by
  apply BitVec.eq_of_getMsbD_eq
  intro i hi
  -- bits that differ from the data at `i` alone tell whether the mask keeps that place
  obtain ⟨other, hother⟩ := exists_differs_at hi data
  have hself : other.getMsbD i = !data.getMsbD i := by rw [hother, if_pos rfl]
  have helse {j : Nat} (hj : j ≠ i) : other.getMsbD j = data.getMsbD j := by
    rw [hother, if_neg hj]
  rw [getMsbD_mask h]
  by_cases hlength : i < length
  · rw [decide_eq_true hlength, ← Bool.not_eq_false]
    intro hclear
    have hsame : other &&& kept = data &&& kept := by
      apply BitVec.eq_of_getMsbD_eq
      intro j _
      rw [BitVec.getMsbD_and, BitVec.getMsbD_and]
      by_cases hj : j = i
      · rw [hj, hclear, Bool.and_false, Bool.and_false]
      · rw [helse hj]
    have hbit := (hcompares other).mp hsame i hlength
    simp [hself] at hbit
  · rw [decide_eq_false hlength]
    have hsame := (hcompares other).mpr fun j hj => (helse (by omega)).symm
    have hbit := congrArg (fun bits => bits.getMsbD i) hsame
    simp only [BitVec.getMsbD_and, hself] at hbit
    cases hkept : kept.getMsbD i with
    | false => rfl
    | true => simp [hkept] at hbit

/--
Bits that are masked and then flipped give the data just if they agree with the data on the leading
places: for this it takes the mask of those places, and flips that clear the data behind them.
-/
theorem masked_eq_iff_agrees (kept flip data : BitVec family.width)
    (h : length ≤ family.width) :
    (∀ bits, (bits &&& kept) ^^^ flip = data ↔
      ∀ i < length, data.getMsbD i = bits.getMsbD i) ↔
      kept = mask family length ∧ data ^^^ flip = data &&& kept := by
  constructor
  · intro hmasked
    have hflip : data &&& kept = data ^^^ flip :=
      xor_eq_iff.mp ((hmasked data).mpr fun _ _ => rfl)
    have hcompares (bits : BitVec family.width) : bits &&& kept = data &&& kept ↔
        ∀ i < length, data.getMsbD i = bits.getMsbD i := by
      rw [hflip, ← xor_eq_iff]
      exact hmasked bits
    exact ⟨eq_mask_of_compares h hcompares, hflip.symm⟩
  · rintro ⟨rfl, hflip⟩ bits
    rw [xor_eq_iff, hflip, eq_comm, and_mask_eq_and_mask_iff h]

end Comparison

end Network

end FlowFence
