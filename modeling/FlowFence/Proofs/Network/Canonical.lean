import FlowFence.Proofs.Network.Mask

/-!
# Canonical blocks

A block that is built from an address and a length is a normal form of a set of addresses: those of
its family that agree with the address on as many leading bits. Two addresses make the same block
just if they are in that relation, and a block is made by its own base.
-/

namespace FlowFence

namespace Network

variable {address : Address} {length : Nat} {network : Network}

theorem exists_make?_iff :
    (∃ network, make? address length = .ok network) ↔ length ≤ address.family.width := by
  constructor
  · rintro ⟨network, hmake⟩
    by_contra hlong
    rw [make?_of_lt (Nat.lt_of_not_le hlong)] at hmake
    cases hmake
  · intro hle
    exact ⟨_, make?_of_le hle⟩

theorem le_of_make? (h : make? address length = .ok network) : length ≤ address.family.width :=
  exists_make?_iff.mp ⟨network, h⟩

theorem eq_of_make? (h : make? address length = .ok network) :
    network = ⟨⟨address.family, address.bits &&& mask address.family length⟩, length⟩ := by
  rw [make?_of_le (le_of_make? h)] at h
  exact (Except.ok.inj h).symm

/-- A block holds what agrees with the address that it was made of. -/
theorem holds_iff_of_make? (h : make? address length = .ok network) {other : Address}
    (hfamily : other.family = address.family) :
    network.Holds other ↔ ∀ i < length, other.bit i = address.bit i := by
  have hle := le_of_make? h
  obtain rfl := eq_of_make? h
  have hbase {i : Nat} (hi : i < length) :
      (address.bits &&& mask address.family length).getMsbD i = address.bits.getMsbD i := by
    rw [BitVec.getMsbD_and, getMsbD_mask hle, decide_eq_true hi, Bool.and_true]
  constructor
  · intro hholds i hi
    exact (hholds.bits i hi).symm.trans (hbase hi)
  · intro hagree
    exact ⟨hfamily.symm, fun i hi => (hbase hi).trans (hagree i hi).symm⟩

/-- Addresses make the same block just if it is of one length and they agree on that many bits. -/
theorem make?_eq_make?_iff {other : Address} {length' : Nat}
    (h : length ≤ address.family.width) (h' : length' ≤ other.family.width) :
    make? address length = make? other length' ↔
      address.family = other.family ∧ length = length' ∧
        ∀ i < length, address.bit i = other.bit i := by
  rw [make?_of_le h, make?_of_le h', Except.ok.injEq]
  obtain ⟨family, bits⟩ := address
  obtain ⟨family', bits'⟩ := other
  constructor
  · intro heq
    obtain rfl : family = family' := congrArg Network.family heq
    obtain rfl : length = length' := congrArg Network.length heq
    rw [Network.mk.injEq, Address.mk.injEq, heq_eq_eq] at heq
    exact ⟨rfl, rfl, (and_mask_eq_and_mask_iff h bits bits').mp heq.1.2⟩
  · rintro ⟨hfamily, rfl, hagree⟩
    dsimp only at hfamily
    subst hfamily
    dsimp only
    rw [(and_mask_eq_and_mask_iff h bits bits').mpr hagree]

theorem make?_base_of_isBuilt (h : network.IsBuilt) :
    make? network.base network.length = .ok network := by
  rw [make?_of_le (length_le_of_isBuilt h), and_mask_of_isBuilt h]

/-- The mask leaves the bytes of the base as they are. -/
theorem masked_baseBytes_of_isBuilt (h : network.IsBuilt) :
    List.zipWith (· &&& ·) network.baseBytes network.maskBytes = network.baseBytes :=
  (masked_bytes_eq_iff_holds h rfl).mpr ⟨rfl, fun _ _ => rfl⟩

/--
A length makes a block just if the family is as wide, so the shift that makes the mask is by no
negative number. The mask has that many one bits, all in front, over the bytes of the family; the
base is masked already; and masking another address of the family gives the base just if the two
addresses agree on as many leading bits. So blocks are equal just if they are of one family and
length and their addresses agree that far, and a block is made by its own base and length.
-/
theorem blocks_are_canonical :
    (∀ address length, (∃ network, make? address length = .ok network) ↔
      length ≤ address.family.width) ∧
    (∀ address length network, make? address length = .ok network →
      network.family = address.family ∧ network.length = length ∧
      address.family.width - length + length = address.family.width ∧
      network.maskBytes.length = address.family.byteCount ∧
      bitList network.maskBytes =
        List.replicate length true ++ List.replicate (address.family.width - length) false ∧
      (bitList network.maskBytes).count true = length ∧
      List.zipWith (· &&& ·) network.baseBytes network.maskBytes = network.baseBytes ∧
      ∀ other : Address, other.family = address.family →
        (List.zipWith (· &&& ·) other.bytes network.maskBytes = network.baseBytes ↔
          ∀ i < length, other.bit i = address.bit i)) ∧
    (∀ (address other : Address) (length length' : Nat),
      length ≤ address.family.width → length' ≤ other.family.width →
        (make? address length = make? other length' ↔
          address.family = other.family ∧ length = length' ∧
            ∀ i < length, address.bit i = other.bit i)) ∧
    ∀ network : Network, network.IsBuilt → make? network.base network.length = .ok network := by
  refine ⟨fun _ _ => exists_make?_iff, ?_, fun _ _ _ _ => make?_eq_make?_iff,
    fun _ => make?_base_of_isBuilt⟩
  intro address length network hmake
  have hle := le_of_make? hmake
  have hbuilt : network.IsBuilt := ⟨address, length, hmake⟩
  have hfamily : network.family = address.family := by
    obtain rfl := eq_of_make? hmake
    rfl
  have hlength : network.length = length := by
    obtain rfl := eq_of_make? hmake
    rfl
  have hbits : bitList network.maskBytes =
      List.replicate length true ++ List.replicate (address.family.width - length) false := by
    rw [← hfamily, ← hlength]
    exact bitList_mask (length_le_of_isBuilt hbuilt)
  refine ⟨hfamily, hlength, Nat.sub_add_cancel hle, ?_, hbits, ?_,
    masked_baseBytes_of_isBuilt hbuilt, ?_⟩
  · rw [length_maskBytes, hfamily]
  · rw [hbits, List.count_append, List.count_replicate_self, List.count_replicate]
    rfl
  · intro other hother
    rw [masked_bytes_eq_iff_holds hbuilt (hother.trans hfamily.symm)]
    exact holds_iff_of_make? hmake hother

/-- The mask of a block of twenty-seven bits ends within a byte; the empty mask keeps nothing. -/
theorem documentationBlock_is_canonical :
    let address := Address.v4 0xC0000263
    let network : Network := ⟨.v4 0xC0000260, 27⟩
    make? address 27 = .ok network ∧
      bitList network.maskBytes = List.replicate 27 true ++ List.replicate 5 false ∧
      List.zipWith (· &&& ·) network.baseBytes network.maskBytes = network.baseBytes ∧
      List.zipWith (· &&& ·) (Address.v4 0xC000027F).bytes network.maskBytes = network.baseBytes ∧
      make? address 27 = make? (.v4 0xC000027F) 27 ∧
      make? address 0 = make? (.v4 0xFFFFFFFF) 0 ∧
      make? network.base 27 = .ok network := by
  intro address network
  obtain ⟨-, hbuild, hequal, hagain⟩ := blocks_are_canonical
  have hmake : make? address 27 = .ok network := by decide
  obtain ⟨-, -, -, -, hbits, -, hbase, hother⟩ := hbuild address 27 network hmake
  refine ⟨hmake, hbits, hbase, (hother (.v4 0xC000027F) rfl).mpr (by decide),
    (hequal address (.v4 0xC000027F) 27 27 (by decide) (by decide)).mpr (by decide),
    (hequal address (.v4 0xFFFFFFFF) 0 0 (by decide) (by decide)).mpr (by decide),
    hagain network ⟨address, 27, hmake⟩⟩

end Network

end FlowFence
