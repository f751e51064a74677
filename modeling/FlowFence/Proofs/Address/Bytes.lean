import FlowFence.Address.Basic
import Mathlib.Data.List.Induction

/-!
# Bit vectors and their bytes

The bytes of a bit vector determine it, and every sequence of as many bytes is that of a bit vector.
An operation on bit vectors that goes bit by bit goes byte by byte on their bytes, and the bits of
the bytes, the most significant one first, are those of the vector.
-/

namespace FlowFence

variable {width count : Nat}

/-! ## Bitwise operations -/

theorem bigEndian_and (a b : BitVec width) :
    bigEndian count (a &&& b) =
      List.zipWith (· &&& ·) (bigEndian count a) (bigEndian count b) := by
  simp only [bigEndian, BitVec.extractLsb'_and, UInt8.ofBitVec_and, List.zipWith_map,
    List.zipWith_self]

theorem bigEndian_xor (a b : BitVec width) :
    bigEndian count (a ^^^ b) =
      List.zipWith (· ^^^ ·) (bigEndian count a) (bigEndian count b) := by
  simp only [bigEndian, BitVec.extractLsb'_xor, UInt8.ofBitVec_xor, List.zipWith_map,
    List.zipWith_self]

theorem zipWith_xor_replicate_zero (bytes : List UInt8) :
    List.zipWith (· ^^^ ·) bytes (List.replicate bytes.length 0) = bytes := by
  induction bytes with
  | nil => rfl
  | cons b bytes ih => simp [List.replicate_succ, ih]

/-! ## Bytes to bit vectors and back -/

theorem ofBigEndian_append_singleton (bytes : List UInt8) (b : UInt8) :
    ofBigEndian (bytes ++ [b]) = ofBigEndian bytes * 256 + b.toNat := by
  simp [ofBigEndian]

theorem ofBigEndian_lt (bytes : List UInt8) : ofBigEndian bytes < 2 ^ (8 * bytes.length) := by
  induction bytes using List.reverseRecOn with
  | nil => decide
  | append_singleton bytes b ih =>
      have hb : b.toNat < 256 := b.toNat_lt
      rw [ofBigEndian_append_singleton, List.length_append, List.length_singleton, Nat.mul_add,
        Nat.pow_add]
      omega

theorem bigEndian_injective (hwidth : width = 8 * count) {a b : BitVec width}
    (h : bigEndian count a = bigEndian count b) : a = b := by
  subst hwidth
  apply BitVec.eq_of_getLsbD_eq
  intro i hi
  -- the byte at place `count - 1 - i / 8` holds bit `i`
  have hplace : count - 1 - i / 8 < count := by omega
  have hbyte := congrArg (fun bytes => bytes[count - 1 - i / 8]?) h
  simp only [bigEndian, List.getElem?_map, List.getElem?_range hplace, Option.map_some,
    Option.some.injEq, UInt8.ofBitVec.injEq] at hbyte
  have hbit := congrArg (fun byte => byte.getLsbD (i % 8)) hbyte
  have hstart : 8 * (count - 1 - (count - 1 - i / 8)) + i % 8 = i := by omega
  simpa [BitVec.getLsbD_extractLsb', hstart, Nat.mod_lt] using hbit

theorem bigEndian_ofBigEndian (bytes : List UInt8) (hwidth : 8 * bytes.length ≤ width) :
    bigEndian bytes.length (BitVec.ofNat width (ofBigEndian bytes)) = bytes := by
  induction bytes using List.reverseRecOn with
  | nil => rfl
  | append_singleton bytes b ih =>
      rw [List.length_append, List.length_singleton] at hwidth
      have hn : ofBigEndian bytes < 2 ^ width :=
        Nat.lt_of_lt_of_le (ofBigEndian_lt bytes) (Nat.pow_le_pow_right (by decide) (by omega))
      have hnb : ofBigEndian bytes * 256 + b.toNat < 2 ^ width := by
        have h := ofBigEndian_lt (bytes ++ [b])
        rw [ofBigEndian_append_singleton, List.length_append, List.length_singleton] at h
        exact Nat.lt_of_lt_of_le h (Nat.pow_le_pow_right (by decide) hwidth)
      have hb : b.toNat < 256 := b.toNat_lt
      conv_rhs => rw [← ih (by omega)]
      rw [ofBigEndian_append_singleton, List.length_append, List.length_singleton]
      simp only [bigEndian, List.range_succ, List.map_append, List.map_cons, List.map_nil]
      congr 1
      · apply List.map_congr_left
        intro i hi
        have hi : i < bytes.length := List.mem_range.mp hi
        apply UInt8.toBitVec_inj.mp
        apply BitVec.eq_of_toNat_eq
        have hshift : 8 * (bytes.length + 1 - 1 - i) = 8 + 8 * (bytes.length - 1 - i) := by omega
        simp only [BitVec.extractLsb'_toNat, BitVec.toNat_ofNat, Nat.mod_eq_of_lt hn,
          Nat.mod_eq_of_lt hnb, hshift, Nat.shiftRight_add]
        congr 2
        rw [Nat.shiftRight_eq_div_pow]
        omega
      · simp only [List.cons.injEq, and_true]
        apply UInt8.toBitVec_inj.mp
        apply BitVec.eq_of_toNat_eq
        simp [BitVec.extractLsb'_toNat, BitVec.toNat_ofNat, Nat.mod_eq_of_lt hnb]

/-! ## Bits of bytes -/

def bitList (bytes : List UInt8) : List Bool :=
  bytes.flatMap fun byte => (List.range 8).map byte.toBitVec.getMsbD

theorem map_range_mul_eight {α : Type} (f : Nat → α) (count : Nat) :
    (List.range (8 * count)).map f =
      (List.range count).flatMap fun i => (List.range 8).map fun j => f (8 * i + j) := by
  induction count with
  | zero => rfl
  | succ count ih =>
      have hrange : List.range (count + 1) = List.range count ++ [count] := List.range_succ
      rw [Nat.mul_succ, List.range_add, List.map_append, ih, hrange, List.flatMap_append]
      simp only [List.flatMap_singleton, List.map_map, Function.comp_def]

theorem bitList_bigEndian (hwidth : width = 8 * count) (bits : BitVec width) :
    bitList (bigEndian count bits) = (List.range width).map bits.getMsbD := by
  subst hwidth
  rw [map_range_mul_eight, bitList, bigEndian, List.flatMap_map]
  rw [List.flatMap_def, List.flatMap_def]
  congr 1
  apply List.map_congr_left
  intro i hi
  apply List.map_congr_left
  intro j hj
  have hi : i < count := List.mem_range.mp hi
  have hj : j < 8 := List.mem_range.mp hj
  have hplace : 8 * count - 1 - (8 * i + j) = 8 * (count - 1 - i) + (7 - j) := by omega
  have hsmall : 7 - j < 8 := by omega
  have hlarge : 8 * i + j < 8 * count := by omega
  simp [BitVec.getMsbD, hplace, hj, hsmall, hlarge]

theorem bitList_bigEndian_inj (hwidth : width = 8 * count) {a b : BitVec width} :
    bitList (bigEndian count a) = bitList (bigEndian count b) ↔ a = b := by
  constructor
  · intro h
    rw [bitList_bigEndian hwidth, bitList_bigEndian hwidth, List.map_inj_left] at h
    exact BitVec.eq_of_getMsbD_eq fun i hi => h i (List.mem_range.mpr hi)
  · rintro rfl
    rfl

@[simp] theorem length_bitList (bytes : List UInt8) :
    (bitList bytes).length = 8 * bytes.length := by
  simp [bitList, List.length_flatMap, List.map_const', Nat.mul_comm]

end FlowFence
