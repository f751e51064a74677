import FlowFence.Proofs.Text.Encoding
import Mathlib.Data.List.Lex
import Mathlib.Data.String.Basic

/-!
# The order of bytes

Texts are ordered the same way by their characters and by their bytes: of two characters the greater
one has the greater bytes, and no character's bytes are the front of another's.
-/

namespace FlowFence

namespace Utf8

/-- The bytes of the lesser of two characters come first, whatever follows either. -/
theorem encodeChar_append_lt {c d : Char} (h : c < d) (left right : List UInt8) :
    String.utf8EncodeChar c ++ left < String.utf8EncodeChar d ++ right := by
  have hlt : c.val.toNat < d.val.toNat := h
  have hlimit : d.val.toNat < 0x110000 := by
    have hvalid : d.val.toNat < 0xD800 ∨ 0xDFFF < d.val.toNat ∧ d.val.toNat < 0x110000 := d.valid
    omega
  simp only [String.utf8EncodeChar]
  generalize c.val.toNat = v at hlt ⊢
  generalize d.val.toNat = w at hlt hlimit ⊢
  have htail (n : Nat) : (n % 64 + 128) % 2 ^ 8 = n % 64 + 128 := by omega
  have htwo (n : Nat) : (n % 32 + 192) % 2 ^ 8 = n % 32 + 192 := by omega
  have hthree (n : Nat) : (n % 16 + 224) % 2 ^ 8 = n % 16 + 224 := by omega
  have hfour (n : Nat) : (n % 8 + 240) % 2 ^ 8 = n % 8 + 240 := by omega
  have hquotient (n : Nat) : n / 64 / 64 = n / 4096 ∧ n / 4096 / 64 = n / 262144 :=
    ⟨Nat.div_div_eq_div_mul n 64 64, Nat.div_div_eq_div_mul n 4096 64⟩
  have hv := hquotient v
  have hw := hquotient w
  have hlead : v / 262144 % 8 = v / 262144 ∧ w / 262144 % 8 = w / 262144 := by omega
  -- A wider sequence has the greater lead byte; of two of one width some byte differs first.
  split_ifs
  all_goals
    simp only [List.cons_append, List.nil_append, List.cons_lt_cons_iff, UInt8.lt_iff_toNat_lt,
      ← UInt8.toNat_inj, UInt8.toNat_ofNat', htail, htwo, hthree, hfour]
    omega

/-- Texts are ordered by their bytes as they are by their characters. -/
theorem encode_lt_encode_iff {a b : List Char} : encode a < encode b ↔ a < b := by
  have hlt {a b : List Char} (h : a < b) : encode a < encode b := by
    induction h with
    | @nil c text =>
        obtain ⟨lead, rest, hbytes⟩ := List.exists_cons_of_ne_nil (@String.utf8EncodeChar_ne_nil c)
        rw [encode, encode, List.flatMap_nil, List.flatMap_cons, hbytes]
        exact List.nil_lt_cons lead _
    | @cons c left right _ ih =>
        rw [encode, encode, List.flatMap_cons, List.flatMap_cons]
        exact List.append_left_lt ih
    | @rel c left d right hchar =>
        rw [encode, encode, List.flatMap_cons, List.flatMap_cons]
        exact encodeChar_append_lt hchar _ _
  refine ⟨fun h => ?_, hlt⟩
  rcases lt_trichotomy a b with hless | rfl | hgreater
  · exact hless
  · exact absurd h (List.lt_irrefl _)
  · exact absurd (hlt hgreater) (List.lt_asymm h)

end Utf8

end FlowFence
