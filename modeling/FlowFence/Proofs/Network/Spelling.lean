import FlowFence.Proofs.Address.Shortening
import FlowFence.Proofs.Address.Spelling
import FlowFence.Proofs.Network.Canonical
import FlowFence.Proofs.Network.RoundTrip

/-!
# Spellings of blocks

A block is read from any spelling of any address that it can be built of, and from nothing else. It
is written in one way, which is a spelling of it: writing what was read brings a text to a normal
form.
-/

namespace FlowFence

namespace Network

variable {text : List Char} {network : Network}

/-- Whether a text is a spelling of an address, a slash and a length that make a block. -/
def IsSpelling (text : List Char) (network : Network) : Prop :=
  ∃ addressText lengthText address length,
    text = addressText ++ '/' :: lengthText ∧ Address.IsSpelling addressText address ∧
      Text.IsWord lengthText length ∧ make? address length = .ok network

def normalized? (text : List Char) : Except NetworkError (List Char) :=
  (parse? text).map Network.text

theorem width_le_limit (family : Family) : family.width ≤ 255 := by
  cases family <;> decide

/-- A text is read as the block that it spells, and no other text is read. -/
theorem parse?_eq_ok_iff_isSpelling : parse? text = .ok network ↔ IsSpelling text network := by
  rw [parse?_eq_ok_iff]
  constructor
  · intro h
    obtain ⟨addressText, lengthText, address, length, hcut, haddress, hlength, hmake⟩ := h
    exact ⟨addressText, lengthText, address, length, eq_append_of_cutLast? hcut,
      Address.parse?_eq_some_iff.mp haddress, (Text.word?_eq_some_iff.mp hlength).1, hmake⟩
  · intro h
    obtain ⟨addressText, lengthText, address, length, rfl, haddress, hword, hmake⟩ := h
    have hlength : Text.word? 255 lengthText = some length :=
      Text.word?_eq_some_iff.mpr
        ⟨hword, Nat.le_trans (le_of_make? hmake) (width_le_limit address.family)⟩
    have hslash : '/' ∉ lengthText := Text.not_mem_of_word? (by decide) (by decide) hlength
    exact ⟨addressText, lengthText, address, length, cutLast?_append_cons hslash addressText,
      Address.parse?_eq_some_iff.mpr haddress, hlength, hmake⟩

/-- No bit behind the length is set. -/
theorem bit_base_of_isBuilt (h : network.IsBuilt) {i : Nat} (hi : network.length ≤ i) :
    network.base.bit i = false := by
  have hclear : (mask network.base.family network.length).getMsbD i = false :=
    (getMsbD_mask (length_le_of_isBuilt h) i).trans (decide_eq_false (Nat.not_lt.mpr hi))
  have hbit := congrArg (fun bits => bits.getMsbD i) (and_mask_of_isBuilt h)
  rw [BitVec.getMsbD_and, hclear, Bool.and_false] at hbit
  exact hbit.symm

theorem normalized?_of_normalized? {written : List Char} (h : normalized? text = .ok written) :
    normalized? written = .ok written := by
  cases hread : parse? text with
  | error e =>
      rw [normalized?, hread] at h
      cases h
  | ok network =>
      rw [normalized?, hread] at h
      cases h
      rw [normalized?, parse?_text (isBuilt_of_parse? hread)]
      rfl

/--
The text of a block that was built denotes just that block. The texts that denote a block are the
spellings of an address and a length that make it; it is within the width of its family, has no bit
behind its length, and is denoted by its own text again, so that writing what was read is
idempotent. The text itself is the base, written by the rules for addresses, a slash and the length.
-/
theorem blocks_round_trip :
    (∀ network : Network, network.IsBuilt → parse? network.text = .ok network) ∧
    (∀ text network, parse? text = .ok network ↔ IsSpelling text network) ∧
    (∀ text network, parse? text = .ok network →
      network.length ≤ network.family.width ∧
      (∀ i, network.length ≤ i → network.base.bit i = false) ∧
      network.IsBuilt ∧ parse? network.text = .ok network) ∧
    (∀ network : Network, ∀ written, written = network.text ↔
      ∃ addressText, Address.IsWritten addressText network.base ∧
        written = addressText ++ '/' :: Text.decimal network.length) ∧
    ∀ text written, normalized? text = .ok written → normalized? written = .ok written := by
  refine ⟨fun _ => parse?_text, fun _ _ => parse?_eq_ok_iff_isSpelling, ?_, ?_,
    fun _ _ => normalized?_of_normalized?⟩
  · intro text network hread
    have hbuilt := isBuilt_of_parse? hread
    exact ⟨length_le_of_isBuilt hbuilt, fun _ => bit_base_of_isBuilt hbuilt, hbuilt,
      parse?_text hbuilt⟩
  · intro network written
    simp only [Address.isWritten_iff, exists_eq_left]
    rfl

/-- Leading zeros, capitals, octets and a sign do not last. -/
theorem documentationBlock_round_trips :
    let spelled := "2001:0DB8:0:0::192.0.2.33/+036".toList
    let network : Network := ⟨.v6 (0x20010DB8 <<< 96), 36⟩
    parse? spelled = .ok network ∧ network.text = "2001:db8::/36".toList ∧
      parse? network.text = .ok network ∧ normalized? network.text = .ok network.text ∧
      parse? "::FFFF:1.2.3.4/128".toList = .ok ⟨.v6 0xFFFF01020304, 128⟩ ∧
      Network.text ⟨.v6 0xFFFF01020304, 128⟩ = "::ffff:1.2.3.4/128".toList := by
  intro spelled network
  obtain ⟨hbuilt, -, hcanonical, -, hagain⟩ := blocks_round_trip
  have hread : parse? spelled = .ok network := by decide +kernel
  have hnormal : normalized? spelled = .ok network.text := by
    rw [normalized?, hread]
    rfl
  exact ⟨hread, by decide +kernel, (hcanonical spelled network hread).2.2.2,
    hagain spelled network.text hnormal, by decide +kernel, by decide +kernel⟩

end Network

end FlowFence
