import FlowFence.Proofs.Address.RoundTrip
import FlowFence.Proofs.Network.Mask
import FlowFence.Proofs.Text.BaseNumeral
import Mathlib.Data.Bool.AllAny

/-!
# Blocks read back

The text of an address or of a block is one word of digits, letters and punctuation marks, and the
text that is written for a block denotes that block.
-/

namespace FlowFence

/-! ## Characters -/

namespace Text

theorem mem_joined {mark c : Char} {pieces : List (List Char)} (h : c ∈ joined mark pieces) :
    c = mark ∨ ∃ piece ∈ pieces, c ∈ piece := by
  cases pieces with
  | nil => simp [joined] at h
  | cons piece pieces =>
      rw [joined_cons, List.mem_append, List.mem_flatMap] at h
      rcases h with hpiece | ⟨other, hother, hmem⟩
      · exact .inr ⟨piece, List.mem_cons_self, hpiece⟩
      · rcases List.mem_cons.mp hmem with rfl | hmem
        · exact .inl rfl
        · exact .inr ⟨other, List.mem_cons_of_mem _ hother, hmem⟩

/-- Whether a character is a digit of a base up to sixteen or a mark of an address or block. -/
def IsAddressChar (c : Char) : Prop :=
  (∃ digit < 16, c = Nat.digitChar digit) ∨ c = '.' ∨ c = ':' ∨ c = '/'

theorem isAddressChar_of_mem_toDigits {base : Nat} (hbase : 1 < base) (hle : base ≤ 16) {n : Nat}
    {c : Char} (h : c ∈ Nat.toDigits base n) : IsAddressChar c := by
  obtain ⟨digit, hdigit, rfl⟩ := exists_digit_of_mem_toDigits hbase h
  exact .inl ⟨digit, by omega, rfl⟩

theorem isAddressChar_of_mem_joined {mark : Char} (hmark : IsAddressChar mark) {base : Nat}
    (hbase : 1 < base) (hle : base ≤ 16) {values : List Nat} {c : Char}
    (h : c ∈ joined mark (values.map (Nat.toDigits base))) : IsAddressChar c := by
  rcases mem_joined h with rfl | ⟨piece, hpiece, hmem⟩
  · exact hmark
  · obtain ⟨n, -, rfl⟩ := List.mem_map.mp hpiece
    exact isAddressChar_of_mem_toDigits hbase hle hmem

end Text

namespace Address

open Text (IsAddressChar)

theorem isAddressChar_of_mem_octetsText {value : Nat} {c : Char} (h : c ∈ octetsText value) :
    IsAddressChar c :=
  Text.isAddressChar_of_mem_joined (.inr (.inl rfl)) (by decide) (by decide) h

theorem isAddressChar_of_mem_groupsText {values : List Nat} {c : Char} (h : c ∈ groupsText values) :
    IsAddressChar c :=
  Text.isAddressChar_of_mem_joined (.inr (.inr (.inl rfl))) (by decide) (by decide) h

theorem isAddressChar_of_mem_textV6 {bits : BitVec 128} {c : Char} (h : c ∈ textV6 bits) :
    IsAddressChar c := by
  have hcolon : IsAddressChar ':' := .inr (.inr (.inl rfl))
  unfold textV6 at h
  split at h
  · rcases List.mem_append.mp h with hlead | hoctets
    · have hchars : ∀ d ∈ "::ffff:".toList, d = ':' ∨ d = Nat.digitChar 15 :=
        List.all_iff_forall_prop.mp (by decide)
      rcases hchars c hlead with rfl | rfl
      · exact hcolon
      · exact .inl ⟨15, by decide, rfl⟩
    · exact isAddressChar_of_mem_octetsText hoctets
  · unfold textOfGroups at h
    dsimp only at h
    split at h
    · exact isAddressChar_of_mem_groupsText h
    · simp only [List.mem_append, List.mem_cons, List.not_mem_nil, or_false] at h
      rcases h with (hhigh | hmark) | hlow
      · exact isAddressChar_of_mem_groupsText hhigh
      · rw [or_self] at hmark
        exact hmark ▸ hcolon
      · exact isAddressChar_of_mem_groupsText hlow

theorem isAddressChar_of_mem_text {address : Address} {c : Char} (h : c ∈ address.text) :
    IsAddressChar c := by
  obtain ⟨family, bits⟩ := address
  cases family with
  | ipv4 => exact isAddressChar_of_mem_octetsText h
  | ipv6 => exact isAddressChar_of_mem_textV6 h

theorem text_ne_nil (address : Address) : address.text ≠ [] := by
  intro hnil
  have hread := parse?_text address
  rw [hnil] at hread
  cases hread

end Address

namespace Network

open Text (IsAddressChar)

theorem isAddressChar_of_mem_text {network : Network} {c : Char} (h : c ∈ network.text) :
    IsAddressChar c := by
  rw [text, List.mem_append, List.mem_cons] at h
  rcases h with hbase | rfl | hlength
  · exact Address.isAddressChar_of_mem_text hbase
  · exact .inr (.inr (.inr rfl))
  · exact Text.isAddressChar_of_mem_toDigits (by decide) (by decide) hlength

/-! ## Reading -/

theorem cutLast?_append_cons {mark : Char} {back : List Char} (h : mark ∉ back)
    (front : List Char) : Text.cutLast? mark (front ++ mark :: back) = some (front, back) := by
  have hcut : Text.cut? [mark] (back.reverse ++ mark :: front.reverse) =
      some (back.reverse, front.reverse) := by
    rw [Text.cut?_singleton_append (by simpa using h)]
    simp [Text.cut?, Text.after?]
  rw [Text.cutLast?, List.reverse_append, List.reverse_cons, List.append_assoc,
    List.singleton_append, hcut]
  simp

theorem eq_append_of_cutLast? {mark : Char} {text front back : List Char}
    (h : Text.cutLast? mark text = some (front, back)) : text = front ++ mark :: back := by
  unfold Text.cutLast? at h
  split at h
  · rename_i hcut
    cases h
    have htext := congrArg List.reverse (Text.eq_append_of_cut? hcut)
    simpa using htext
  · cases h

/-- A block is read from an address and a length with a slash between them. -/
theorem parse?_eq_ok_iff {text : List Char} {network : Network} :
    parse? text = .ok network ↔
      ∃ addressText lengthText address length,
        Text.cutLast? '/' text = some (addressText, lengthText) ∧
        Address.parse? addressText = some address ∧
        Text.word? 255 lengthText = some length ∧ make? address length = .ok network := by
  constructor
  · intro h
    unfold parse? at h
    split at h
    · rename_i addressText lengthText hcut
      split at h
      · rename_i address haddress
        split at h
        · rename_i length hlength
          exact ⟨addressText, lengthText, address, length, hcut, haddress, hlength, h⟩
        · cases h
      · cases h
    · cases h
  · rintro ⟨addressText, lengthText, address, length, hcut, haddress, hlength, hmake⟩
    rw [parse?, hcut]
    simp only [haddress, hlength, hmake]

theorem isBuilt_of_parse? {text : List Char} {network : Network} (h : parse? text = .ok network) :
    network.IsBuilt := by
  obtain ⟨-, -, address, length, -, -, -, hmake⟩ := parse?_eq_ok_iff.mp h
  exact ⟨address, length, hmake⟩

/-- Reading the text of a block gives the block back. -/
theorem parse?_text {network : Network} (h : network.IsBuilt) :
    parse? network.text = .ok network := by
  have hle := length_le_of_isBuilt h
  have hwidth : network.family.width ≤ 255 := by
    cases network.family <;> decide
  have hslash : '/' ∉ Text.decimal network.length :=
    Text.not_mem_toDigits (by decide) (by decide) (by decide) _
  have hmake : make? network.base network.length = .ok network := by
    rw [make?_of_le hle, and_mask_of_isBuilt h]
  exact parse?_eq_ok_iff.mpr ⟨_, _, network.base, network.length, cutLast?_append_cons hslash _,
    Address.parse?_text network.base, Text.word?_decimal (Nat.le_trans hle hwidth), hmake⟩

end Network

end FlowFence
