import FlowFence.Proofs.Address.RoundTrip
import FlowFence.Proofs.Text.Positional

/-!
# Spellings of addresses

Which texts are read as an address, said without the reader. An address of the first family has one
text only. One of the second family has many: its groups may have leading zeros and letters of
either case, its last two groups may be octets, and a double colon may stand for any of its groups
as long as they are zero.
-/

namespace FlowFence

namespace Address

open Text (joined)

variable {text piece : List Char} {pieces : List (List Char)} {values : List Nat} {dotted : Bool}

def IsGroup (text : List Char) (group : Nat) : Prop :=
  text.length ≤ 4 ∧ Text.IsNumeral 16 text group

/--
Whether pieces spell groups: one piece is one group, but where octets are allowed the last piece may
be octets, which are two groups.
-/
inductive SpellGroups (dotted : Bool) : List (List Char) → List Nat → Prop where
  | nil : SpellGroups dotted [] []
  | group {piece : List Char} {group : Nat} {pieces : List (List Char)} {values : List Nat}
      (first : IsGroup piece group) (rest : SpellGroups dotted pieces values) :
      SpellGroups dotted (piece :: pieces) (group :: values)
  | octets {value : Nat} (allowed : dotted = true) (word : value < 2 ^ 32) :
      SpellGroups dotted [octetsText value] [value / 2 ^ 16, value % 2 ^ 16]

inductive IsSpelling : List Char → Address → Prop where
  | octets (bits : BitVec 32) : IsSpelling (octetsText bits.toNat) (v4 bits)
  | groups {pieces : List (List Char)} {values : List Nat}
      (spelled : SpellGroups true pieces values) (all : values.length = 8) :
      IsSpelling (joined ':' pieces) (v6 (ofGroups values))
  | shortened {front back : List (List Char)} {high low : List Nat}
      (before : SpellGroups false front high) (behind : SpellGroups true back low)
      (left : high.length + low.length ≤ 7) :
      IsSpelling (joined ':' front ++ ':' :: ':' :: joined ':' back)
        (v6 (ofGroups (high ++ List.replicate (8 - high.length - low.length) 0 ++ low)))

/-! ## Octets -/

theorem octet?_eq_some_iff {n : Nat} : octet? text = some n ↔ n < 256 ∧ text = Text.decimal n := by
  constructor
  · intro h
    rw [octet?] at h
    split at h
    · cases h
    · rename_i hlead
      obtain ⟨hread, hle⟩ := Option.filter_eq_some_iff.mp h
      have hone : text.length = 1 ∨ text.head? ≠ some '0' := by
        have hne : text.length ≠ 0 := by
          intro hnil
          rw [List.eq_nil_of_length_eq_zero hnil] at hread
          cases hread
        by_cases hzero : text.head? = some '0'
        · refine .inl ?_
          simp only [hzero, and_true] at hlead
          omega
        · exact .inr hzero
      exact ⟨Nat.lt_succ_of_le (of_decide_eq_true hle), Text.eq_decimal_of_numeral? hone hread⟩
  · intro h
    rw [h.2, octet?_decimal h.1]

theorem exists_of_octets? {a b c d : Nat} (h : octets? text = some (a, b, c, d)) :
    ∃ value < 2 ^ 32, text = octetsText value ∧ a = value / 2 ^ 24 ∧
      b = value / 2 ^ 16 % 256 ∧ c = value / 2 ^ 8 % 256 ∧ d = value % 256 := by
  unfold octets? at h
  split at h
  · rename_i ta tb tc td hsplit
    split at h
    · rename_i na nb nc nd ha hb hc hd
      cases h
      obtain ⟨hlta, rfl⟩ := octet?_eq_some_iff.mp ha
      obtain ⟨hltb, rfl⟩ := octet?_eq_some_iff.mp hb
      obtain ⟨hltc, rfl⟩ := octet?_eq_some_iff.mp hc
      obtain ⟨hltd, rfl⟩ := octet?_eq_some_iff.mp hd
      have hquotients : (((a * 256 + b) * 256 + c) * 256 + d) / 2 ^ 24 = a ∧
          (((a * 256 + b) * 256 + c) * 256 + d) / 2 ^ 16 % 256 = b ∧
          (((a * 256 + b) * 256 + c) * 256 + d) / 2 ^ 8 % 256 = c ∧
          (((a * 256 + b) * 256 + c) * 256 + d) % 256 = d := by
        omega
      obtain ⟨hqa, hqb, hqc, hqd⟩ := hquotients
      refine ⟨((a * 256 + b) * 256 + c) * 256 + d, by omega, ?_, hqa.symm, hqb.symm, hqc.symm,
        hqd.symm⟩
      rw [octetsText, hqa, hqb, hqc, hqd, ← Text.joined_splitWhere '.' text, hsplit]
      rfl
    · cases h
  · cases h

theorem parseV4?_eq_some_iff {bits : BitVec 32} :
    parseV4? text = some bits ↔ text = octetsText bits.toNat := by
  constructor
  · intro h
    obtain ⟨⟨a, b, c, d⟩, hread, hbits⟩ := Option.map_eq_some_iff.mp h
    obtain ⟨value, hlt, rfl, rfl, rfl, rfl, rfl⟩ := exists_of_octets? hread
    have hvalue : bits.toNat = value := by
      rw [← hbits]
      dsimp only
      rw [BitVec.toNat_ofNat]
      omega
    rw [hvalue]
  · intro h
    rw [h, parseV4?_octetsText]

/-! ## Groups -/

theorem group?_eq_some_iff {group : Nat} : group? text = some group ↔ IsGroup text group := by
  rw [group?, IsGroup, ← Text.numeral?_eq_some_iff (by decide)]
  split
  · simp
    omega
  · rw [and_iff_right (by omega)]

/-- Two octets make up one group. -/
theorem groups_of_octets (value : Nat) :
    value / 2 ^ 24 * 256 + value / 2 ^ 16 % 256 = value / 2 ^ 16 ∧
      value / 2 ^ 8 % 256 * 256 + value % 256 = value % 2 ^ 16 := by
  omega

theorem groupsOf?_eq_some_iff : groupsOf? dotted pieces = some values ↔
    SpellGroups dotted pieces values := by
  induction pieces generalizing values with
  | nil =>
      rw [groupsOf?, Option.some.injEq]
      constructor
      · intro h
        rw [← h]
        exact .nil
      · intro h
        cases h
        rfl
  | cons piece pieces ih =>
      constructor
      · intro h
        rw [groupsOf?] at h
        split at h
        · rename_i group hgroup
          obtain ⟨rest, hrest, rfl⟩ := Option.map_eq_some_iff.mp h
          exact .group (group?_eq_some_iff.mp hgroup) (ih.mp hrest)
        · split at h
          · rename_i hlast
            obtain ⟨⟨a, b, c, d⟩, hread, rfl⟩ := Option.map_eq_some_iff.mp h
            obtain ⟨value, hlt, rfl, rfl, rfl, rfl, rfl⟩ := exists_of_octets? hread
            obtain rfl := List.isEmpty_iff.mp hlast.2
            dsimp only
            rw [(groups_of_octets value).1, (groups_of_octets value).2]
            exact .octets hlast.1 hlt
          · cases h
      · intro h
        cases h with
        | group first rest =>
            rw [groupsOf?, group?_eq_some_iff.mpr first, ih.mpr rest]
            rfl
        | octets allowed word =>
            rw [groupsOf?, group?_octetsText, octets?_octetsText word]
            simp [allowed]
            omega

theorem octetsText_ne_nil (value : Nat) : octetsText value ≠ [] := by
  rw [octetsText, List.map_cons, Text.joined_cons]
  simp [Text.decimal]

/-- No piece that spells groups is empty or has a colon. -/
theorem SpellGroups.clean (h : SpellGroups dotted pieces values) :
    ∀ piece ∈ pieces, piece ≠ [] ∧ ':' ∉ piece := by
  induction h with
  | nil => simp
  | group first _ ih =>
      refine List.forall_mem_cons.mpr ⟨⟨first.2.1, fun hmem => ?_⟩, ih⟩
      have hread := (Text.numeral?_eq_some_iff (by decide)).mpr first.2
      rw [Text.numeral?_eq_none (by decide) hmem] at hread
      cases hread
  | octets _ word => simp [octetsText_ne_nil, not_colon_mem_octetsText word]

theorem splitWhere_of_spellGroups (h : SpellGroups dotted pieces values) (hne : pieces ≠ []) :
    Text.splitWhere (· == ':') (joined ':' pieces) = pieces :=
  Text.splitWhere_joined hne fun piece hpiece => (h.clean piece hpiece).2

theorem side?_eq_some_iff : side? dotted text = some values ↔
    ∃ pieces, text = joined ':' pieces ∧ SpellGroups dotted pieces values := by
  constructor
  · intro h
    rw [side?] at h
    split at h
    · rename_i hempty
      rw [Option.some.injEq] at h
      exact ⟨[], List.isEmpty_iff.mp hempty, h ▸ .nil⟩
    · exact ⟨_, (Text.joined_splitWhere ':' text).symm, groupsOf?_eq_some_iff.mp h⟩
  · intro h
    obtain ⟨pieces, rfl, hspelled⟩ := h
    cases pieces with
    | nil =>
        cases hspelled
        rfl
    | cons piece pieces =>
        obtain ⟨hne, -⟩ := hspelled.clean piece List.mem_cons_self
        have htext : (joined ':' (piece :: pieces)).isEmpty = false := by
          rw [Text.joined_cons]
          simp [hne]
        rw [side?, htext, splitWhere_of_spellGroups hspelled (by simp),
          groupsOf?_eq_some_iff.mpr hspelled]
        rfl

/-! ## Addresses -/

theorem cut?_of_spellGroups (h : SpellGroups dotted pieces values) (rest : List Char) :
    Text.cut? [':', ':'] (joined ':' pieces ++ rest) =
      (Text.cut? [':', ':'] rest).map fun found => (joined ':' pieces ++ found.1, found.2) :=
  Text.cut?_joined_append h.clean rest

theorem isSpelling_of_parseV6? {bits : BitVec 128} (h : parseV6? text = some bits) :
    IsSpelling text (v6 bits) := by
  unfold parseV6? at h
  split at h
  · rename_i front back hcut
    split at h
    · rename_i high low hhigh hlow
      split at h
      · rename_i hleft
        obtain ⟨before, rfl, hbefore⟩ := side?_eq_some_iff.mp hhigh
        obtain ⟨behind, rfl, hbehind⟩ := side?_eq_some_iff.mp hlow
        rw [Text.eq_append_of_cut? hcut, ← Option.some.inj h]
        simpa using IsSpelling.shortened hbefore hbehind hleft
      · cases h
    · cases h
  · split at h
    · rename_i values hvalues
      split at h
      · rename_i hall
        have hspelled := IsSpelling.groups (groupsOf?_eq_some_iff.mp hvalues) hall
        rwa [Text.joined_splitWhere, Option.some.inj h] at hspelled
      · cases h
    · cases h

theorem parseV6?_of_groups (h : SpellGroups true pieces values) (hall : values.length = 8) :
    parseV6? (joined ':' pieces) = some (ofGroups values) := by
  have hne : pieces ≠ [] := by
    intro hnil
    subst hnil
    cases h
    cases hall
  have hcut := cut?_of_spellGroups h []
  rw [List.append_nil] at hcut
  rw [parseV6?, hcut]
  simp only [Text.cut?, Text.after?, Option.map_none]
  rw [splitWhere_of_spellGroups h hne, groupsOf?_eq_some_iff.mpr h]
  exact if_pos hall

theorem parseV6?_of_shortened {front back : List (List Char)} {high low : List Nat}
    (hfront : SpellGroups false front high) (hback : SpellGroups true back low)
    (hleft : high.length + low.length ≤ 7) :
    parseV6? (joined ':' front ++ ':' :: ':' :: joined ':' back) =
      some (ofGroups (high ++ List.replicate (8 - high.length - low.length) 0 ++ low)) := by
  have hcut : Text.cut? [':', ':'] (joined ':' front ++ ':' :: ':' :: joined ':' back) =
      some (joined ':' front, joined ':' back) := by
    rw [cut?_of_spellGroups hfront]
    simp [Text.cut?, Text.after?]
  have hhigh : side? false (joined ':' front) = some high :=
    side?_eq_some_iff.mpr ⟨front, rfl, hfront⟩
  have hlow : side? true (joined ':' back) = some low :=
    side?_eq_some_iff.mpr ⟨back, rfl, hback⟩
  rw [parseV6?, hcut]
  simp only [hhigh, hlow, if_pos hleft]

theorem parse?_of_parseV6? {bits : BitVec 128} (h : parseV6? text = some bits) :
    parse? text = some (v6 bits) := by
  have hnone : parseV4? text = none := by
    cases hread : parseV4? text with
    | none => rfl
    | some other => exact (not_colon_mem_of_parseV4? hread (colon_mem_of_parseV6? h)).elim
  rw [parse?, hnone]
  dsimp only
  rw [h, Option.map_some]

/-- A text is read as the address that it spells, and no other text is read. -/
theorem parse?_eq_some_iff {address : Address} :
    parse? text = some address ↔ IsSpelling text address := by
  constructor
  · intro h
    rw [parse?] at h
    split at h
    · rename_i bits hread
      rw [parseV4?_eq_some_iff.mp hread, ← Option.some.inj h]
      exact .octets bits
    · obtain ⟨bits, hread, rfl⟩ := Option.map_eq_some_iff.mp h
      exact isSpelling_of_parseV6? hread
  · intro h
    cases h with
    | octets bits =>
        rw [parse?, parseV4?_octetsText]
    | groups spelled all => exact parse?_of_parseV6? (parseV6?_of_groups spelled all)
    | shortened before behind left =>
        exact parse?_of_parseV6? (parseV6?_of_shortened before behind left)

end Address

end FlowFence
