import FlowFence.Address.Text
import FlowFence.Proofs.Text.Cut
import FlowFence.Proofs.Text.Numeral
import FlowFence.Proofs.Text.Split

/-!
# Addresses read back

The text written for an address denotes that address. For the second family this holds whichever
run of zero groups the text shortens, as long as it is one of groups that are zero.
-/

namespace FlowFence

/-! ## Cutting at a doubled mark -/

namespace Text

/-- The doubled mark does not occur among pieces that are not empty and do not hold the mark. -/
theorem cut?_joined_append {mark : Char} {pieces : List (List Char)}
    (hclean : ∀ piece ∈ pieces, piece ≠ [] ∧ mark ∉ piece) (rest : List Char) :
    cut? [mark, mark] (joined mark pieces ++ rest) =
      (cut? [mark, mark] rest).map fun found => (joined mark pieces ++ found.1, found.2) := by
  induction pieces with
  | nil => simp [joined]
  | cons piece pieces ih =>
      have hpiece := (hclean piece List.mem_cons_self).2
      cases pieces with
      | nil => exact cut?_append_of_not_mem hpiece rest
      | cons next pieces =>
          obtain ⟨hne, hnext⟩ := hclean next (by simp)
          obtain ⟨c, next, rfl⟩ := List.exists_cons_of_ne_nil hne
          have hc : mark ≠ c := fun heq => hnext (heq ▸ List.mem_cons_self)
          have hrest := ih fun p hp => hclean p (List.mem_cons_of_mem piece hp)
          have hjoined : ∃ tail, joined mark ((c :: next) :: pieces) = c :: tail := by
            rw [joined_cons]
            exact ⟨_, rfl⟩
          obtain ⟨tail, htail⟩ := hjoined
          rw [htail] at hrest
          rw [joined, htail, List.append_assoc, cut?_append_of_not_mem hpiece, List.cons_append,
            List.cons_append, cut?, after?, if_pos rfl, after?, if_neg hc, ← List.cons_append,
            hrest, Option.map_map, Option.map_map]
          simp [Function.comp_def]
          simp

end Text

namespace Address

/-! ## Octets -/

theorem octet?_decimal {n : Nat} (h : n < 256) : octet? (Text.decimal n) = some n := by
  have hlength : (Text.decimal n).length ≤ 3 :=
    (Nat.length_toDigits_le_iff (by decide) (by decide)).mpr (by omega)
  have hlead : ¬(1 < (Text.decimal n).length ∧ (Text.decimal n).head? = some '0') := by
    rintro ⟨hlong, hzero⟩
    rcases Nat.eq_zero_or_pos n with rfl | hpos
    · exact absurd hlong (by decide)
    · exact Text.head?_toDigits_ne_zero (by decide) (by decide) hpos hzero
  have hshort : ¬(3 < (Text.decimal n).length ∨
      1 < (Text.decimal n).length ∧ (Text.decimal n).head? = some '0') := by
    rintro (hlong | hzero)
    · omega
    · exact hlead hzero
  rw [octet?, if_neg hshort]
  simp only [Text.numeral?_decimal, Option.filter_some, decide_eq_true_eq]
  rw [if_pos (by omega)]

theorem octets?_octetsText {value : Nat} (h : value < 2 ^ 32) :
    octets? (octetsText value) =
      some (value / 2 ^ 24, value / 2 ^ 16 % 256, value / 2 ^ 8 % 256, value % 256) := by
  have hsplit : Text.splitWhere (· == '.') (octetsText value) =
      [value / 2 ^ 24, value / 2 ^ 16 % 256, value / 2 ^ 8 % 256, value % 256].map
        Text.decimal := by
    apply Text.splitWhere_joined (by simp)
    intro piece hpiece
    obtain ⟨n, -, rfl⟩ := List.mem_map.mp hpiece
    exact Text.not_mem_toDigits (by decide) (by decide) (by decide) n
  rw [octets?, hsplit]
  simp only [List.map_cons, List.map_nil]
  rw [octet?_decimal (by omega), octet?_decimal (by omega), octet?_decimal (by omega),
    octet?_decimal (by omega)]

theorem octets?_eq_none {c : Char} (hdot : c ≠ '.') (hdigit : Text.digitIn? 10 c = none)
    {text : List Char} (h : c ∈ text) : octets? text = none := by
  obtain ⟨piece, hpiece, hmem⟩ :=
    Text.exists_mem_splitWhere (· == '.') (beq_eq_false_iff_ne.mpr hdot) h
  have hnone : octet? piece = none := by
    rw [octet?, Text.numeral?_eq_none hdigit hmem]
    split <;> rfl
  unfold octets?
  split
  · rename_i a b d e hsplit
    rw [hsplit] at hpiece
    simp only [List.mem_cons, List.not_mem_nil, or_false] at hpiece
    rcases hpiece with rfl | rfl | rfl | rfl <;> simp [hnone]
  · rfl

theorem parseV4?_octetsText (bits : BitVec 32) :
    parseV4? (octetsText bits.toNat) = some bits := by
  have hlt := bits.isLt
  rw [parseV4?, octets?_octetsText hlt]
  simp only [Option.map_some, Option.some.injEq]
  apply BitVec.eq_of_toNat_eq
  rw [BitVec.toNat_ofNat]
  omega

/-! ## Groups -/

theorem foldl_digits (base n count : Nat) :
    ((List.range count).map fun i => n / base ^ (count - 1 - i) % base).foldl
      (fun total digit => total * base + digit) 0 = n % base ^ count := by
  induction count generalizing n with
  | zero => simp [Nat.mod_one]
  | succ count ih =>
      have hfront : ((List.range count).map fun i => n / base ^ (count + 1 - 1 - i) % base) =
          (List.range count).map fun i => n / base / base ^ (count - 1 - i) % base := by
        apply List.map_congr_left
        intro i hi
        have hi : i < count := List.mem_range.mp hi
        rw [Nat.div_div_eq_div_mul, ← Nat.pow_succ',
          show count + 1 - 1 - i = count - 1 - i + 1 by omega]
      rw [List.range_succ, List.map_append, List.foldl_append, hfront, ih]
      simp only [List.map_cons, List.map_nil, List.foldl_cons, List.foldl_nil, Nat.add_sub_cancel,
        Nat.sub_self, Nat.pow_zero, Nat.div_one]
      rw [Nat.pow_succ', Nat.mod_mul, Nat.mul_comm base]
      omega

theorem ofGroups_groups (bits : BitVec 128) : ofGroups (groups bits) = bits := by
  have hlt := bits.isLt
  have hfold : (groups bits).foldl (fun total group => total * 65536 + group) 0 =
      bits.toNat % 65536 ^ 8 := foldl_digits 65536 bits.toNat 8
  apply BitVec.eq_of_toNat_eq
  rw [ofGroups, hfold, BitVec.toNat_ofNat]
  omega

theorem length_groups (bits : BitVec 128) : (groups bits).length = 8 := by
  simp [groups]

theorem lt_of_mem_groups {bits : BitVec 128} {group : Nat} (h : group ∈ groups bits) :
    group < 65536 := by
  obtain ⟨i, -, rfl⟩ := List.mem_map.mp h
  exact Nat.mod_lt _ (by decide)

theorem group?_hexadecimal {n : Nat} (h : n < 65536) : group? (Text.hexadecimal n) = some n := by
  have hlength : (Text.hexadecimal n).length ≤ 4 :=
    (Nat.length_toDigits_le_iff (by decide) (by decide)).mpr (by omega)
  rw [group?, if_neg (by omega), Text.numeral?_hexadecimal]

theorem groupsOf?_map_hexadecimal (dotted : Bool) {values : List Nat}
    (h : ∀ group ∈ values, group < 65536) :
    groupsOf? dotted (values.map Text.hexadecimal) = some values := by
  induction values with
  | nil => rfl
  | cons group values ih =>
      rw [List.map_cons, groupsOf?, group?_hexadecimal (h group List.mem_cons_self)]
      simp [ih fun g hg => h g (List.mem_cons_of_mem group hg)]

theorem hexadecimal_clean {values : List Nat} :
    ∀ piece ∈ values.map Text.hexadecimal, piece ≠ [] ∧ ':' ∉ piece := by
  intro piece hpiece
  obtain ⟨n, -, rfl⟩ := List.mem_map.mp hpiece
  exact ⟨Nat.toDigits_ne_nil, Text.not_mem_toDigits (by decide) (by decide) (by decide) n⟩

theorem splitWhere_groupsText {values : List Nat} (hne : values ≠ []) :
    Text.splitWhere (· == ':') (groupsText values) = values.map Text.hexadecimal :=
  Text.splitWhere_joined (by simpa using hne) fun piece h => (hexadecimal_clean piece h).2

theorem groupsText_ne_nil {values : List Nat} (hne : values ≠ []) : groupsText values ≠ [] := by
  obtain ⟨group, values, rfl⟩ := List.exists_cons_of_ne_nil hne
  rw [groupsText, List.map_cons, Text.joined_cons]
  simp [Text.hexadecimal]

theorem side?_groupsText (dotted : Bool) {values : List Nat}
    (h : ∀ group ∈ values, group < 65536) : side? dotted (groupsText values) = some values := by
  by_cases hne : values = []
  · subst hne
    rfl
  · have htext : (groupsText values).isEmpty = false := by simpa using groupsText_ne_nil hne
    rw [side?, htext, splitWhere_groupsText hne, groupsOf?_map_hexadecimal dotted h]
    rfl

/-! ## Runs of zero groups -/

theorem eq_zeros_append_drop {values : List Nat} {length : Nat} (h : length ≤ zerosAhead values) :
    values = List.replicate length 0 ++ values.drop length := by
  induction length generalizing values with
  | zero => rfl
  | succ length ih =>
      cases values with
      | nil => simp [zerosAhead] at h
      | cons group values =>
          by_cases hzero : group = 0
          · subst hzero
            have hrest : length ≤ zerosAhead values := by simpa [zerosAhead] using h
            rw [List.replicate_succ, List.cons_append, List.drop_succ_cons, ← ih hrest]
          · simp [zerosAhead, hzero] at h

/-- What `longestZeros` finds is a run of zeros. -/
theorem longestZeros_le_zerosAhead (values : List Nat) :
    (longestZeros values).2 ≤ zerosAhead (values.drop (longestZeros values).1) := by
  have hfold : ∀ (places : List Nat) (best : Nat × Nat), best.2 ≤ zerosAhead (values.drop best.1) →
      let found := places.foldl (fun best place =>
        let length := zerosAhead (values.drop place)
        if best.2 < length then (place, length) else best) best
      found.2 ≤ zerosAhead (values.drop found.1) := by
    intro places
    induction places with
    | nil => exact fun _ h => h
    | cons place places ih =>
        intro best h
        rw [List.foldl_cons]
        apply ih
        dsimp only
        split
        · exact Nat.le_refl _
        · exact h
  exact hfold _ _ (Nat.zero_le _)

/-- Groups of which a run of zeros has been taken out. -/
theorem eq_take_zeros_drop {values : List Nat} {place length : Nat}
    (h : length ≤ zerosAhead (values.drop place)) :
    values = values.take place ++ List.replicate length 0 ++ values.drop (place + length) := by
  have hrest := eq_zeros_append_drop h
  rw [List.drop_drop] at hrest
  rw [List.append_assoc, ← hrest, List.take_append_drop]

/-! ## Second family -/

theorem cut?_groupsText_append (values : List Nat) (rest : List Char) :
    Text.cut? [':', ':'] (groupsText values ++ rest) =
      (Text.cut? [':', ':'] rest).map fun found => (groupsText values ++ found.1, found.2) :=
  Text.cut?_joined_append hexadecimal_clean rest

theorem parseV6?_groupsText {values : List Nat} (hlength : values.length = 8)
    (hlt : ∀ group ∈ values, group < 65536) :
    parseV6? (groupsText values) = some (ofGroups values) := by
  have hne : values ≠ [] := by
    rintro rfl
    simp at hlength
  have hcut : Text.cut? [':', ':'] (groupsText values) = none := by
    have h := cut?_groupsText_append values []
    rwa [List.append_nil] at h
  rw [parseV6?, hcut, splitWhere_groupsText hne, groupsOf?_map_hexadecimal true hlt]
  simp [hlength]

theorem parseV6?_shortened {high low : List Nat} (hlength : high.length + low.length ≤ 7)
    (hhigh : ∀ group ∈ high, group < 65536) (hlow : ∀ group ∈ low, group < 65536) :
    parseV6? (groupsText high ++ [':', ':'] ++ groupsText low) =
      some (ofGroups (high ++ List.replicate (8 - high.length - low.length) 0 ++ low)) := by
  have hcut : Text.cut? [':', ':'] (groupsText high ++ [':', ':'] ++ groupsText low) =
      some (groupsText high, groupsText low) := by
    rw [List.append_assoc, cut?_groupsText_append]
    simp [Text.cut?, Text.after?]
  rw [parseV6?, hcut]
  simp only [side?_groupsText false hhigh, side?_groupsText true hlow, if_pos hlength]

theorem parseV6?_textOfGroups {values : List Nat} (hlength : values.length = 8)
    (hlt : ∀ group ∈ values, group < 65536) :
    parseV6? (textOfGroups values) = some (ofGroups values) := by
  have hzeros := eq_take_zeros_drop (longestZeros_le_zerosAhead values)
  unfold textOfGroups
  generalize longestZeros values = found at hzeros ⊢
  obtain ⟨place, length⟩ := found
  dsimp only at hzeros ⊢
  split
  · exact parseV6?_groupsText hlength hlt
  · have hsum := congrArg List.length hzeros
    simp only [List.length_append, List.length_replicate] at hsum
    have hfill :
        8 - (values.take place).length - (values.drop (place + length)).length = length := by
      omega
    rw [parseV6?_shortened (by omega) (fun g hg => hlt g (List.mem_of_mem_take hg))
      fun g hg => hlt g (List.mem_of_mem_drop hg), hfill, ← hzeros]

theorem group?_octetsText (value : Nat) : group? (octetsText value) = none := by
  have hmem : '.' ∈ octetsText value := by
    rw [octetsText, List.map_cons, Text.joined_cons]
    simp
  rw [group?, Text.numeral?_eq_none (by decide) hmem]
  split <;> rfl

theorem not_colon_mem_octetsText {value : Nat} (h : value < 2 ^ 32) : ':' ∉ octetsText value := by
  intro hmem
  have hnone := octets?_eq_none (by decide) (by decide) hmem
  rw [octets?_octetsText h] at hnone
  cases hnone

theorem side?_mapped {value : Nat} (h : value < 2 ^ 32) :
    side? true ("ffff:".toList ++ octetsText value) =
      some [0xFFFF, value / 2 ^ 16, value % 2 ^ 16] := by
  have hclean : ∀ piece ∈ ["ffff".toList, octetsText value], ':' ∉ piece := by
    intro piece hpiece
    simp only [List.mem_cons, List.not_mem_nil, or_false] at hpiece
    rcases hpiece with rfl | rfl
    · decide
    · exact not_colon_mem_octetsText h
  have hsplit : Text.splitWhere (· == ':') ("ffff:".toList ++ octetsText value) =
      ["ffff".toList, octetsText value] := Text.splitWhere_joined (by simp) hclean
  have hnotEmpty : ("ffff:".toList ++ octetsText value).isEmpty = false := by simp
  have hgroup : group? "ffff".toList = some 0xFFFF := by decide
  rw [side?, hnotEmpty, hsplit, groupsOf?, hgroup, groupsOf?, group?_octetsText,
    octets?_octetsText h]
  simp
  omega

theorem parseV6?_mapped {bits : BitVec 128} (h : bits.toNat / 2 ^ 32 = 0xFFFF) :
    parseV6? ("::ffff:".toList ++ octetsText (bits.toNat % 2 ^ 32)) = some bits := by
  have hlow : bits.toNat % 2 ^ 32 < 2 ^ 32 := Nat.mod_lt _ (by decide)
  have hcut : Text.cut? [':', ':'] ("::ffff:".toList ++ octetsText (bits.toNat % 2 ^ 32)) =
      some ([], "ffff:".toList ++ octetsText (bits.toNat % 2 ^ 32)) := by
    simp [Text.cut?, Text.after?]
  have hfront : side? false [] = some [] := rfl
  rw [parseV6?, hcut]
  dsimp only
  rw [hfront, side?_mapped hlow]
  simp only [List.length_nil, List.length_cons, Nat.zero_add, Nat.reduceAdd, Nat.reduceLeDiff,
    if_true, Option.some.injEq]
  apply BitVec.eq_of_toNat_eq
  simp only [ofGroups, BitVec.toNat_ofNat, List.nil_append, List.foldl_append]
  simp
  omega

theorem parseV6?_textV6 (bits : BitVec 128) : parseV6? (textV6 bits) = some bits := by
  unfold textV6
  split
  · exact parseV6?_mapped ‹_›
  · rw [parseV6?_textOfGroups (length_groups bits) fun _ => lt_of_mem_groups, ofGroups_groups]

theorem colon_mem_textOfGroups {values : List Nat} (hlength : 2 ≤ values.length) :
    ':' ∈ textOfGroups values := by
  unfold textOfGroups
  generalize longestZeros values = found
  obtain ⟨place, length⟩ := found
  dsimp only
  split
  · match values, hlength with
    | first :: second :: rest, _ =>
        rw [groupsText, List.map_cons, Text.joined_cons]
        simp
  · simp

theorem colon_mem_textV6 (bits : BitVec 128) : ':' ∈ textV6 bits := by
  unfold textV6
  split
  · simp
  · exact colon_mem_textOfGroups (by rw [length_groups]; decide)

theorem not_colon_mem_of_parseV4? {text : List Char} {bits : BitVec 32}
    (h : parseV4? text = some bits) : ':' ∉ text := by
  intro hmem
  rw [parseV4?, octets?_eq_none (by decide) (by decide) hmem] at h
  cases h

theorem length_le_of_groupsOf? {piece : List Char} {values : List Nat}
    (h : groupsOf? true [piece] = some values) : values.length ≤ 2 := by
  unfold groupsOf? at h
  split at h
  · rw [groupsOf?, Option.map_some, Option.some.injEq] at h
    simp [← h]
  · rw [if_pos (by simp), Option.map_eq_some_iff] at h
    obtain ⟨_, -, rfl⟩ := h
    simp

/-- Without a colon there is one piece, and it is not of eight groups. -/
theorem colon_mem_of_parseV6? {text : List Char} {bits : BitVec 128}
    (h : parseV6? text = some bits) : ':' ∈ text := by
  by_contra hcolon
  have hcut : Text.cut? [':', ':'] text = none := by
    cases hcut : Text.cut? [':', ':'] text with
    | none => rfl
    | some found =>
        have htext := Text.eq_append_of_cut? hcut
        exact (hcolon (by simp [htext])).elim
  have hsplit : Text.splitWhere (· == ':') text = [text] :=
    Text.splitWhere_eq_singleton fun c hc => by
      rw [beq_eq_false_iff_ne]
      rintro rfl
      exact hcolon hc
  rw [parseV6?, hcut, hsplit] at h
  cases hgroups : groupsOf? true [text] with
  | none => simp [hgroups] at h
  | some values =>
      have hlength := length_le_of_groupsOf? hgroups
      rw [hgroups] at h
      dsimp only at h
      rw [if_neg (by omega)] at h
      cases h

/-! ## Both families -/

/-- Reading the text of an address gives the address back. -/
theorem parse?_text (address : Address) : parse? address.text = some address := by
  obtain ⟨family, bits⟩ := address
  cases family with
  | ipv4 =>
      have hread : parseV4? (octetsText bits.toNat) = some bits := parseV4?_octetsText bits
      have htext : text ⟨.ipv4, bits⟩ = octetsText bits.toNat := rfl
      rw [parse?, htext, hread]
      rfl
  | ipv6 =>
      have hv4 : parseV4? (textV6 bits) = none := by
        rw [parseV4?, octets?_eq_none (by decide) (by decide) (colon_mem_textV6 bits)]
        rfl
      have hread : parseV6? (textV6 bits) = some bits := parseV6?_textV6 bits
      rw [parse?, text, hv4]
      dsimp only
      rw [hread]
      rfl

end Address

end FlowFence
