import FlowFence.Proofs.Network.RoundTrip
import FlowFence.Proofs.Route.MatchGroup
import FlowFence.Route.Written

/-!
# Pairs read back

Which routes have a text, and which choices of a writer keep all of it readable. A pair that names a
criterion sets it to the value that is written and leaves the others as they are, so the order of
the pairs and those that name none do not matter.
-/

namespace FlowFence

namespace Route

open Text (words joined splitWhere)

/-! ## Routes and layouts that can be written -/

def delimiters : List Char :=
  "[]{}();".toList

def IsPlainChar (c : Char) : Prop :=
  Text.isBlank c = false ∧ c ∉ delimiters

instance (c : Char) : Decidable (IsPlainChar c) :=
  inferInstanceAs (Decidable (_ ∧ _))

def IsPlainWord (word : List Char) : Prop :=
  word ≠ [] ∧ ∀ c ∈ word, IsPlainChar c

instance (word : List Char) : Decidable (IsPlainWord word) :=
  decidable_of_iff (word ≠ [] ∧ word.all (IsPlainChar ·) = true)
    (and_congr_right' List.all_iff_forall_prop)

structure IsWritable (route : Route) (pattern : Nat) : Prop where
  name : IsPlainWord route.session.name.toList
  imported : IsPlainWord route.session.imported.toList
  source : ∀ network ∈ route.criteria.source, network.IsBuilt
  destination : ∀ network ∈ route.criteria.destination, network.IsBuilt
  protocol : route.criteria.protocol < 256
  sourcePort : route.criteria.sourcePort < 65536
  destinationPort : route.criteria.destinationPort < 65536
  bits : pattern < 2 ^ 32
  argument : Binary32.truncate? pattern = some route.argument
  rate : route.action.isRate = true → 0 ≤ route.argument

/--
Whether a layout writes out all of some criteria: every group once, a pair for just the keys that
are not open, and nothing besides that a group can be taken to begin in.
-/
structure Layout.Fits (layout : Layout) (criteria : Criteria) : Prop where
  once : layout.order.Nodup
  session_mem : .session ∈ layout.order
  criteria_mem : .criteria ∈ layout.order
  label : layout.label ∈ communityLabels
  named : ∀ key, .criterion key ∈ layout.pairs ↔ valueText? criteria key ≠ none
  plain : ∀ words, .other words ∈ layout.pairs → ∀ word ∈ words, IsPlainWord word
  unknown : ∀ words, .other words ∈ layout.pairs →
    ∀ key : Key, key.spelling ≠ joined '_' words.dropLast
  above : '(' ∉ layout.above
  below : '(' ∉ layout.below
  lineEnd : .community ∈ layout.order → layout.below = [] ∨ layout.below.head? = some '\n'

variable {layout : Layout} {route : Route} {criteria found : Criteria} {pairs : List Pair}
  {key : Key} {pattern : Nat} {c : Char}

/-! ## Words -/

theorem not_mem_delimiters (h : c = ' ' ∨ IsPlainChar c) : c ∉ delimiters := by
  rcases h with rfl | hplain
  · decide
  · exact hplain.2

theorem isPlainChar_of_isAddressChar (h : Text.IsAddressChar c) : IsPlainChar c := by
  have hdigits : ∀ digit < 16, IsPlainChar (Nat.digitChar digit) := by decide
  rcases h with ⟨digit, hdigit, rfl⟩ | rfl | rfl | rfl
  · exact hdigits digit hdigit
  · decide
  · decide
  · decide

theorem isPlainWord_decimal (n : Nat) : IsPlainWord (Text.decimal n) :=
  ⟨Nat.toDigits_ne_nil, fun _ hc =>
    isPlainChar_of_isAddressChar (Text.isAddressChar_of_mem_toDigits (by decide) (by decide) hc)⟩

theorem isPlainWord_address (address : Address) : IsPlainWord address.text :=
  ⟨address.text_ne_nil, fun _ hc =>
    isPlainChar_of_isAddressChar (Address.isAddressChar_of_mem_text hc)⟩

theorem isPlainWord_network (network : Network) : IsPlainWord network.text :=
  ⟨by simp [Network.text], fun _ hc =>
    isPlainChar_of_isAddressChar (Network.isAddressChar_of_mem_text hc)⟩

theorem isPlainWord_value {value : List Char} (h : valueText? criteria key = some value) :
    IsPlainWord value := by
  unfold valueText? at h
  cases hentry : entry criteria key with
  | inl block =>
      rw [hentry] at h
      obtain ⟨network, -, rfl⟩ := Option.map_eq_some_iff.mp h
      exact isPlainWord_network network
  | inr number =>
      rw [hentry, entryText?] at h
      split at h
      · cases h
      · cases h
        exact isPlainWord_decimal number

theorem isPlainWord_key {word : List Char} (h : word ∈ key.words) : IsPlainWord word := by
  have hwords : ∀ other ∈ key.words, IsPlainWord other :=
    List.all_iff_forall_prop.mp (by cases key <;> decide)
  exact hwords word h

theorem joined_key (key : Key) : joined '_' key.words = key.spelling := by
  cases key <;> rfl

theorem words_joined_of_plain {pieces : List (List Char)} (h : ∀ word ∈ pieces, IsPlainWord word) :
    words (joined ' ' pieces) = pieces :=
  Text.words_joined fun word hword =>
    ⟨(h word hword).1, fun c hc => ((h word hword).2 c hc).1⟩

theorem mem_joined_plain {pieces : List (List Char)} (h : ∀ word ∈ pieces, IsPlainWord word)
    (hc : c ∈ joined ' ' pieces) : c = ' ' ∨ IsPlainChar c := by
  rcases Text.mem_joined hc with hspace | ⟨word, hword, hmem⟩
  · exact .inl hspace
  · exact .inr ((h word hword).2 c hmem)

/-! ## Criteria -/

/-- A key whose value is not written is open. -/
theorem entry_of_valueText?_eq_none (h : valueText? criteria key = none) :
    entry {} key = entry criteria key := by
  cases key <;> simp_all [valueText?, entry, entryText?]

/-- What is written for a criterion is read as it. -/
theorem denoted?_valueText? (hroute : IsWritable route pattern) {value : List Char}
    (h : valueText? route.criteria key = some value) :
    denoted? key value = some (entry route.criteria key) := by
  have hblock {block : Option Network} (hbuilt : ∀ network ∈ block, network.IsBuilt)
      (h : entryText? (.inl block) = some value) :
      (Network.parse? value).toOption.map (fun network => .inl (some network)) =
        some (.inl block : Option Network ⊕ Nat) := by
    obtain ⟨network, rfl, rfl⟩ := Option.map_eq_some_iff.mp h
    rw [Network.parse?_text (hbuilt network rfl)]
    rfl
  have hnumber {number : Nat} (h : entryText? (.inr number) = some value) :
      0 < number ∧ value = Text.decimal number := by
    rw [entryText?] at h
    split at h
    · cases h
    · cases h
      exact ⟨by omega, rfl⟩
  cases key with
  | source => exact hblock hroute.source h
  | destination => exact hblock hroute.destination h
  | sourcePort =>
      obtain ⟨-, rfl⟩ := hnumber h
      rw [denoted?, Text.word?_decimal (Nat.le_of_lt_succ hroute.sourcePort)]
      rfl
  | destinationPort =>
      obtain ⟨-, rfl⟩ := hnumber h
      rw [denoted?, Text.word?_decimal (Nat.le_of_lt_succ hroute.destinationPort)]
      rfl
  | protocol =>
      obtain ⟨hpos, rfl⟩ := hnumber h
      have hlimit := Nat.le_of_lt_succ hroute.protocol
      rw [denoted?, Text.unsignedNumeral?_decimal hpos (by omega), Option.filter_some,
        if_pos (decide_eq_true hlimit)]
      rfl

/-! ## Pairs -/

theorem isPlainWord_of_mem_words (hfits : layout.Fits criteria) {pair : Pair}
    (hpair : pair ∈ layout.pairs) {word : List Char} (h : word ∈ pair.words criteria) :
    IsPlainWord word := by
  cases pair with
  | criterion key =>
      rcases List.mem_append.mp h with hkey | hvalue
      · exact isPlainWord_key hkey
      · exact isPlainWord_value (Option.mem_toList.mp hvalue)
  | other words => exact hfits.plain words hpair word h

theorem words_text (hfits : layout.Fits criteria) {pair : Pair} (hpair : pair ∈ layout.pairs) :
    words (pair.text criteria) = pair.words criteria :=
  words_joined_of_plain fun _ hword => isPlainWord_of_mem_words hfits hpair hword

theorem valueIn?_other (hfits : layout.Fits criteria) {unnamed : List (List Char)}
    (h : .other unnamed ∈ layout.pairs) (key : Key) :
    valueIn? key ((Pair.other unnamed).text criteria) = none := by
  have hwords := words_text hfits h
  rw [Pair.words] at hwords
  rw [Option.eq_none_iff_forall_ne_some]
  intro value hvalue
  rw [valueIn?_eq_some_iff] at hvalue
  by_cases hshort : unnamed.length < 2
  · rw [keyAndValue?_of_length hwords hshort] at hvalue
    cases hvalue
  · have hne : unnamed ≠ [] := by
      rintro rfl
      exact hshort (by decide)
    have hfront : unnamed.dropLast ≠ [] := by
      rw [← List.length_pos_iff, List.length_dropLast]
      omega
    rw [keyAndValue?_of_words hfront (hwords.trans (List.dropLast_append_getLast hne).symm),
      Option.some.injEq, Prod.mk.injEq] at hvalue
    exact hfits.unknown unnamed h key hvalue.1.symm

theorem exists_valueIn?_criterion (hfits : layout.Fits criteria)
    (h : .criterion key ∈ layout.pairs) :
    ∃ value, valueText? criteria key = some value ∧
      valueIn? key ((Pair.criterion key).text criteria) = some value := by
  obtain ⟨value, hvalue⟩ := Option.ne_none_iff_exists'.mp ((hfits.named key).mp h)
  have hwords := words_text hfits h
  rw [Pair.words, hvalue, Option.toList_some] at hwords
  refine ⟨value, hvalue, valueIn?_eq_some_iff.mpr ?_⟩
  rw [← joined_key]
  exact keyAndValue?_of_words (by cases key <;> decide) hwords

/-- A value in a written pair is the one that is written for its key. -/
theorem valueText?_of_valueIn? (hfits : layout.Fits criteria) {pair : Pair}
    (hpair : pair ∈ layout.pairs) {value : List Char}
    (h : valueIn? key (pair.text criteria) = some value) : valueText? criteria key = some value := by
  cases pair with
  | other unnamed =>
      rw [valueIn?_other hfits hpair] at h
      cases h
  | criterion named =>
      obtain ⟨written, hwritten, hvalue⟩ := exists_valueIn?_criterion hfits hpair
      by_cases hkey : key = named
      · subst hkey
        rw [hwritten, ← hvalue, h]
      · rw [valueIn?_eq_none_of_ne hvalue hkey] at h
        cases h

/-- The pairs of a layout are read as the criteria that they are written for. -/
theorem addParts_texts (hroute : IsWritable route pattern) (hfits : layout.Fits route.criteria) :
    addParts {} (layout.pairs.map (Pair.text route.criteria)) = .ok route.criteria := by
  apply addParts_of_denoted
  · intro part hpart key value hvalue
    obtain ⟨pair, hpair, rfl⟩ := List.mem_map.mp hpart
    exact denoted?_valueText? hroute (valueText?_of_valueIn? hfits hpair hvalue)
  · intro key hlast
    refine (entry_of_valueText?_eq_none ?_).symm
    cases hvalue : valueText? route.criteria key with
    | none => rfl
    | some value =>
        have hpair : .criterion key ∈ layout.pairs := (hfits.named key).mpr (by simp [hvalue])
        obtain ⟨written, -, hwritten⟩ := exists_valueIn?_criterion hfits hpair
        obtain ⟨last, hfound⟩ := exists_lastValue? (List.mem_map_of_mem hpair) hwritten
        rw [hlast] at hfound
        cases hfound

/-! ## Match groups -/

theorem not_mem_text (hfits : layout.Fits criteria) {pair : Pair} (hpair : pair ∈ layout.pairs)
    (hc : c ∈ delimiters) : c ∉ pair.text criteria := by
  intro hmem
  have hplain := mem_joined_plain (fun _ hword => isPlainWord_of_mem_words hfits hpair hword) hmem
  exact not_mem_delimiters hplain hc

theorem map_words_pairsText (hfits : layout.Fits criteria) (hpairs : pairs ⊆ layout.pairs) :
    (splitWhere (· == ';') (pairsText criteria pairs)).map words =
      (pairs.map (Pair.text criteria) ++ [[]]).map words := by
  induction pairs with
  | nil => rfl
  | cons pair pairs ih =>
      obtain ⟨hpair, hrest⟩ := List.cons_subset.mp hpairs
      have hclean : ∀ c ∈ pair.text criteria, (c == ';') = false := by
        intro c hc
        rw [beq_eq_false_iff_ne]
        rintro rfl
        exact not_mem_text hfits hpair (by decide) hc
      have htext : pairsText criteria (pair :: pairs) =
          pair.text criteria ++ ';' :: ' ' :: pairsText criteria pairs := by
        simp [pairsText]
      rw [htext, Text.splitWhere_append_cut hclean rfl, List.map_cons,
        Text.map_words_splitWhere_cons _ (by decide) (by decide), ih hrest]
      rfl

theorem endsBlank_pairsText (criteria : Criteria) (pairs : List Pair) :
    EndsBlank (pairsText criteria pairs) := by
  rcases List.eq_nil_or_concat pairs with rfl | ⟨front, last, rfl⟩
  · exact ⟨[], by simp, .inl rfl⟩
  · refine ⟨[' '], List.all_eq_true.mp (by decide), .inr ⟨pairsText criteria front ++ last.text criteria, ?_⟩⟩
    simp [pairsText]

theorem criteria?_pairsText (hroute : IsWritable route pattern)
    (hfits : layout.Fits route.criteria) :
    criteria? (' ' :: pairsText route.criteria layout.pairs) = .ok route.criteria := by
  rw [criteria?_cons_blank (by decide) (by decide), criteria?,
    addParts_congr (map_words_pairsText hfits (List.Subset.refl _)),
    addParts_append_silent (addPart_blanks (by simp))]
  exact addParts_texts hroute hfits

end Route

end FlowFence
