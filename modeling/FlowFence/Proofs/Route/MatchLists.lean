import FlowFence.Proofs.Network.Spelling
import FlowFence.Proofs.Route.Announced
import FlowFence.Proofs.Text.Bases

/-!
# Match lists

What a match group says, and where its reading fails. The group is a list of parts; each of them
says one value of one key or nothing. The list is read just if all that is said stands for
something, by the last value of each key, and else it fails at the first part that says something
void. So parts that say nothing do not matter, nor does the order of parts that speak of different
keys.
-/

namespace FlowFence

namespace Route

open Text (words joined splitWhere)

variable {key other : Key} {value part : List Char} {parts others : List (List Char)}
  {before after : Criteria} {found : Option Network ⊕ Nat} {e : RouteError}

/--
Whether a part of a match group gives a key a value: its last word is the value, and the words
before it, at least one, are those of the key.
-/
def Says (part : List Char) (key : Key) (value : List Char) : Prop :=
  ∃ front, front ≠ [] ∧ words part = front ++ [value] ∧ joined '_' front = key.spelling

def Denotes (key : Key) (value : List Char) (found : Option Network ⊕ Nat) : Prop :=
  match key with
  | .source => ∃ network, Network.IsSpelling value network ∧ found = .inl (some network)
  | .destination => ∃ network, Network.IsSpelling value network ∧ found = .inl (some network)
  | .sourcePort => ∃ n, Text.IsWord value n ∧ n ≤ 65535 ∧ found = .inr n
  | .destinationPort => ∃ n, Text.IsWord value n ∧ n ≤ 65535 ∧ found = .inr n
  | .protocol => ∃ n, Text.IsBased value n ∧ n ≤ 255 ∧ found = .inr n

def IsRecognised (part : List Char) : Prop :=
  ∃ key value, Says part key value

def IsValid (part : List Char) : Prop :=
  ∀ key value, Says part key value → ∃ found, Denotes key value found

def SpeaksApart (part other : List Char) : Prop :=
  ∀ key value value', Says part key value → ¬ Says other key value'

/-- What a list of parts gives a key: the last value for it, or what the key is without one. -/
inductive Announces (parts : List (List Char)) (key : Key) : Option Network ⊕ Nat → Prop where
  | last {front back : List (List Char)} {part value : List Char} {found : Option Network ⊕ Nat}
      (split : parts = front ++ part :: back) (said : Says part key value)
      (silent : ∀ other ∈ back, ∀ value, ¬ Says other key value)
      (denoted : Denotes key value found) : Announces parts key found
  | unsaid (silent : ∀ part ∈ parts, ∀ value, ¬ Says part key value) :
      Announces parts key (entry {} key)

/-- Whether the first part of a list that is not valid speaks of a key. -/
def FailsAt (parts : List (List Char)) (key : Key) : Prop :=
  ∃ front part back value, parts = front ++ part :: back ∧ (∀ earlier ∈ front, IsValid earlier) ∧
    Says part key value ∧ ¬ ∃ found, Denotes key value found

/-! ## Single parts -/

theorem says_iff : Says part key value ↔ valueIn? key part = some value := by
  rw [valueIn?_eq_some_iff]
  constructor
  · intro h
    obtain ⟨front, hne, hwords, hkey⟩ := h
    rw [keyAndValue?_of_words hne hwords, hkey]
  · intro h
    unfold keyAndValue? at h
    split at h
    · rename_i found last front hwords
      rw [Option.some.injEq, Prod.mk.injEq] at h
      obtain ⟨hkey, rfl⟩ := h
      refine ⟨(last :: front).reverse, by simp, ?_, hkey⟩
      rw [← List.reverse_reverse (words part), hwords, List.reverse_cons]
    · cases h

theorem not_says_iff : (∀ value, ¬ Says part key value) ↔ valueIn? key part = none := by
  simp [says_iff, Option.eq_none_iff_forall_ne_some]

theorem Says.unique {value' : List Char} (h : Says part key value) (h' : Says part other value') :
    other = key ∧ value' = value := by
  rw [says_iff] at h h'
  by_cases hkey : other = key
  · subst hkey
    exact ⟨rfl, Option.some.inj (h'.symm.trans h)⟩
  · rw [valueIn?_eq_none_of_ne h hkey] at h'
    cases h'

theorem trim_said (h : Says part key value) : Text.trim value = value := by
  obtain ⟨front, -, hwords, -⟩ := h
  have hmem : value ∈ words part := by
    rw [hwords]
    exact List.mem_append_right front List.mem_cons_self
  exact Text.trim_eq_self (Text.not_isBlank_of_mem_words hmem)

theorem denotes_iff (h : Says part key value) :
    Denotes key value found ↔ denoted? key value = some found := by
  have hread (network : Network) :
      (Network.parse? value).toOption = some network ↔ Network.IsSpelling value network := by
    rw [← Network.parse?_eq_ok_iff_isSpelling]
    cases Network.parse? value <;> simp [Except.toOption]
  have hprotocol (n : Nat) : (Text.unsignedNumeral? value).filter (· ≤ 255) = some n ↔
      Text.IsBased value n ∧ n ≤ 255 := by
    rw [Option.filter_eq_some_iff, Text.unsignedNumeral?_eq_some_iff, trim_said h,
      decide_eq_true_eq, and_assoc]
    refine and_congr_right fun _ => ?_
    omega
  cases key <;>
    simp only [Denotes, denoted?, Option.map_eq_some_iff, hread, Text.word?_eq_some_iff, hprotocol,
      and_assoc, @eq_comm _ found]

theorem isValid_iff :
    IsValid part ↔ ∀ key, ∀ value ∈ valueIn? key part, (denoted? key value).isSome := by
  refine forall_congr' fun key => forall_congr' fun value => ?_
  rw [Option.mem_def, says_iff.symm]
  refine imp_congr_right fun hsaid => ?_
  rw [Option.isSome_iff_exists]
  exact exists_congr fun found => denotes_iff hsaid

theorem exists_addPart_iff :
    (∃ after, addPart before part = .ok after) ↔ IsValid part := by
  rw [isValid_iff]
  constructor
  · intro h key value hvalue
    obtain ⟨after, hafter⟩ := h
    have hgives := addPart_eq_ok_iff.mp hafter key
    rw [Option.mem_def.mp hvalue] at hgives
    exact Option.isSome_iff_exists.mpr ⟨_, hgives⟩
  · intro h
    exact exists_addPart h before

/-- A part fails just if it gives a key a value that stands for nothing. -/
theorem addPart_eq_error_iff : addPart before part = .error e ↔
    ∃ key value, Says part key value ∧ (¬ ∃ found, Denotes key value found) ∧
      e = .criterion (String.ofList key.spelling) := by
  constructor
  · intro h
    have hinvalid : ¬ IsValid part := by
      intro hvalid
      obtain ⟨after, hafter⟩ := exists_addPart_iff.mpr hvalid
      rw [h] at hafter
      cases hafter
    obtain ⟨key, hkey⟩ := Classical.not_forall.mp hinvalid
    obtain ⟨value, hvalue⟩ := Classical.not_forall.mp hkey
    obtain ⟨hsaid, hvoid⟩ := Classical.not_imp.mp hvalue
    refine ⟨key, value, hsaid, hvoid, ?_⟩
    rw [addPart, valueIn?_eq_some_iff.mp (says_iff.mp hsaid)] at h
    simp only [ofSpelling?_spelling] at h
    split at h
    · cases h
    · exact (Except.error.inj h).symm
  · intro h
    obtain ⟨key, value, hsaid, hvoid, rfl⟩ := h
    have hassign : assign? before key value = none := by
      rw [← Option.not_isSome_iff_eq_none, isSome_assign?, Option.isSome_iff_exists]
      simpa only [denotes_iff hsaid] using hvoid
    rw [addPart, valueIn?_eq_some_iff.mp (says_iff.mp hsaid)]
    simp only [ofSpelling?_spelling, hassign]

/-! ## Lists of parts -/

theorem lastValue?_eq_some_iff : lastValue? key parts = some value ↔
    ∃ front part back, parts = front ++ part :: back ∧ Says part key value ∧
      ∀ other ∈ back, ∀ value, ¬ Says other key value := by
  simp only [not_says_iff]
  simp only [says_iff, lastValue?, List.findSome?_eq_some_iff]
  constructor
  · intro h
    obtain ⟨back, part, front, hparts, hvalue, hsilent⟩ := h
    refine ⟨front.reverse, part, back.reverse, ?_, hvalue, ?_⟩
    · simpa using congrArg List.reverse hparts
    · simpa using hsilent
  · intro h
    obtain ⟨front, part, back, rfl, hvalue, hsilent⟩ := h
    exact ⟨back.reverse, part, front.reverse, by simp, hvalue, by simpa using hsilent⟩

theorem lastValue?_eq_none_iff :
    lastValue? key parts = none ↔ ∀ part ∈ parts, ∀ value, ¬ Says part key value := by
  simp [not_says_iff, lastValue?]

theorem announces_iff :
    Announces parts key (entry after key) ↔ Gives key (lastValue? key parts) {} after := by
  constructor
  · intro h
    generalize hentry : entry after key = found at h
    cases h with
    | last split said silent denoted =>
        rw [lastValue?_eq_some_iff.mpr ⟨_, _, _, split, said, silent⟩]
        exact (denotes_iff said).mp (hentry ▸ denoted)
    | unsaid silent =>
        rw [lastValue?_eq_none_iff.mpr silent]
        exact hentry
  · intro h
    cases hlast : lastValue? key parts with
    | none =>
        rw [hlast] at h
        have hentry : entry after key = entry {} key := h
        rw [hentry]
        exact .unsaid (lastValue?_eq_none_iff.mp hlast)
    | some value =>
        obtain ⟨front, part, back, hparts, hsaid, hsilent⟩ := lastValue?_eq_some_iff.mp hlast
        rw [hlast] at h
        exact .last hparts hsaid hsilent ((denotes_iff hsaid).mpr h)

theorem addParts_eq_ok_iff_announces : addParts {} parts = .ok after ↔
    (∀ part ∈ parts, IsValid part) ∧ ∀ key, Announces parts key (entry after key) := by
  simp only [addParts_eq_ok_iff, isValid_iff, announces_iff]

theorem not_failsAt_nil : ¬ FailsAt [] key := by
  intro h
  obtain ⟨front, part, back, -, hparts, -⟩ := h
  simp at hparts

/-- Behind a valid part a list fails where the rest of it does. -/
theorem failsAt_cons (hvalid : IsValid part) : FailsAt (part :: parts) key ↔ FailsAt parts key := by
  constructor
  · intro h
    obtain ⟨front, void, back, value, hparts, hfront, hsaid, hvoid⟩ := h
    cases front with
    | nil =>
        obtain ⟨rfl, -⟩ := List.cons.inj hparts
        exact absurd (hvalid key value hsaid) hvoid
    | cons first front =>
        obtain ⟨-, hparts⟩ := List.cons.inj hparts
        exact ⟨front, void, back, value, hparts, (List.forall_mem_cons.mp hfront).2, hsaid, hvoid⟩
  · intro h
    obtain ⟨front, void, back, value, rfl, hfront, hsaid, hvoid⟩ := h
    exact ⟨part :: front, void, back, value, rfl, List.forall_mem_cons.mpr ⟨hvalid, hfront⟩, hsaid,
      hvoid⟩

/-- A list fails at its first part if that part says something void. -/
theorem failsAt_cons_of_void (hsaid : Says part key value)
    (hvoid : ¬ ∃ found, Denotes key value found) :
    FailsAt (part :: parts) other ↔ other = key := by
  constructor
  · intro h
    obtain ⟨front, void, back, value', hparts, hfront, hsaid', -⟩ := h
    cases front with
    | nil =>
        obtain ⟨rfl, -⟩ := List.cons.inj hparts
        exact (hsaid.unique hsaid').1
    | cons first front =>
        obtain ⟨rfl, -⟩ := List.cons.inj hparts
        exact absurd (hfront part List.mem_cons_self key value hsaid) hvoid
  · intro h
    rw [h]
    exact ⟨[], part, parts, value, rfl, List.forall_mem_nil _, hsaid, hvoid⟩

theorem addParts_eq_error_iff : addParts before parts = .error e ↔
    ∃ key, FailsAt parts key ∧ e = .criterion (String.ofList key.spelling) := by
  induction parts generalizing before with
  | nil => simp [addParts, not_failsAt_nil]
  | cons part parts ih =>
      rw [addParts]
      cases hpart : addPart before part with
      | ok between =>
          have hvalid := exists_addPart_iff.mp ⟨between, hpart⟩
          simp only [failsAt_cons hvalid]
          exact ih
      | error e' =>
          obtain ⟨key, value, hsaid, hvoid, rfl⟩ := addPart_eq_error_iff.mp hpart
          simp [failsAt_cons_of_void hsaid hvoid, eq_comm]

theorem exists_addParts_iff :
    (∃ after, addParts before parts = .ok after) ↔ ∀ part ∈ parts, IsValid part := by
  constructor
  · intro h part hpart
    obtain ⟨after, hafter⟩ := h
    exact isValid_iff.mpr ((addParts_eq_ok_iff.mp hafter).1 part hpart)
  · intro hvalid
    cases hparts : addParts before parts with
    | ok after => exact ⟨after, rfl⟩
    | error e =>
        obtain ⟨key, hfails, -⟩ := addParts_eq_error_iff.mp hparts
        obtain ⟨front, part, back, value, rfl, -, hsaid, hvoid⟩ := hfails
        exact absurd (hvalid part (by simp) key value hsaid) hvoid

/-! ## Silent parts -/

theorem isSome_ofSpelling?_iff {spelling : List Char} :
    (Key.ofSpelling? spelling).isSome ↔ ∃ key : Key, key.spelling = spelling := by
  constructor
  · intro h
    rw [Key.ofSpelling?, List.find?_isSome] at h
    obtain ⟨key, -, hkey⟩ := h
    exact ⟨key, of_decide_eq_true hkey⟩
  · intro h
    obtain ⟨key, rfl⟩ := h
    rw [ofSpelling?_spelling]
    rfl

instance : DecidablePred IsRecognised := fun part =>
  decidable_of_iff (((keyAndValue? part).bind fun pair => Key.ofSpelling? pair.1).isSome) <| by
    simp only [IsRecognised, says_iff, valueIn?_eq_some_iff]
    cases keyAndValue? part with
    | none => simp
    | some pair => simp [isSome_ofSpelling?_iff, Prod.ext_iff, @eq_comm _ pair.1]

theorem addParts_filter (before : Criteria) (parts : List (List Char)) :
    addParts before (parts.filter (IsRecognised ·)) = addParts before parts := by
  induction parts generalizing before with
  | nil => rfl
  | cons part parts ih =>
      by_cases hpart : IsRecognised part
      · rw [List.filter_cons_of_pos (by simpa using hpart), addParts, addParts]
        cases addPart before part with
        | ok between => exact ih between
        | error e => rfl
      · have hsilent : addPart before part = .ok before := by
          refine addPart_of_silent fun key => not_says_iff.mp fun value hsaid => ?_
          exact hpart ⟨key, value, hsaid⟩
        rw [List.filter_cons_of_neg (by simpa using hpart), addParts, hsilent]
        exact ih before

/-! ## Order -/

theorem lastValue?_eq_getLast? (key : Key) (parts : List (List Char)) :
    lastValue? key parts = (parts.filterMap (valueIn? key)).getLast? := by
  rw [lastValue?, ← List.head?_filterMap, List.filterMap_reverse, List.head?_reverse]

/-- Lists that give each key the same values in the same order are read alike. -/
theorem addParts_eq_ok_congr
    (h : ∀ key, parts.filterMap (valueIn? key) = others.filterMap (valueIn? key)) :
    addParts before parts = .ok after ↔ addParts before others = .ok after := by
  have hvalues (parts : List (List Char)) :
      (∀ part ∈ parts, ∀ key, ∀ value ∈ valueIn? key part, (denoted? key value).isSome) ↔
        ∀ key, ∀ value ∈ parts.filterMap (valueIn? key), (denoted? key value).isSome := by
    simp only [List.mem_filterMap, Option.mem_def]
    constructor
    · intro hall key value hvalue
      obtain ⟨part, hpart, hvalue⟩ := hvalue
      exact hall part hpart key value hvalue
    · intro hall part hpart key value hvalue
      exact hall key value ⟨part, hpart, hvalue⟩
  simp only [addParts_eq_ok_iff, hvalues, lastValue?_eq_getLast?, h]

/-- Parts that speak of different keys have one value of a key at most, so their order is lost. -/
theorem filterMap_valueIn?_of_perm (hperm : parts.Perm others) (hapart : parts.Pairwise SpeaksApart)
    (key : Key) : parts.filterMap (valueIn? key) = others.filterMap (valueIn? key) := by
  have hnever : (parts.filterMap (valueIn? key)).Pairwise fun _ _ => False := by
    refine List.pairwise_filterMap.mpr (hapart.imp fun hkeys value hvalue value' hvalue' => ?_)
    exact hkeys key value value' (says_iff.mpr hvalue) (says_iff.mpr hvalue')
  have hvalues := hperm.filterMap (valueIn? key)
  generalize parts.filterMap (valueIn? key) = values at hnever hvalues ⊢
  cases values with
  | nil => exact (List.nil_perm.mp hvalues).symm
  | cons value values =>
      cases values with
      | nil => exact (List.singleton_perm.mp hvalues)
      | cons next values => exact (List.rel_of_pairwise_cons hnever List.mem_cons_self).elim

/-! ## Match groups -/

/--
A match group is read just if all that its parts say stands for something, and each key then is what
the last part that speaks of it says, or as it is by default. Otherwise the group fails with the key
of its first part that says something void. Parts that say nothing may come, go and move, and parts
in a row that speak of different keys may change places in a group that is read.
-/
theorem match_lists_are_read_exactly :
    (∀ group, (∃ criteria, criteria? group = .ok criteria) ↔
      ∀ part ∈ splitWhere (· == ';') group, IsValid part) ∧
    (∀ group criteria, criteria? group = .ok criteria ↔
      (∀ part ∈ splitWhere (· == ';') group, IsValid part) ∧
        ∀ key, Announces (splitWhere (· == ';') group) key (entry criteria key)) ∧
    (∀ group e, criteria? group = .error e ↔
      ∃ key, FailsAt (splitWhere (· == ';') group) key ∧
        e = .criterion (String.ofList key.spelling)) ∧
    (∀ group other, (splitWhere (· == ';') group).filter (IsRecognised ·) =
      (splitWhere (· == ';') other).filter (IsRecognised ·) → criteria? group = criteria? other) ∧
    ∀ group other front block block' back, splitWhere (· == ';') group = front ++ block ++ back →
      splitWhere (· == ';') other = front ++ block' ++ back → block.Perm block' →
        block.Pairwise SpeaksApart →
          ∀ criteria, criteria? group = .ok criteria ↔ criteria? other = .ok criteria := by
  refine ⟨fun _ => exists_addParts_iff, fun _ _ => addParts_eq_ok_iff_announces,
    fun _ _ => addParts_eq_error_iff, ?_, ?_⟩
  · intro group other hsame
    rw [criteria?, criteria?, ← addParts_filter, hsame, addParts_filter]
  · intro group other front block block' back hgroup hother hperm hapart criteria
    rw [criteria?, criteria?, hgroup, hother]
    refine addParts_eq_ok_congr fun key => ?_
    simp only [List.filterMap_append, filterMap_valueIn?_of_perm hperm hapart key]

/-- A key may be spoken of twice and in two ways, and the first of two void values counts. -/
theorem crowdedList_is_read_exactly :
    let group :=
      "dst 10.0.0.0/8; colour red; next header 0x11; dst 203.0.113.7/24;dport +080".toList
    let moved := " ;dst 10.0.0.0/8; next header 0x11; dst 203.0.113.7/24;dport +080; red".toList
    let swapped := " ;dst 10.0.0.0/8; next header 0x11;dport +080; dst 203.0.113.7/24; red".toList
    let criteria : Criteria :=
      { destination := some ⟨.v4 0xCB007100, 24⟩, protocol := 17, destinationPort := 80 }
    criteria? group = .ok criteria ∧ criteria? moved = .ok criteria ∧
      criteria? swapped = .ok criteria ∧
      Announces (splitWhere (· == ';') group) .source (.inl none) ∧
      ∃ key, FailsAt (splitWhere (· == ';') "dport 80;sport 65536;next_header 256".toList) key ∧
        RouteError.criterion "sport" = .criterion (String.ofList key.spelling) := by
  intro group moved swapped criteria
  obtain ⟨-, hread, hfail, hsilent, hswap⟩ := match_lists_are_read_exactly
  have hgroup : criteria? group = .ok criteria := by decide +kernel
  have hmoved : criteria? moved = .ok criteria :=
    (hsilent moved group (by decide +kernel)).trans hgroup
  have hdestination : Says " dst 203.0.113.7/24".toList .destination "203.0.113.7/24".toList :=
    says_iff.mpr (by decide +kernel)
  have hport : Says "dport +080".toList .destinationPort "+080".toList :=
    says_iff.mpr (by decide +kernel)
  have hapart : [" dst 203.0.113.7/24".toList, "dport +080".toList].Pairwise SpeaksApart := by
    refine List.pairwise_pair.mpr fun key value value' hsaid hsaid' => ?_
    have hkeys := (hdestination.unique hsaid).1.symm.trans (hport.unique hsaid').1
    cases hkeys
  have hswapped : criteria? swapped = .ok criteria :=
    (hswap moved swapped [" ".toList, "dst 10.0.0.0/8".toList, " next header 0x11".toList] _
      ["dport +080".toList, " dst 203.0.113.7/24".toList] [" red".toList] (by decide +kernel)
      (by decide +kernel) (.swap _ _ _) hapart criteria).mp hmoved
  exact ⟨hgroup, hmoved, hswapped, ((hread group criteria).mp hgroup).2 .source,
    (hfail _ (.criterion "sport")).mp (by decide +kernel)⟩

end Route

end FlowFence
