import FlowFence.Proofs.Route.Criteria
import FlowFence.Route.Written

/-!
# Announced values

A match group is read just if every value that it gives a key denotes something, and each key then
has what the last of its values denotes. A key without a value is open.
-/

namespace FlowFence

namespace Route

open Text (splitWhere)

variable {key : Key} {value part : List Char} {parts : List (List Char)}
  {criteria before after : Criteria}

/-! ## Entries -/

theorem entry_injective {a b : Criteria} (h : ∀ key, entry a key = entry b key) : a = b := by
  obtain ⟨source, destination, protocol, sourcePort, destinationPort⟩ := a
  have hsource := h .source
  have hdestination := h .destination
  have hprotocol := h .protocol
  have hsourcePort := h .sourcePort
  have hdestinationPort := h .destinationPort
  simp only [entry, Sum.inl.injEq, Sum.inr.injEq] at *
  simp [hsource, hdestination, hprotocol, hsourcePort, hdestinationPort]

/-- Assigning a value to a key leaves the other keys as they are. -/
theorem entry_of_assign? (h : assign? before key value = some after) {other : Key}
    (hne : other ≠ key) : entry after other = entry before other := by
  cases key <;>
  · obtain ⟨_, -, rfl⟩ := Option.map_eq_some_iff.mp h
    cases other <;> first | rfl | exact absurd rfl hne

/-! ## Values -/

def denoted? : Key → List Char → Option (Option Network ⊕ Nat)
  | .source, value => (Network.parse? value).toOption.map fun network => .inl (some network)
  | .destination, value => (Network.parse? value).toOption.map fun network => .inl (some network)
  | .sourcePort, value => (Text.word? 65535 value).map .inr
  | .destinationPort, value => (Text.word? 65535 value).map .inr
  | .protocol, value => ((Text.unsignedNumeral? value).filter (· ≤ 255)).map .inr

def valueIn? (key : Key) (part : List Char) : Option (List Char) :=
  ((keyAndValue? part).filter fun pair => pair.1 = key.spelling).map Prod.snd

def lastValue? (key : Key) (parts : List (List Char)) : Option (List Char) :=
  parts.reverse.findSome? (valueIn? key)

/-- The value that a match group announces for a key: the last one that it gives. -/
def announced? (key : Key) (group : List Char) : Option (List Char) :=
  lastValue? key (splitWhere (· == ';') group)

/-- Whether criteria get what a value denotes under a key, or keep what they have for no value. -/
def Gives (key : Key) (value? : Option (List Char)) (before after : Criteria) : Prop :=
  match value? with
  | some value => denoted? key value = some (entry after key)
  | none => entry after key = entry before key

/-- A value that denotes a block is the text of one. -/
theorem exists_network_of_denoted? {block : Option Network}
    (h : denoted? key value = some (.inl block)) :
    ∃ network, block = some network ∧ Network.parse? value = .ok network := by
  have hread (h : (Network.parse? value).toOption.map (fun network => .inl (some network)) =
      some (.inl block : Option Network ⊕ Nat)) :
      ∃ network, block = some network ∧ Network.parse? value = .ok network := by
    cases hparse : Network.parse? value with
    | error e => simp [hparse, Except.toOption] at h
    | ok network =>
        rw [hparse] at h
        exact ⟨network, (Sum.inl.inj (Option.some.inj h)).symm, rfl⟩
  cases key with
  | source => exact hread h
  | destination => exact hread h
  | sourcePort => simp [denoted?] at h
  | destinationPort => simp [denoted?] at h
  | protocol => simp [denoted?] at h

theorem isSome_assign? (criteria : Criteria) (key : Key) (value : List Char) :
    (assign? criteria key value).isSome = (denoted? key value).isSome := by
  cases key <;> simp only [assign?, denoted?, Option.isSome_map]

theorem denoted?_of_assign? (h : assign? before key value = some after) :
    denoted? key value = some (entry after key) := by
  cases key <;>
  · obtain ⟨found, hfound, rfl⟩ := Option.map_eq_some_iff.mp h
    simp [denoted?, entry, hfound]

theorem assign?_eq_some_iff :
    assign? before key value = some after ↔
      denoted? key value = some (entry after key) ∧
        ∀ other, other ≠ key → entry after other = entry before other := by
  constructor
  · intro h
    exact ⟨denoted?_of_assign? h, fun other hne => entry_of_assign? h hne⟩
  · rintro ⟨hdenoted, hothers⟩
    have hassign : (assign? before key value).isSome := by
      rw [isSome_assign?, hdenoted]
      rfl
    obtain ⟨found, hfound⟩ := Option.isSome_iff_exists.mp hassign
    have hsame : found = after := by
      refine entry_injective fun other => ?_
      by_cases hkey : other = key
      · subst hkey
        rw [← Option.some.injEq, ← denoted?_of_assign? hfound, hdenoted]
      · rw [entry_of_assign? hfound hkey, hothers other hkey]
    rw [hfound, hsame]

/-! ## Parts -/

theorem valueIn?_eq_some_iff :
    valueIn? key part = some value ↔ keyAndValue? part = some (key.spelling, value) := by
  cases hpair : keyAndValue? part with
  | none => simp [valueIn?, hpair]
  | some pair => simp [valueIn?, hpair, Prod.ext_iff]

theorem valueIn?_eq_none_of_ne {other : Key} (h : valueIn? key part = some value)
    (hne : other ≠ key) : valueIn? other part = none := by
  rw [valueIn?_eq_some_iff] at h
  rw [Option.eq_none_iff_forall_ne_some]
  intro found hfound
  rw [valueIn?_eq_some_iff, h, Option.some.injEq, Prod.mk.injEq] at hfound
  have hsame := ofSpelling?_spelling key
  rw [hfound.1, ofSpelling?_spelling, Option.some.injEq] at hsame
  exact hne hsame

theorem addPart_of_silent (h : ∀ key, valueIn? key part = none) :
    addPart criteria part = .ok criteria := by
  cases hpair : keyAndValue? part with
  | none => exact addPart_of_none hpair
  | some pair =>
      refine addPart_of_unknown hpair fun key hkey => ?_
      have hvalue : valueIn? key part = some pair.2 := by
        rw [valueIn?_eq_some_iff, hpair, hkey]
      rw [h key] at hvalue
      cases hvalue

theorem addPart_of_value (h : valueIn? key part = some value) :
    addPart before part = .ok after ↔ assign? before key value = some after := by
  rw [addPart, valueIn?_eq_some_iff.mp h]
  simp only [ofSpelling?_spelling]
  cases hassign : assign? before key value <;> simp

theorem addPart_eq_ok_iff :
    addPart before part = .ok after ↔ ∀ key, Gives key (valueIn? key part) before after := by
  by_cases hsilent : ∀ key, valueIn? key part = none
  · rw [addPart_of_silent hsilent, Except.ok.injEq]
    simp only [hsilent, Gives]
    constructor
    · rintro rfl key
      rfl
    · intro h
      exact (entry_injective h).symm
  · obtain ⟨named, hnamed⟩ := Classical.not_forall.mp hsilent
    obtain ⟨value, hvalue⟩ := Option.ne_none_iff_exists'.mp hnamed
    rw [addPart_of_value hvalue, assign?_eq_some_iff]
    constructor
    · rintro ⟨hdenoted, hothers⟩ key
      by_cases hkey : key = named
      · subst hkey
        rw [hvalue]
        exact hdenoted
      · rw [valueIn?_eq_none_of_ne hvalue hkey]
        exact hothers key hkey
    · intro h
      have hgives := h named
      rw [hvalue] at hgives
      refine ⟨hgives, fun other hne => ?_⟩
      have hother := h other
      rw [valueIn?_eq_none_of_ne hvalue hne] at hother
      exact hother

theorem exists_addPart (h : ∀ key, ∀ value ∈ valueIn? key part, (denoted? key value).isSome)
    (criteria : Criteria) : ∃ found, addPart criteria part = .ok found := by
  by_cases hsilent : ∀ key, valueIn? key part = none
  · exact ⟨criteria, addPart_of_silent hsilent⟩
  · obtain ⟨key, hkey⟩ := Classical.not_forall.mp hsilent
    obtain ⟨value, hvalue⟩ := Option.ne_none_iff_exists'.mp hkey
    have hassign : (assign? criteria key value).isSome := by
      rw [isSome_assign?]
      exact h key value hvalue
    obtain ⟨found, hfound⟩ := Option.isSome_iff_exists.mp hassign
    exact ⟨found, (addPart_of_value hvalue).mpr hfound⟩

/-! ## Lists of parts -/

theorem lastValue?_cons (key : Key) (part : List Char) (parts : List (List Char)) :
    lastValue? key (part :: parts) = (lastValue? key parts).or (valueIn? key part) := by
  simp [lastValue?, List.findSome?_append]

theorem exists_part_of_lastValue? (h : lastValue? key parts = some value) :
    ∃ part ∈ parts, valueIn? key part = some value := by
  obtain ⟨part, hpart, hvalue⟩ := List.exists_of_findSome?_eq_some h
  exact ⟨part, List.mem_reverse.mp hpart, hvalue⟩

theorem exists_lastValue? (hpart : part ∈ parts) (hvalue : valueIn? key part = some value) :
    ∃ last, lastValue? key parts = some last := by
  cases hlast : lastValue? key parts with
  | some last => exact ⟨last, rfl⟩
  | none =>
      have hnone := List.findSome?_eq_none_iff.mp hlast part (List.mem_reverse.mpr hpart)
      rw [hvalue] at hnone
      cases hnone

theorem addParts_cons_eq_ok_iff :
    addParts before (part :: parts) = .ok after ↔
      ∃ between, addPart before part = .ok between ∧ addParts between parts = .ok after := by
  rw [addParts]
  cases addPart before part <;> simp

/-- A list of parts is read just if all its values denote something, by the last value of each key. -/
theorem addParts_eq_ok_iff :
    addParts before parts = .ok after ↔
      (∀ part ∈ parts, ∀ key, ∀ value ∈ valueIn? key part, (denoted? key value).isSome) ∧
        ∀ key, Gives key (lastValue? key parts) before after := by
  induction parts generalizing before with
  | nil =>
      have hopen : (∀ key, entry after key = entry before key) ↔ before = after :=
        ⟨fun h => (entry_injective h).symm, fun h _ => h ▸ rfl⟩
      simp [addParts, lastValue?, Gives, hopen]
  | cons part parts ih =>
      rw [addParts_cons_eq_ok_iff, List.forall_mem_cons]
      constructor
      · rintro ⟨between, hpart, hparts⟩
        obtain ⟨hdenoted, hlast⟩ := ih.mp hparts
        have hfirst := addPart_eq_ok_iff.mp hpart
        refine ⟨⟨fun key value hvalue => ?_, hdenoted⟩, fun key => ?_⟩
        · have hgives := hfirst key
          rw [Option.mem_def.mp hvalue] at hgives
          exact Option.isSome_iff_exists.mpr ⟨_, hgives⟩
        · have hgives := hlast key
          rw [lastValue?_cons]
          cases hrest : lastValue? key parts with
          | some value =>
              rw [hrest] at hgives
              exact hgives
          | none =>
              rw [hrest] at hgives
              have hkept : entry after key = entry between key := hgives
              have hgiven := hfirst key
              unfold Gives at hgiven ⊢
              rw [Option.none_or, hkept]
              exact hgiven
      · rintro ⟨⟨hpart, hdenoted⟩, hgives⟩
        obtain ⟨between, hbetween⟩ := exists_addPart hpart before
        refine ⟨between, hbetween, ih.mpr ⟨hdenoted, fun key => ?_⟩⟩
        have hlast := hgives key
        rw [lastValue?_cons] at hlast
        cases hrest : lastValue? key parts with
        | some value =>
            rw [hrest] at hlast
            exact hlast
        | none =>
            -- the part is the last one that may name the key, so it gives the key what `after` has
            rw [hrest, Option.none_or] at hlast
            have hfirst := addPart_eq_ok_iff.mp hbetween key
            cases hvalue : valueIn? key part with
            | some value =>
                rw [hvalue] at hlast hfirst
                exact Option.some.inj (hlast.symm.trans hfirst)
            | none =>
                rw [hvalue] at hlast hfirst
                exact hlast.trans hfirst.symm

/-- Parts whose values denote what some criteria have, and that leave no key of them out. -/
theorem addParts_of_denoted
    (hvalues : ∀ part ∈ parts, ∀ key, ∀ value ∈ valueIn? key part,
      denoted? key value = some (entry after key))
    (hopen : ∀ key, lastValue? key parts = none → entry after key = entry before key) :
    addParts before parts = .ok after := by
  refine addParts_eq_ok_iff.mpr ⟨fun part hpart key value hvalue => ?_, fun key => ?_⟩
  · rw [hvalues part hpart key value hvalue]
    rfl
  · cases hlast : lastValue? key parts with
    | none => exact hopen key hlast
    | some value =>
        obtain ⟨part, hpart, hvalue⟩ := exists_part_of_lastValue? hlast
        exact hvalues part hpart key value hvalue

/-! ## Match groups -/

theorem denoted?_of_announced? {group : List Char} (h : criteria? group = .ok criteria)
    (hvalue : announced? key group = some value) :
    denoted? key value = some (entry criteria key) := by
  have hgives := (addParts_eq_ok_iff.mp h).2 key
  rw [← announced?, hvalue] at hgives
  exact hgives

theorem entry_of_not_announced? {group : List Char} (h : criteria? group = .ok criteria)
    (hvalue : announced? key group = none) : entry criteria key = entry {} key := by
  have hgives := (addParts_eq_ok_iff.mp h).2 key
  rw [← announced?, hvalue] at hgives
  exact hgives

/-- Criteria that are read have nothing that is not the value of a key. -/
theorem open_or_denoted {group : List Char} (h : criteria? group = .ok criteria) (key : Key) :
    entry criteria key = entry {} key ∨
      ∃ value, denoted? key value = some (entry criteria key) := by
  cases hvalue : announced? key group with
  | none => exact .inl (entry_of_not_announced? h hvalue)
  | some value => exact .inr ⟨value, denoted?_of_announced? h hvalue⟩

def partsBesides (key : Key) (group : List Char) : List (List Char) :=
  (splitWhere (· == ';') group).filter fun part => (valueIn? key part).isNone

theorem lastValue?_filter_same (key : Key) (parts : List (List Char)) :
    lastValue? key (parts.filter fun part => (valueIn? key part).isNone) = none := by
  rw [lastValue?, List.findSome?_eq_none_iff]
  intro part hpart
  rw [List.mem_reverse, List.mem_filter] at hpart
  exact Option.isNone_iff_eq_none.mp hpart.2

theorem lastValue?_filter_other {other : Key} (hne : other ≠ key) (parts : List (List Char)) :
    lastValue? other (parts.filter fun part => (valueIn? key part).isNone) =
      lastValue? other parts := by
  induction parts with
  | nil => rfl
  | cons part parts ih =>
      cases hvalue : valueIn? key part with
      | none => rw [List.filter_cons_of_pos (by simp [hvalue]), lastValue?_cons, lastValue?_cons, ih]
      | some value =>
          rw [List.filter_cons_of_neg (by simp [hvalue]), ih, lastValue?_cons,
            valueIn?_eq_none_of_ne hvalue hne, Option.or_none]

/-- A key that is open in the end might as well not have been named. -/
theorem addParts_partsBesides {group : List Char} (h : criteria? group = .ok criteria)
    (hopen : entry criteria key = entry {} key) :
    addParts {} (partsBesides key group) = .ok criteria := by
  obtain ⟨hdenoted, hgives⟩ := addParts_eq_ok_iff.mp h
  refine addParts_eq_ok_iff.mpr ⟨fun part hpart => ?_, fun other => ?_⟩
  · exact hdenoted part (List.mem_filter.mp hpart).1
  · by_cases hkey : other = key
    · subst hkey
      rw [partsBesides, lastValue?_filter_same]
      exact hopen
    · rw [partsBesides, lastValue?_filter_other hkey]
      exact hgives other

end Route

end FlowFence
