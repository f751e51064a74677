import FlowFence.Proofs.Json.Grammar
import FlowFence.Proofs.Json.Members

/-!
# The meaning of JSON

Which value a written value denotes, said without the reader: code units are paired to characters,
lists and objects take one level of depth each, and an object is the table of its members.
-/

namespace FlowFence

namespace Json

variable {depth : Nat} {value : Json} {written : Written}

/-! ## Texts -/

/--
Whether units spell a text: a code unit is the character of that number, but a high surrogate needs
a low one behind it and is one character with it.
-/
inductive Spells : List TextUnit → List Char → Prop where
  | nil : Spells [] []
  | char {units : List TextUnit} {text : List Char} (c : Char) (others : Spells units text) :
      Spells (.char c :: units) (c :: text)
  | code {units : List TextUnit} {text : List Char} {unit : Nat}
      (scalar : unit < 0xD800 ∨ 0xE000 ≤ unit) (others : Spells units text) :
      Spells (.code unit :: units) (Char.ofNat unit :: text)
  | pair {units : List TextUnit} {text : List Char} {high low : Nat}
      (first : 0xD800 ≤ high ∧ high < 0xDC00) (second : 0xDC00 ≤ low ∧ low < 0xE000)
      (others : Spells units text) :
      Spells (.code high :: .code low :: units)
        (Char.ofNat (0x10000 + (high - 0xD800) * 0x400 + (low - 0xDC00)) :: text)

theorem textOfUnits?_code {unit : Nat} (h : unit < 0xD800 ∨ 0xE000 ≤ unit)
    (rest : List TextUnit) :
    textOfUnits? (.code unit :: rest) = (textOfUnits? rest).map (Char.ofNat unit :: ·) := by
  have hsurrogate : ¬(0xD800 ≤ unit ∧ unit < 0xE000) := by omega
  have hhigh : ¬(0xD800 ≤ unit ∧ unit < 0xDC00) := by omega
  have hlow : ¬(0xDC00 ≤ unit ∧ unit < 0xE000) := by omega
  rcases rest with - | ⟨c | low, rest⟩
  · simp [textOfUnits?, hsurrogate]
  · simp [textOfUnits?, hsurrogate]
  · rw [textOfUnits?, if_neg hhigh, if_neg hlow]

theorem textOfUnits?_eq_some_iff {units : List TextUnit} {text : List Char} :
    textOfUnits? units = some text ↔ Spells units text := by
  constructor
  · intro h
    fun_induction textOfUnits? units generalizing text with
    | case1 =>
        cases h
        exact .nil
    | case2 c rest ih =>
        obtain ⟨others, hothers, rfl⟩ := Option.map_eq_some_iff.mp h
        exact .char c (ih hothers)
    | case3 high low rest hhigh hlow scalar =>
        rename_i ih
        obtain ⟨others, hothers, rfl⟩ := Option.map_eq_some_iff.mp h
        exact .pair hhigh hlow (ih hothers)
    | case4 => cases h
    | case5 => cases h
    | case6 high low rest hhigh hlow ih =>
        obtain ⟨others, hothers, rfl⟩ := Option.map_eq_some_iff.mp h
        exact .code (by omega) (ih hothers)
    | case7 => cases h
    | case8 unit rest _ hscalar ih =>
        obtain ⟨others, hothers, rfl⟩ := Option.map_eq_some_iff.mp h
        exact .code (by omega) (ih hothers)
  · intro h
    induction h with
    | nil => rfl
    | char c others ih => rw [textOfUnits?, ih, Option.map_some]
    | code scalar others ih => rw [textOfUnits?_code scalar, ih, Option.map_some]
    | pair first second others ih =>
        rw [textOfUnits?, if_pos first, if_pos second, ih, Option.map_some]

/-! ## Values -/

mutual

/-- Whether a written value denotes a value, with that many levels left for lists and objects. -/
inductive Denotes : Nat → Written → Json → Prop where
  | null {depth : Nat} : Denotes depth .null .null
  | boolean {depth : Nat} (value : Bool) : Denotes depth (.boolean value) (.boolean value)
  | number {depth : Nat} {negative : Bool} {whole fraction : List Char} {exponent : Option ℤ}
      {value : Json} (finite : valueOfNumber? negative whole fraction exponent = some value) :
      Denotes depth (.number negative whole fraction exponent) value
  | text {depth : Nat} {units : List TextUnit} {text : List Char} (spelled : Spells units text) :
      Denotes depth (.text units) (.text (String.ofList text))
  | list {depth : Nat} {items : List Written} {values : List Json}
      (each : DenotesItems depth items values) : Denotes (depth + 1) (.list items) (.list values)
  | object {depth : Nat} {members : List (List TextUnit × Written)}
      {values table : List (String × Json)} (each : DenotesMembers depth members values)
      (kept : IsTableOf values table) : Denotes (depth + 1) (.object members) (.object table)

inductive DenotesItems : Nat → List Written → List Json → Prop where
  | nil {depth : Nat} : DenotesItems depth [] []
  | cons {depth : Nat} {item : Written} {value : Json} {items : List Written} {values : List Json}
      (first : Denotes depth item value) (others : DenotesItems depth items values) :
      DenotesItems depth (item :: items) (value :: values)

inductive DenotesMembers : Nat → List (List TextUnit × Written) → List (String × Json) → Prop where
  | nil {depth : Nat} : DenotesMembers depth [] []
  | cons {depth : Nat} {key : List TextUnit} {name : List Char} {item : Written} {value : Json}
      {members : List (List TextUnit × Written)} {values : List (String × Json)}
      (named : Spells key name) (first : Denotes depth item value)
      (others : DenotesMembers depth members values) :
      DenotesMembers depth ((key, item) :: members) ((String.ofList name, value) :: values)

end

theorem itemsOfWritten?_eq_some_iff
    (h : ∀ item value, ofWritten? depth item = some value ↔ Denotes depth item value)
    {items : List Written} {values : List Json} :
    itemsOfWritten? depth items = some values ↔ DenotesItems depth items values := by
  induction items generalizing values with
  | nil =>
      rw [itemsOfWritten?, Option.some_inj]
      refine ⟨fun heq => heq ▸ .nil, fun heach => ?_⟩
      cases heach
      rfl
  | cons item items ih =>
      rw [itemsOfWritten?]
      constructor
      · intro hread
        split at hread
        · rename_i hvalue hvalues
          cases hread
          exact .cons ((h _ _).mp hvalue) (ih.mp hvalues)
        · cases hread
      · intro heach
        cases heach with
        | cons first others => rw [(h _ _).mpr first, ih.mpr others]

theorem membersOfWritten?_eq_some_iff
    (h : ∀ item value, ofWritten? depth item = some value ↔ Denotes depth item value)
    {members : List (List TextUnit × Written)} {values : List (String × Json)} :
    membersOfWritten? depth members = some values ↔ DenotesMembers depth members values := by
  induction members generalizing values with
  | nil =>
      rw [membersOfWritten?, Option.some_inj]
      refine ⟨fun heq => heq ▸ .nil, fun heach => ?_⟩
      cases heach
      rfl
  | cons member members ih =>
      obtain ⟨key, item⟩ := member
      rw [membersOfWritten?]
      constructor
      · intro hread
        split at hread
        · rename_i hname hvalue hvalues
          cases hread
          exact .cons (textOfUnits?_eq_some_iff.mp hname) ((h _ _).mp hvalue) (ih.mp hvalues)
        · cases hread
      · intro heach
        cases heach with
        | cons named first others =>
            rw [textOfUnits?_eq_some_iff.mpr named, (h _ _).mpr first, ih.mpr others]

/-- A value is read as what it denotes if that holds with one level less. -/
theorem ofWritten?_eq_some_iff_of_lower
    (h : ∀ lower, depth = lower + 1 →
      ∀ item value, ofWritten? lower item = some value ↔ Denotes lower item value) :
    ofWritten? depth written = some value ↔ Denotes depth written value := by
  constructor
  · intro hread
    cases written with
    | null =>
        cases hread
        exact .null
    | boolean =>
        cases hread
        exact .boolean _
    | number => exact .number hread
    | text units =>
        obtain ⟨text, htext, rfl⟩ := Option.map_eq_some_iff.mp hread
        exact .text (textOfUnits?_eq_some_iff.mp htext)
    | list items =>
        cases depth with
        | zero => cases hread
        | succ lower =>
            obtain ⟨values, hvalues, rfl⟩ := Option.map_eq_some_iff.mp hread
            exact .list ((itemsOfWritten?_eq_some_iff (h lower rfl)).mp hvalues)
    | object members =>
        cases depth with
        | zero => cases hread
        | succ lower =>
            obtain ⟨values, hvalues, rfl⟩ := Option.map_eq_some_iff.mp hread
            exact .object ((membersOfWritten?_eq_some_iff (h lower rfl)).mp hvalues)
              (isTableOf_orderMembers values)
  · intro hdenotes
    cases hdenotes with
    | null => rfl
    | boolean => rfl
    | number finite => exact finite
    | text spelled => rw [ofWritten?, textOfUnits?_eq_some_iff.mpr spelled, Option.map_some]
    | @list lower items values each =>
        have hread := (itemsOfWritten?_eq_some_iff (h lower rfl)).mpr each
        rw [ofWritten?, if_neg lower.succ_ne_zero, Nat.add_sub_cancel, hread, Option.map_some]
    | @object lower members values table each kept =>
        have hread := (membersOfWritten?_eq_some_iff (h lower rfl)).mpr each
        rw [ofWritten?, if_neg lower.succ_ne_zero, Nat.add_sub_cancel, hread, Option.map_some,
          orderMembers_eq_iff.mpr kept]

/-- A written value is read as the one value that it denotes. -/
theorem ofWritten?_eq_some_iff :
    ofWritten? depth written = some value ↔ Denotes depth written value := by
  induction depth generalizing written value with
  | zero => exact ofWritten?_eq_some_iff_of_lower fun lower hlower => by cases hlower
  | succ depth ih =>
      -- Only lists and objects read on, and they do so one level below.
      refine ofWritten?_eq_some_iff_of_lower fun lower hlower item value => ?_
      cases hlower
      exact ih

/-! ## Denoted values -/

def IsDenoted (value : Json) : Prop :=
  ∃ depth written, Denotes depth written value

theorem integer_or_decimal_of_valueOfNumber? {negative : Bool} {whole fraction : List Char}
    {exponent : Option ℤ} (h : valueOfNumber? negative whole fraction exponent = some value) :
    (∃ n, value = .integer n) ∨ ∃ literal, value = .decimal literal := by
  unfold valueOfNumber? at h
  dsimp only at h
  split_ifs at h
  · exact .inl ⟨_, (Option.some.inj h).symm⟩
  · exact .inl ⟨_, (Option.some.inj h).symm⟩
  · exact .inr ⟨_, (Option.some.inj h).symm⟩

theorem exists_items_of_denotes {values : List Json} (h : Denotes depth written (.list values)) :
    ∃ lower items, depth = lower + 1 ∧ written = .list items ∧ DenotesItems lower items values := by
  cases h with
  | list each => exact ⟨_, _, rfl, rfl, each⟩
  | number finite =>
      rcases integer_or_decimal_of_valueOfNumber? finite with ⟨_, heq⟩ | ⟨_, heq⟩
      all_goals cases heq

theorem exists_members_of_denotes {table : List (String × Json)}
    (h : Denotes depth written (.object table)) :
    ∃ lower members values, DenotesMembers lower members values ∧ IsTableOf values table := by
  cases h with
  | object each kept => exact ⟨_, _, _, each, kept⟩
  | number finite =>
      rcases integer_or_decimal_of_valueOfNumber? finite with ⟨_, heq⟩ | ⟨_, heq⟩
      all_goals cases heq

theorem exists_denotes_of_mem_values {items : List Written} {values : List Json}
    (h : DenotesItems depth items values) (hmem : value ∈ values) :
    ∃ item, Denotes depth item value := by
  induction items generalizing values with
  | nil =>
      cases h
      cases hmem
  | cons item items ih =>
      cases h with
      | cons first others =>
          rcases List.mem_cons.mp hmem with rfl | hmem
          · exact ⟨item, first⟩
          · exact ih others hmem

theorem denotesItems_append {items others : List Written} {values more : List Json}
    (h : DenotesItems depth items values) (hothers : DenotesItems depth others more) :
    DenotesItems depth (items ++ others) (values ++ more) := by
  induction items generalizing values with
  | nil =>
      cases h
      exact hothers
  | cons item items ih =>
      cases h with
      | cons first rest => exact .cons first (ih rest)

theorem isDenoted_of_mem_members {members : List (List TextUnit × Written)}
    {values : List (String × Json)} (h : DenotesMembers depth members values)
    {member : String × Json} (hmem : member ∈ values) : IsDenoted member.2 := by
  induction members generalizing values with
  | nil =>
      cases h
      cases hmem
  | cons _ members ih =>
      cases h with
      | cons named first others =>
          rcases List.mem_cons.mp hmem with rfl | hmem
          · exact ⟨depth, _, first⟩
          · exact ih others hmem

theorem IsDenoted.item {values : List Json} (h : IsDenoted (.list values))
    (hmem : value ∈ values) : IsDenoted value := by
  obtain ⟨_, _, hdenotes⟩ := h
  obtain ⟨_, _, -, -, each⟩ := exists_items_of_denotes hdenotes
  obtain ⟨item, hitem⟩ := exists_denotes_of_mem_values each hmem
  exact ⟨_, item, hitem⟩

theorem IsDenoted.ordered {table : List (String × Json)} (h : IsDenoted (.object table)) :
    table.Pairwise KeyBefore := by
  obtain ⟨_, _, hdenotes⟩ := h
  obtain ⟨_, _, _, -, kept⟩ := exists_members_of_denotes hdenotes
  exact kept.ordered

theorem IsDenoted.member {table : List (String × Json)} (h : IsDenoted (.object table))
    {member : String × Json} (hmem : member ∈ table) : IsDenoted member.2 := by
  obtain ⟨_, _, hdenotes⟩ := h
  obtain ⟨_, _, _, each, kept⟩ := exists_members_of_denotes hdenotes
  have hlast := List.mem_of_getLast? ((kept.last member).mp hmem)
  exact isDenoted_of_mem_members each (List.mem_of_mem_filter hlast)

end Json

end FlowFence
