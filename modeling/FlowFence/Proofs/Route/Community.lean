import FlowFence.Proofs.Text.BaseNumeral
import FlowFence.Proofs.Text.Cut
import FlowFence.Route.Written
import Mathlib.Data.Bool.AllAny

/-!
# Communities

A community is read field by field. The type code is the upper half of a word whose lower half is
written as zeros, and a word that is written without them is the type code as it stands; so a word
selects an action in two ways.
-/

namespace FlowFence

theorem Action.ofCode?_eq_some_iff {action : Action} {code : Int} :
    Action.ofCode? code = some action ↔ code = action.code := by
  constructor
  · intro h
    have hfound := List.find?_some h
    exact (of_decide_eq_true hfound).symm
  · rintro rfl
    exact Action.ofCode?_code action

theorem Action.code_inj {a b : Action} : (a.code : Int) = b.code ↔ a = b := by
  rw [← Action.ofCode?_eq_some_iff, Action.ofCode?_code, Option.some.injEq]

namespace Route

variable {action : Action} {group kind code field : List Char} {n : Int}

/-! ## Fields -/

def communityFields (group : List Char) : List (List Char) :=
  (Text.splitOn ", ".toList group).map Text.trim

def typeCode? (field : List Char) : Option Int :=
  Text.signedNumeral? ((Text.before? systemDigits field).getD field)

theorem communityFields_of_clean (hkind : ',' ∉ kind) (hcode : ',' ∉ code) (hfield : ',' ∉ field)
    (hclean : ∀ text ∈ [kind, code, field], ∀ c ∈ text, Text.isBlank c = false) :
    communityFields (kind ++ ',' :: ' ' :: code ++ ',' :: ' ' :: field) = [kind, code, field] := by
  have htext : kind ++ ',' :: ' ' :: code ++ ',' :: ' ' :: field =
      kind ++ (',' :: [' '] ++ (code ++ (',' :: [' '] ++ field))) := by simp
  have htrim : ∀ text ∈ [kind, code, field], Text.trim text = text := fun text hmem =>
    Text.trim_eq_self (hclean text hmem)
  rw [communityFields, htext, show ", ".toList = ',' :: [' '] from rfl, Text.splitOn_append hkind,
    Text.splitOn_append hcode, Text.splitOn_of_not_mem hfield]
  exact List.map_congr_left htrim |>.trans (List.map_id _)

theorem not_isBlank_of_mem_kindField : ∀ c ∈ kindField, Text.isBlank c = false :=
  List.all_iff_forall_prop.mp (by decide)

theorem community?_of_fields (h : communityFields group = [kind, code, field]) :
    community? group = actionAndArgument? code field := by
  unfold community?
  rw [← communityFields, h]

theorem actionAndArgument?_of_code (hcode : typeCode? code = some (action.code : Int)) :
    actionAndArgument? code field =
      match decodeRate? field with
      | none => .error (.community (.argument (String.ofList field)))
      | some n =>
          if action.isRate ∧ n < 0 then .error (.community (.negativeRate (String.ofList field)))
          else .ok (action, n) := by
  unfold actionAndArgument?
  rw [← typeCode?, hcode]
  cases decodeRate? field with
  | none => simp only [Action.ofCode?_code]
  | some n => simp only [Action.ofCode?_code]

/-- What is wrong with a community of a known type code is its argument. -/
theorem exists_fault_of_code (hcode : typeCode? code = some (action.code : Int))
    (h : ∀ n, actionAndArgument? code field ≠ .ok (action, n)) :
    ∃ fault, actionAndArgument? code field = .error (.community fault) := by
  rw [actionAndArgument?_of_code hcode]
  cases hargument : decodeRate? field with
  | none => exact ⟨_, rfl⟩
  | some n =>
      by_cases hsign : action.isRate ∧ n < 0
      · exact ⟨_, if_pos hsign⟩
      · refine (h n ?_).elim
        rw [actionAndArgument?_of_code hcode, hargument]
        exact if_neg hsign

theorem actionAndArgument?_of_unknown {found : Int} (hcode : typeCode? code = some found)
    (h : ∀ action : Action, found ≠ action.code) :
    actionAndArgument? code field = .error (.action found) := by
  have hnone : Action.ofCode? found = none := by
    cases haction : Action.ofCode? found with
    | none => rfl
    | some action => exact (h action (Action.ofCode?_eq_some_iff.mp haction)).elim
  unfold actionAndArgument?
  rw [← typeCode?, hcode]
  dsimp only
  rw [hnone]

theorem typeCode?_of_actionAndArgument? (h : actionAndArgument? code field = .ok (action, n)) :
    typeCode? code = some (action.code : Int) := by
  unfold actionAndArgument? at h
  rw [← typeCode?] at h
  split at h
  · cases h
  · rename_i found hcode
    split at h
    · cases h
    · rename_i known haction
      have hknown : known = action := by
        split at h
        · cases h
        · split at h
          · cases h
          · cases h
            rfl
      rw [hcode, Action.ofCode?_eq_some_iff.mp haction, hknown]

theorem actionAndArgument?_eq_ok_iff :
    actionAndArgument? code field = .ok (action, n) ↔
      typeCode? code = some (action.code : Int) ∧ decodeRate? field = some n ∧
        (action.isRate = true → 0 ≤ n) := by
  constructor
  · intro h
    have hcode := typeCode?_of_actionAndArgument? h
    rw [actionAndArgument?_of_code hcode] at h
    refine ⟨hcode, ?_⟩
    cases hargument : decodeRate? field with
    | none =>
        rw [hargument] at h
        cases h
    | some argument =>
        rw [hargument] at h
        dsimp only at h
        split at h
        · cases h
        · rename_i hsign
          cases h
          exact ⟨rfl, fun hrate => Int.not_lt.mp fun hnegative => hsign ⟨hrate, hnegative⟩⟩
  · rintro ⟨hcode, hargument, hnonneg⟩
    have hsign : ¬ (action.isRate = true ∧ n < 0) := fun h =>
      absurd (hnonneg h.1) (Int.not_le.mpr h.2)
    rw [actionAndArgument?_of_code hcode, hargument]
    exact if_neg hsign

/-! ## Words -/

def wordField (word : Nat) : List Char :=
  '0' :: 'x' :: Text.hexadecimal word

/-- The type code of a word: the upper half if the lower one is zero, and else all of it. -/
def typeCodeOf (word : Nat) : Nat :=
  if word % 65536 = 0 then word / 65536 else word

/-- A word whose digits end with those of a zero lower half has a lower half of zero. -/
theorem mod_eq_zero_of_before? {word : Nat} {front : List Char}
    (h : Text.before? systemDigits (wordField word) = some front) : word % 65536 = 0 := by
  rw [Text.before?_eq_some_iff] at h
  match front, h with
  | [], h => cases h
  | [_], h => cases h
  | _ :: _ :: digits, h =>
      have hdigits : Text.hexadecimal word = digits ++ List.replicate 4 '0' :=
        congrArg (List.drop 2) h
      have hread : Text.readDigits 16 0 (Text.hexadecimal word) = some word :=
        Text.readDigits_toDigits (by decide) (by decide) word
      rw [hdigits, Text.readDigits_append] at hread
      obtain ⟨upper, -, hupper⟩ := Option.bind_eq_some_iff.mp hread
      rw [Text.readDigits_zeros (by decide), Option.some.injEq] at hupper
      omega

theorem typeCode?_wordField {word : Nat} (h : word < 2 ^ 63) :
    typeCode? (wordField word) = some (typeCodeOf word : Int) := by
  have hplain {part : Nat} (hpart : part < 2 ^ 63) :
      Text.signedNumeral? (wordField part) = some (part : Int) :=
    Text.signedNumeral?_hexadecimal hpart
  unfold typeCode? typeCodeOf
  by_cases hlower : word % 65536 = 0
  · rw [if_pos hlower]
    by_cases hzero : word = 0
    · subst hzero
      decide
    · have hword : word / 65536 * 16 ^ 4 = word := by omega
      have hdigits : Text.hexadecimal (word / 65536 * 16 ^ 4) =
          Text.hexadecimal (word / 65536) ++ systemDigits :=
        Text.toDigits_mul_pow (by decide) (by omega) 4
      have hfield : wordField word = wordField (word / 65536) ++ systemDigits := by
        rw [hword] at hdigits
        rw [wordField, hdigits]
        rfl
      rw [hfield, Text.before?_append, Option.getD_some, hplain (by omega)]
  · have hnone : Text.before? systemDigits (wordField word) = none := by
      cases hbefore : Text.before? systemDigits (wordField word) with
      | none => rfl
      | some front => exact (hlower (mod_eq_zero_of_before? hbefore)).elim
    rw [if_neg hlower, hnone, Option.getD_none, hplain h]

theorem typeCodeOf_eq_code_iff {word : Nat} :
    (typeCodeOf word : Int) = action.code ↔ word = action.code * 65536 ∨ word = action.code := by
  have hcode : 0 < action.code ∧ action.code < 65536 := by
    cases action <;> decide
  unfold typeCodeOf
  split <;> omega

/-! ## Arguments -/

/-- Whether a text is a number in hexadecimal digits, with the mark of the base in front or not. -/
def IsHexadecimal (n : Nat) (text : List Char) : Prop :=
  ∃ mark ∈ [[], ['0', 'x'], ['0', 'X']], ∃ digits,
    text = mark ++ digits ∧ Text.numeral? 16 digits = some n

theorem isHexadecimal_wordField (word : Nat) : IsHexadecimal word (wordField word) :=
  ⟨['0', 'x'], by simp, Text.hexadecimal word, rfl, Text.numeral?_hexadecimal word⟩

theorem not_isBlank_of_isHexadecimal {bits : Nat} (h : IsHexadecimal bits field) :
    ∀ c ∈ field, Text.isBlank c = false := by
  obtain ⟨mark, hmark, digits, rfl, hdigits⟩ := h
  intro c hc
  rcases List.mem_append.mp hc with hc | hc
  · have hmarks : ∀ text ∈ [[], ['0', 'x'], ['0', 'X']], text.all (Text.isBlank · = false) := by
      decide
    exact List.all_iff_forall_prop.mp (hmarks mark hmark) c hc
  · exact Text.not_isBlank_of_mem_numeral hdigits hc

theorem decodeRate?_of_isHexadecimal {bits : Nat} (hbits : bits < 2 ^ 32)
    (h : IsHexadecimal bits field) : decodeRate? field = Binary32.truncate? bits := by
  have hplain := not_isBlank_of_isHexadecimal h
  obtain ⟨mark, hmark, digits, rfl, hdigits⟩ := h
  have hread : ((Text.numeral? 16 digits).filter (· < 2 ^ 32)).bind Binary32.truncate? =
      Binary32.truncate? bits := by
    rw [hdigits, Option.filter_some, if_pos (decide_eq_true hbits), Option.bind_some]
  rw [decodeRate?, Text.trim_eq_self hplain]
  simp only [List.mem_cons, List.not_mem_nil, or_false] at hmark
  rcases hmark with rfl | rfl | rfl
  · -- digits without a mark are not taken for a marked text, as the mark is no digit
    have hnot (c : Char) (hc : Text.digitIn? 16 c = none) : c ∉ digits := by
      intro hmem
      rw [Text.numeral?_eq_none hc hmem] at hdigits
      cases hdigits
    rw [List.nil_append]
    split
    · exact (hnot 'x' (by decide) (by simp)).elim
    · exact (hnot 'X' (by decide) (by simp)).elim
    · exact hread
  · exact hread
  · exact hread

/-! ## Pairs of words -/

def wordsText (high low : Nat) : List Char :=
  kindField ++ ',' :: ' ' :: wordField high ++ ',' :: ' ' :: wordField low

theorem communityFields_wordsText (high low : Nat) :
    communityFields (wordsText high low) = [kindField, wordField high, wordField low] := by
  have hdigits {c : Char} (hc : Text.digitValue? c = none) (word : Nat) :
      c ∉ Text.hexadecimal word :=
    Text.not_mem_toDigits (by decide) (by decide) hc word
  have hcomma (word : Nat) : ',' ∉ wordField word := by
    simp [wordField, hdigits (show Text.digitValue? ',' = none by decide)]
  have hplain (word : Nat) : ∀ c ∈ wordField word, Text.isBlank c = false := by
    intro c hc
    simp only [wordField, List.mem_cons] at hc
    rcases hc with rfl | rfl | hc
    · decide
    · decide
    · exact Text.not_isBlank_of_mem_toDigits (by decide) (by decide) hc
  refine communityFields_of_clean (by decide) (hcomma high) (hcomma low) ?_
  simp only [List.forall_mem_cons, List.not_mem_nil, false_imp_iff, implies_true, and_true]
  exact ⟨not_isBlank_of_mem_kindField, hplain high, hplain low⟩

/--
A community of two words is of an action just if the first word is the type code of the action with
zeros behind it, or that code alone, and the second word is the pattern of an argument for it. Any
other first word is the fault, whatever the second one is.
-/
theorem word_selects_action_iff {high low : Nat} (hhigh : high < 2 ^ 32) (hlow : low < 2 ^ 32) :
    (∀ (action : Action) (n : Int), community? (wordsText high low) = .ok (action, n) ↔
      (high = action.code * 65536 ∨ high = action.code) ∧
        Binary32.truncate? low = some n ∧ (action.isRate = true → 0 ≤ n)) ∧
    ((∀ action : Action, high ≠ action.code * 65536 ∧ high ≠ action.code) →
      community? (wordsText high low) = .error (.action (typeCodeOf high))) := by
  have hcode : typeCode? (wordField high) = some (typeCodeOf high : Int) :=
    typeCode?_wordField (by omega)
  rw [community?_of_fields (communityFields_wordsText high low)]
  constructor
  · intro action n
    rw [actionAndArgument?_eq_ok_iff, hcode, Option.some.injEq, typeCodeOf_eq_code_iff,
      decodeRate?_of_isHexadecimal hlow (isHexadecimal_wordField low)]
  · intro hother
    refine actionAndArgument?_of_unknown hcode fun action => ?_
    rw [Ne, typeCodeOf_eq_code_iff, not_or]
    exact hother action

theorem packetRateWords_select :
    wordsText 0x800c0000 0x3f800000 = "generic, 0x800c0000, 0x3f800000".toList ∧
      community? (wordsText 0x800c0000 0x3f800000) = .ok (.ratePackets, 1) ∧
      community? (wordsText 0x80100000 0x3f800000) = .error (.action 0x8010) := by
  obtain ⟨hselects, -⟩ := @word_selects_action_iff 0x800c0000 0x3f800000 (by decide) (by decide)
  obtain ⟨-, hunknown⟩ := @word_selects_action_iff 0x80100000 0x3f800000 (by decide) (by decide)
  refine ⟨by decide, (hselects _ _).mpr ⟨.inl rfl, by decide, by decide⟩, hunknown ?_⟩
  rintro (_ | _ | _ | _ | _) <;> decide

/-- A word that is the type code of an action, and so has no type code in its upper half, selects it. -/
theorem bare_code_selects_action :
    ¬ ∀ (high low : Nat) (action : Action) (n : Int), high < 2 ^ 32 → low < 2 ^ 32 →
      Binary32.truncate? low = some n → (action.isRate = true → 0 ≤ n) →
        (community? (wordsText high low) = .ok (action, n) ↔ high = action.code * 65536) := by
  intro hall
  have hselects := hall 0x8006 0 .rateBytes 0 (by decide) (by decide) (by decide) (by decide)
  exact absurd (hselects.mp (by decide +kernel)) (by decide)

end Route

end FlowFence
