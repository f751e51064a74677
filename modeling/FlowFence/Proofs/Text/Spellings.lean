import FlowFence.Proofs.Text.Bases
import FlowFence.Proofs.Text.Words

/-!
# Spellings of numerals

A word of 64 bits is read from each of its spellings in four bases, with or without capitals, zeros
in front of the digits and blanks around the numeral. A signed numeral has one sign at most, which
stands in front of these blanks, and a magnitude that is a signed word itself.
-/

namespace FlowFence

namespace Text

variable {text : List Char} {c : Char} {n : Nat} {k : ℤ}

/--
Whether a text stands for an integer: a numeral of magnitude below `2 ^ 63` that names its base,
with blanks around it or not, and one sign in front of all that at most.
-/
inductive IsSigned : List Char → ℤ → Prop where
  | plain {text : List Char} {n : Nat} (value : IsBased (trim text) n) (small : n < 2 ^ 63) :
      IsSigned text n
  | plus {text : List Char} {n : Nat} (value : IsBased (trim text) n) (small : n < 2 ^ 63) :
      IsSigned ('+' :: text) n
  | minus {text : List Char} {n : Nat} (value : IsBased (trim text) n) (small : n < 2 ^ 63) :
      IsSigned ('-' :: text) (-n)

/--
The spellings of a number without capitals: its digits, with zeros in front of them up to a width,
behind the mark of their base or in octal behind a zero, and its plain decimal digits.
-/
def spellings (width n : Nat) : List (List Char) := [
  '0' :: 'x' :: padded width (Nat.toDigits 16 n),
  '0' :: 'b' :: padded width (Nat.toDigits 2 n),
  '0' :: 'o' :: padded width (Nat.toDigits 8 n),
  '0' :: padded width (Nat.toDigits 8 n),
  decimal n
]

/-! ## Capitals -/

/-- Only capitals change, and they are among the first characters. -/
theorem apply_toLower {α : Type} (f : Char → α)
    (h : ∀ code < 128, f (Char.ofNat code).toLower = f (Char.ofNat code)) (c : Char) :
    f c.toLower = f c := by
  by_cases hsmall : c.toNat < 128
  · have hcode := h c.toNat hsmall
    rwa [Char.ofNat_toNat] at hcode
  · have hlarge : ¬(c.val ≥ 'A'.val ∧ c.val ≤ 'Z'.val) := by
      rintro ⟨-, hle⟩
      have hbound : c.toNat ≤ 90 := hle
      omega
    have hsame : c.toLower = c := dif_neg hlarge
    rw [hsame]

theorem numeral?_map_toLower (base : Nat) (text : List Char) :
    numeral? base (text.map Char.toLower) = numeral? base text := by
  have hdigit (c : Char) : digitValue? c.toLower = digitValue? c :=
    apply_toLower digitValue? (by decide +kernel) c
  have hread (value : Nat) :
      readDigits base value (text.map Char.toLower) = readDigits base value text := by
    induction text generalizing value with
    | nil => rfl
    | cons c text ih => simp only [List.map_cons, readDigits, digitIn?, hdigit, ih]
  simp only [numeral?, List.isEmpty_map, hread]

theorem baseAndDigits_map_toLower (text : List Char) :
    baseAndDigits (text.map Char.toLower) =
      ((baseAndDigits text).1, (baseAndDigits text).2.map Char.toLower) := by
  have hzero (c : Char) : c.toLower = '0' ↔ c = '0' :=
    decide_eq_decide.mp (apply_toLower (fun c => decide (c = '0')) (by decide +kernel) c)
  have hmark (small capital : Char) (h : ∀ code < 128,
      decide ((Char.ofNat code).toLower = small ∨ (Char.ofNat code).toLower = capital) =
        decide (Char.ofNat code = small ∨ Char.ofNat code = capital)) (mark : Char) :
      (mark.toLower = small ∨ mark.toLower = capital) ↔ (mark = small ∨ mark = capital) :=
    decide_eq_decide.mp (apply_toLower (fun c => decide (c = small ∨ c = capital)) h mark)
  have hsingle (d : Char) : baseAndDigits [d] = (10, [d]) :=
    baseAndDigits_of_lead (by simpa using Classical.em (d = '0'))
  rcases text with _ | ⟨c, _ | ⟨mark, rest⟩⟩
  · rfl
  · rw [List.map_singleton, hsingle, hsingle, List.map_singleton]
  · by_cases hc : c = '0'
    · subst hc
      have hlower : Char.toLower '0' = '0' := by decide
      simp only [List.map_cons, hlower, baseAndDigits, hmark 'x' 'X' (by decide +kernel),
        hmark 'b' 'B' (by decide +kernel), hmark 'o' 'O' (by decide +kernel)]
      split <;> try split <;> try split
      all_goals rfl
    · have hplain : baseAndDigits (c :: mark :: rest) = (10, c :: mark :: rest) :=
        baseAndDigits_of_lead (by simp [hc])
      rw [hplain, baseAndDigits_of_lead (by simp [hzero, hc])]

/-- A numeral has the same value in small letters. -/
theorem isBased_map_toLower : IsBased (text.map Char.toLower) n ↔ IsBased text n := by
  have hbase := baseAndDigits_le text
  rw [isBased_iff, isBased_iff, baseAndDigits_map_toLower, ← numeral?_eq_some_iff hbase,
    ← numeral?_eq_some_iff hbase, numeral?_map_toLower]

/-! ## Characters -/

theorem not_isBlank_of_isNumeral {base : Nat} (hbase : base ≤ 16) (h : IsNumeral base text n) :
    ∀ c ∈ text, isBlank c = false :=
  fun _ hc => not_isBlank_of_mem_numeral ((numeral?_eq_some_iff hbase).mpr h) hc

/-- No blank is part of a numeral. -/
theorem not_isBlank_of_isBased (h : IsBased text n) : ∀ c ∈ text, isBlank c = false := by
  have hzero : isBlank '0' = false := by decide
  cases h with
  | marked named value =>
      have hmarks : ∀ named ∈ baseMarks, isBlank named.1 = false ∧ named.2 ≤ 16 := by decide
      obtain ⟨hmark, hbase⟩ := hmarks _ named
      exact List.forall_mem_cons.mpr ⟨hzero,
        List.forall_mem_cons.mpr ⟨hmark, not_isBlank_of_isNumeral hbase value⟩⟩
  | octal value =>
      exact List.forall_mem_cons.mpr ⟨hzero, not_isBlank_of_isNumeral (by decide) value⟩
  | decimal lead value => exact not_isBlank_of_isNumeral (by decide) value

/-- A numeral begins with a decimal digit, so it has no sign. -/
theorem exists_digit_of_isBased (h : IsBased (c :: text) n) :
    ∃ digit < 10, c = Nat.digitChar digit := by
  cases h with
  | marked named value => exact ⟨0, by decide, rfl⟩
  | octal value => exact ⟨0, by decide, rfl⟩
  | decimal lead value =>
      obtain ⟨-, digits, hdigits, -⟩ := value
      obtain ⟨digit, rest, hdigit, -, -⟩ := List.forall₂_cons_left_iff.mp hdigits
      exact ⟨digit, isDigitOf_ten_iff.mp hdigit⟩

/-! ## Words -/

theorem isBased_of_mem_spellings {width : Nat} (h : text ∈ spellings width n) : IsBased text n := by
  have hnumeral {base : Nat} (hbase : 1 < base) (hle : base ≤ 16) :
      IsNumeral base (padded width (Nat.toDigits base n)) n :=
    (numeral?_eq_some_iff hle).mp (numeral?_padded hbase hle width n)
  simp only [spellings, List.mem_cons, List.not_mem_nil, or_false] at h
  rcases h with rfl | rfl | rfl | rfl | rfl
  · exact .marked (by decide) (hnumeral (by decide) (by decide))
  · exact .marked (by decide) (hnumeral (by decide) (by decide))
  · exact .marked (by decide) (hnumeral (by decide) (by decide))
  · exact .octal (hnumeral (by decide) (by decide))
  · refine .decimal ?_ ((numeral?_eq_some_iff (by decide)).mp (numeral?_decimal n))
    rcases Nat.eq_zero_or_pos n with rfl | hpos
    · exact .inl rfl
    · exact .inr (head?_toDigits_ne_zero (by decide) (by decide) hpos)

theorem unsignedNumeral?_of_isBased (h : IsBased text n) (hn : n < 2 ^ 64) {front back : List Char}
    (hfront : ∀ d ∈ front, isBlank d = true) (hback : ∀ d ∈ back, isBlank d = true) :
    unsignedNumeral? (front ++ text ++ back) = some n := by
  have hne : text ≠ [] := by
    rintro rfl
    cases h with
    | decimal lead value => exact value.1 rfl
  have htrim := trim_append_append hfront (not_isBlank_of_isBased h) hne hback
  exact unsignedNumeral?_eq_some_iff.mpr ⟨by rwa [htrim], hn⟩

/-! ## Signs -/

theorem exists_trim_cons (hc : isBlank c = false) (text : List Char) :
    ∃ rest, trim (c :: text) = c :: rest := by
  obtain ⟨front, back, htext, hfront, hback⟩ := exists_eq_append_trim (c :: text)
  cases front with
  | cons d front =>
      rw [List.cons_append, List.cons_append] at htext
      have hd := hfront d List.mem_cons_self
      rw [← (List.cons.inj htext).1, hc] at hd
      cases hd
  | nil =>
      cases htrim : trim (c :: text) with
      | nil =>
          rw [htrim, List.nil_append, List.nil_append] at htext
          have hblank := hback c (htext ▸ List.mem_cons_self)
          rw [hc] at hblank
          cases hblank
      | cons d rest =>
          rw [htrim, List.nil_append, List.cons_append] at htext
          exact ⟨rest, by rw [(List.cons.inj htext).1]⟩

/-- Nothing is read behind two signs, nor where blanks stand in front of a sign. -/
theorem not_isBased_trim_sign (hsign : c = '-' ∨ c = '+') (text : List Char) (n : Nat) :
    ¬ IsBased (trim (c :: text)) n := by
  intro h
  have hblank : isBlank c = false := by rcases hsign with rfl | rfl <;> decide
  have hdigits : ∀ digit < 10, Nat.digitChar digit ≠ '-' ∧ Nat.digitChar digit ≠ '+' := by decide
  obtain ⟨rest, htrim⟩ := exists_trim_cons hblank text
  rw [htrim] at h
  obtain ⟨digit, hdigit, rfl⟩ := exists_digit_of_isBased h
  rcases hsign with hsign | hsign
  · exact (hdigits digit hdigit).1 hsign
  · exact (hdigits digit hdigit).2 hsign

theorem signedNumeral?_of_takeSign {negative : Bool} {digits : List Char}
    (h : takeSign text = (negative, digits)) :
    signedNumeral? text = some k ↔ ∃ n : Nat, IsBased (trim digits) n ∧ n < 2 ^ 63 ∧
      k = if negative then -(n : ℤ) else n := by
  have hread (n : Nat) : (unsignedNumeral? digits).filter (· < 2 ^ 63) = some n ↔
      IsBased (trim digits) n ∧ n < 2 ^ 63 := by
    rw [Option.filter_eq_some_iff, unsignedNumeral?_eq_some_iff, decide_eq_true_eq, and_assoc]
    exact and_congr_right fun _ => ⟨fun h => h.2, fun h => ⟨by omega, h⟩⟩
  rw [signedNumeral?, h]
  dsimp only
  rw [Option.map_eq_some_iff]
  constructor
  · rintro ⟨magnitude, hmagnitude, rfl⟩
    obtain ⟨n, hn, hcast⟩ := Option.bind_eq_some_iff.mp hmagnitude
    cases hcast
    exact ⟨n, ((hread n).mp hn).1, ((hread n).mp hn).2, rfl⟩
  · rintro ⟨n, value, small, rfl⟩
    exact ⟨n, by rw [(hread n).mpr ⟨value, small⟩]; rfl, rfl⟩

/-- A signed numeral is read from the texts that stand for one, and from no others. -/
theorem signedNumeral?_eq_some_iff : signedNumeral? text = some k ↔ IsSigned text k := by
  constructor
  · intro h
    cases hsign : takeSign text with
    | mk negative digits =>
        obtain ⟨n, value, small, rfl⟩ := (signedNumeral?_of_takeSign hsign).mp h
        unfold takeSign at hsign
        split at hsign
        all_goals cases hsign
        · exact .minus value small
        · exact .plus value small
        · exact .plain value small
  · intro h
    cases h with
    | @plain _ n value small =>
        have hplain : takeSign text = (false, text) := by
          unfold takeSign
          split
          · exact (not_isBased_trim_sign (.inl rfl) _ n value).elim
          · exact (not_isBased_trim_sign (.inr rfl) _ n value).elim
          · rfl
        exact (signedNumeral?_of_takeSign hplain).mpr ⟨n, value, small, rfl⟩
    | @plus _ n value small => exact (signedNumeral?_of_takeSign rfl).mpr ⟨n, value, small, rfl⟩
    | @minus _ n value small => exact (signedNumeral?_of_takeSign rfl).mpr ⟨n, value, small, rfl⟩

theorem abs_le_of_isSigned (h : IsSigned text k) : |k| ≤ 2 ^ 63 - 1 := by
  cases h with
  | plain value small => rw [Nat.abs_cast]; omega
  | plus value small => rw [Nat.abs_cast]; omega
  | minus value small => rw [abs_neg, Nat.abs_cast]; omega

/-- A magnitude below `2 ^ 63` and its negation keep their value as signed words. -/
theorem toInt_neg_ofInt {m : ℤ} (hpos : 0 ≤ m) (hm : m ≤ 2 ^ 63 - 1) :
    (Int64.ofInt m).toInt = m ∧ (-Int64.ofInt m).toInt = -m := by
  have hword : (Int64.ofInt m).toInt = m := Int64.toInt_ofInt_of_le (by omega) (by omega)
  refine ⟨hword, ?_⟩
  rw [Int64.toInt_neg, hword]
  exact Int.bmod_eq_of_le (by omega) (by omega)

/--
A numeral is read as a word of 64 bits just if, without the blanks around it, it is one of its base
and its value is that of a word. A signed numeral is one sign at most and such a numeral, with a
magnitude that stays the same as a signed word and whose negation does. Every spelling of a word, with
capitals or without and between any blanks, is read as that word.
-/
theorem based_numerals_are_read_exactly :
    (∀ text n, unsignedNumeral? text = some n ↔ IsBased (trim text) n ∧ n < 2 ^ 64) ∧
    (∀ text k, signedNumeral? text = some k ↔ IsSigned text k) ∧
    (∀ text k, signedNumeral? text = some k →
      |k| ≤ 2 ^ 63 - 1 ∧ (Int64.ofInt |k|).toInt = |k| ∧ (-Int64.ofInt |k|).toInt = -|k|) ∧
    ∀ n < 2 ^ 64, ∀ width, ∀ spelling ∈ spellings width n, ∀ text front back,
      text.map Char.toLower = spelling → (∀ c ∈ front, isBlank c = true) →
        (∀ c ∈ back, isBlank c = true) → unsignedNumeral? (front ++ text ++ back) = some n := by
  refine ⟨fun _ _ => unsignedNumeral?_eq_some_iff, fun _ _ => signedNumeral?_eq_some_iff, ?_, ?_⟩
  · intro text k hread
    have hbound := abs_le_of_isSigned (signedNumeral?_eq_some_iff.mp hread)
    exact ⟨hbound, toInt_neg_ofInt (abs_nonneg k) hbound⟩
  · intro n hn width spelling hspelling text front back hlower hfront hback
    have hbased : IsBased (text.map Char.toLower) n := hlower ▸ isBased_of_mem_spellings hspelling
    exact unsignedNumeral?_of_isBased (isBased_map_toLower.mp hbased) hn hfront hback

/-- The greatest word is read in all four bases, and a sign goes in front of the blanks. -/
theorem greatest_word_is_read_in_all_bases :
    unsignedNumeral? " 0XffFFffFFffFFffFF\n".toList = some (2 ^ 64 - 1) ∧
      unsignedNumeral? "0o001777777777777777777777".toList = some (2 ^ 64 - 1) ∧
      unsignedNumeral? "01777777777777777777777".toList = some (2 ^ 64 - 1) ∧
      unsignedNumeral? "18446744073709551616".toList = none ∧
      signedNumeral? "- 0B101".toList = some (-5) ∧ |(-5 : ℤ)| ≤ 2 ^ 63 - 1 ∧
      signedNumeral? "0x8000000000000000".toList = none ∧ signedNumeral? " -5".toList = none ∧
      signedNumeral? "0x-5".toList = none := by
  obtain ⟨-, -, hwords, hspellings⟩ := based_numerals_are_read_exactly
  have hsigned : signedNumeral? "- 0B101".toList = some (-5) := by decide +kernel
  refine ⟨?_, ?_, ?_, by decide +kernel, hsigned, (hwords _ _ hsigned).1, by decide +kernel,
    by decide +kernel, by decide +kernel⟩
  · exact hspellings (2 ^ 64 - 1) (by decide) 0 _ (by decide +kernel)
      "0XffFFffFFffFFffFF".toList [' '] ['\n'] rfl (List.all_eq_true.mp rfl)
      (List.all_eq_true.mp rfl)
  · exact hspellings (2 ^ 64 - 1) (by decide) 24 _ (by decide +kernel)
      "0o001777777777777777777777".toList [] [] rfl (List.forall_mem_nil _)
      (List.forall_mem_nil _)
  · exact hspellings (2 ^ 64 - 1) (by decide) 0 _ (by decide +kernel)
      "01777777777777777777777".toList [] [] rfl (List.forall_mem_nil _)
      (List.forall_mem_nil _)

end Text

end FlowFence
