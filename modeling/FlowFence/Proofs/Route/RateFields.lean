import FlowFence.Proofs.Binary32.Fields
import FlowFence.Proofs.Route.Community
import FlowFence.Proofs.Text.Positional

/-!
# Rate fields

Which texts are the argument of a community, and what they are read as: the pattern of a single
precision number in hexadecimal digits, whose number is cut off toward zero. The texts are given by
a grammar and the numbers by the fields of the pattern, so that neither side is the reader's own.
-/

namespace FlowFence

namespace Route

variable {field : List Char} {n : ℤ} {x : ℚ}

/--
Whether a text is a number in hexadecimal digits of either case, as many as there may be, with one
mark of the base in front or none, and blanks around it.
-/
def IsWordText (bits : Nat) (field : List Char) : Prop :=
  ∃ front mark digits back, field = front ++ (mark ++ digits) ++ back ∧
    (∀ c ∈ front, Text.isBlank c = true) ∧ (∀ c ∈ back, Text.isBlank c = true) ∧
    mark ∈ [[], ['0', 'x'], ['0', 'X']] ∧ Text.IsNumeral 16 digits bits

/-- Whether a text is a pattern whose exponent field is below that of `2 ^ 63`, and its number. -/
def DenotesRate (field : List Char) (x : ℚ) : Prop :=
  ∃ sign < 2, ∃ exponent < 190, ∃ fractionField < 2 ^ 23,
    IsWordText (Binary32.ofFields sign exponent fractionField) field ∧
      x = Binary32.number sign exponent fractionField

/-! ## Words -/

theorem isWordText_of_trim {bits : Nat} (mark digits : List Char)
    (hmark : mark ∈ [[], ['0', 'x'], ['0', 'X']]) (htrim : Text.trim field = mark ++ digits)
    (hdigits : Text.numeral? 16 digits = some bits) : IsWordText bits field := by
  obtain ⟨front, back, htext, hfront, hback⟩ := Text.exists_eq_append_trim field
  rw [htrim] at htext
  exact ⟨front, mark, digits, back, htext, hfront, hback, hmark,
    (Text.numeral?_eq_some_iff (by decide)).mp hdigits⟩

/-- Blanks around a word do not matter. -/
theorem decodeRate?_of_isWordText {bits : Nat} (hbits : bits < 2 ^ 32)
    (h : IsWordText bits field) : decodeRate? field = Binary32.truncate? bits := by
  obtain ⟨front, mark, digits, back, rfl, hfront, hback, hmark, hdigits⟩ := h
  have hword : IsHexadecimal bits (mark ++ digits) :=
    ⟨mark, hmark, digits, rfl, (Text.numeral?_eq_some_iff (by decide)).mpr hdigits⟩
  have hplain := not_isBlank_of_isHexadecimal hword
  have hne : mark ++ digits ≠ [] := List.append_ne_nil_of_right_ne_nil mark hdigits.1
  have htrim : Text.trim (front ++ (mark ++ digits) ++ back) = Text.trim (mark ++ digits) := by
    rw [Text.trim_append_append hfront hplain hne hback, Text.trim_eq_self hplain]
  rw [← decodeRate?_of_isHexadecimal hbits hword]
  unfold decodeRate?
  rw [htrim]

theorem decodeRate?_eq_some_iff :
    decodeRate? field = some n ↔
      ∃ bits < 2 ^ 32, IsWordText bits field ∧ Binary32.truncate? bits = some n := by
  constructor
  · intro h
    have hread {digits : List Char}
        (h : ((Text.numeral? 16 digits).filter (· < 2 ^ 32)).bind Binary32.truncate? = some n) :
        ∃ bits < 2 ^ 32, Text.numeral? 16 digits = some bits ∧
          Binary32.truncate? bits = some n := by
      obtain ⟨bits, hbits, hn⟩ := Option.bind_eq_some_iff.mp h
      obtain ⟨hdigits, hlimit⟩ := Option.filter_eq_some_iff.mp hbits
      exact ⟨bits, of_decide_eq_true hlimit, hdigits, hn⟩
    unfold decodeRate? at h
    dsimp only at h
    split at h
    · rename_i digits htrim
      obtain ⟨bits, hbits, hdigits, hn⟩ := hread h
      exact ⟨bits, hbits, isWordText_of_trim ['0', 'x'] _ (by simp) htrim hdigits, hn⟩
    · rename_i digits htrim
      obtain ⟨bits, hbits, hdigits, hn⟩ := hread h
      exact ⟨bits, hbits, isWordText_of_trim ['0', 'X'] _ (by simp) htrim hdigits, hn⟩
    · obtain ⟨bits, hbits, hdigits, hn⟩ := hread h
      exact ⟨bits, hbits, isWordText_of_trim [] _ (by simp) rfl hdigits, hn⟩
  · rintro ⟨bits, hbits, hword, hn⟩
    rw [decodeRate?_of_isWordText hbits hword, hn]

/-! ## Numbers -/

theorem decodeRate?_eq_some_iff_denotesRate :
    decodeRate? field = some n ↔ ∃ x, DenotesRate field x ∧ n = Binary32.towardZero x := by
  rw [decodeRate?_eq_some_iff]
  constructor
  · rintro ⟨bits, hbits, hword, hn⟩
    obtain ⟨sign, hsign, fractionField, hfraction, hfields⟩ := Binary32.exists_fields hbits
    have hbyte : Binary32.exponentField bits < 2 ^ 8 := Nat.mod_lt _ (by decide)
    rw [hfields, Binary32.truncate?_ofFields hsign hbyte hfraction] at hn
    rw [hfields] at hword
    exact ⟨_, ⟨sign, hsign, _, hn.1, fractionField, hfraction, hword, rfl⟩, hn.2⟩
  · rintro ⟨x, ⟨sign, hsign, exponent, hexponent, fractionField, hfraction, hword, rfl⟩, rfl⟩
    have hbyte : exponent < 2 ^ 8 := by omega
    exact ⟨_, Binary32.ofFields_lt hsign hbyte hfraction, hword,
      (Binary32.truncate?_ofFields hsign hbyte hfraction).mpr ⟨hexponent, rfl⟩⟩

theorem abs_towardZero_le_of_denotesRate (h : DenotesRate field x) :
    |Binary32.towardZero x| ≤ 2 ^ 63 - 2 ^ 39 := by
  obtain ⟨sign, hsign, exponent, hexponent, fractionField, hfraction, -, rfl⟩ := h
  exact Binary32.abs_towardZero_number_le hsign hexponent hfraction

theorem eq_towardZero_of_denotesRate (h : DenotesRate field x)
    (hread : decodeRate? field = some n) : n = Binary32.towardZero x := by
  have hother := decodeRate?_eq_some_iff_denotesRate.mpr ⟨x, h, rfl⟩
  exact Option.some.inj (hread.symm.trans hother)

/--
A field is read just if it is a word of 32 bits in hexadecimal whose exponent field is below 190,
and then as the number of its pattern, cut off toward zero. What is read is at most `2 ^ 63 - 2 ^ 39` in
magnitude, so that making a signed word of it never ends at a limit of the words, and greater
numbers are not read as lesser ones.
-/
theorem rate_field_is_read_exactly :
    (∀ (field : List Char) (n : ℤ), decodeRate? field = some n ↔
      ∃ x, DenotesRate field x ∧ n = Binary32.towardZero x) ∧
    (∀ (field : List Char) (n : ℤ), decodeRate? field = some n → |n| ≤ 2 ^ 63 - 2 ^ 39) ∧
    (∀ (field : List Char) (x : ℚ), DenotesRate field x →
      decodeRate? field = some (Binary32.toWord x) ∧
        Binary32.toWord x = Binary32.towardZero x) ∧
    ∀ (field field' : List Char) (x x' : ℚ) (n n' : ℤ),
      DenotesRate field x → DenotesRate field' x' →
        decodeRate? field = some n → decodeRate? field' = some n' → x ≤ x' → n ≤ n' := by
  refine ⟨fun _ _ => decodeRate?_eq_some_iff_denotesRate, ?_, ?_, ?_⟩
  · intro field n hread
    obtain ⟨x, hx, rfl⟩ := decodeRate?_eq_some_iff_denotesRate.mp hread
    exact abs_towardZero_le_of_denotesRate hx
  · intro field x hx
    have hbound := abs_towardZero_le_of_denotesRate hx
    have hword : Binary32.toWord x = Binary32.towardZero x :=
      Binary32.toWord_eq (lt_of_le_of_lt hbound (by norm_num))
    rw [hword]
    exact ⟨decodeRate?_eq_some_iff_denotesRate.mpr ⟨x, hx, rfl⟩, rfl⟩
  · intro field field' x x' n n' hx hx' hread hread' hle
    rw [eq_towardZero_of_denotesRate hx hread, eq_towardZero_of_denotesRate hx' hread']
    exact Binary32.towardZero_mono hle

/-- The greatest pattern that is read, behind zeros, and that of the negative number next to zero. -/
theorem greatestRate_is_read :
    let greatest := "\t0X005EFfffff ".toList
    let least := "80000001".toList
    decodeRate? greatest = some (2 ^ 63 - 2 ^ 39) ∧ decodeRate? least = some 0 ∧
      |(2 ^ 63 - 2 ^ 39 : ℤ)| ≤ 2 ^ 63 - 2 ^ 39 ∧ (0 : ℤ) ≤ 2 ^ 63 - 2 ^ 39 := by
  intro greatest least
  obtain ⟨hexact, hbound, hword, hmono⟩ := rate_field_is_read_exactly
  have hgreatest : DenotesRate greatest (2 ^ 63 - 2 ^ 39) :=
    ⟨0, by decide, 189, by decide, 0x7fffff, by decide,
      isWordText_of_trim ['0', 'X'] "005EFfffff".toList (by simp) (by decide) (by decide),
      by norm_num [Binary32.number]⟩
  have hleast : DenotesRate least (-1 / 2 ^ 149) :=
    ⟨1, by decide, 0, by decide, 1, by decide,
      isWordText_of_trim [] least (by simp) (by decide) (by decide),
      by norm_num [Binary32.number]⟩
  have hzero : decodeRate? least = some 0 :=
    (hexact least 0).mpr ⟨_, hleast, by norm_num [Binary32.towardZero]⟩
  have hread : decodeRate? greatest = some (2 ^ 63 - 2 ^ 39) := by
    rw [(hword greatest _ hgreatest).1, (hword greatest _ hgreatest).2]
    norm_num [Binary32.towardZero]
  exact ⟨hread, hzero, hbound greatest _ hread,
    hmono least greatest _ _ _ _ hleast hgreatest hzero hread (by norm_num)⟩

end Route

end FlowFence
