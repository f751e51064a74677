import FlowFence.Proofs.Text.Utf8

/-!
# Encoded texts

Bytes decode to a text just when they are the encoding of that text. A sequence at the front of bytes
is read as a character just when it is the one that encodes the character: the ranges of its bytes
leave out overlong forms, surrogates and code points that are too large.
-/

namespace FlowFence

namespace Utf8

/-! ## Ranges -/

variable {lead b : UInt8}

/-- The lead bytes of sequences of each width. -/
theorem width?_eq_some_iff {n : Nat} :
    width? lead = some n ↔
      n = 1 ∧ lead.toNat ≤ 0x7F ∨ n = 2 ∧ 0xC2 ≤ lead.toNat ∧ lead.toNat ≤ 0xDF ∨
        n = 3 ∧ 0xE0 ≤ lead.toNat ∧ lead.toNat ≤ 0xEF ∨
          n = 4 ∧ 0xF0 ≤ lead.toNat ∧ lead.toNat ≤ 0xF4 := by
  have hrange : lead.toNat < 256 := lead.toNat_lt
  simp only [width?, UInt8.lt_iff_toNat_lt, UInt8.le_iff_toNat_le, UInt8.reduceToNat]
  split <;> try split <;> try split <;> try split
  all_goals
    simp only [Option.some.injEq, reduceCtorEq, false_iff]
    omega

def Continues (lead b : UInt8) : Prop :=
  (0x80 ≤ b.toNat ∧ b.toNat ≤ 0xBF) ∧ (lead.toNat = 0xE0 → 0xA0 ≤ b.toNat) ∧
    (lead.toNat = 0xED → b.toNat ≤ 0x9F) ∧ (lead.toNat = 0xF0 → 0x90 ≤ b.toNat) ∧
      (lead.toNat = 0xF4 → b.toNat ≤ 0x8F)

theorem mem_secondRange_iff :
    (secondRange lead).1 ≤ b ∧ b ≤ (secondRange lead).2 ↔ Continues lead b := by
  simp only [secondRange, Continues, ← UInt8.toNat_inj, UInt8.le_iff_toNat_le, UInt8.reduceToNat]
  split <;> try split <;> try split <;> try split
  all_goals
    simp only [UInt8.reduceToNat]
    omega

theorem continueWith_succ_eq_scalar_iff {missing value taken : Nat} {range : UInt8 × UInt8}
    {rest after : List UInt8} {c : Char} :
    continueWith (missing + 1) value taken range rest = .scalar c after ↔
      ∃ b tail, rest = b :: tail ∧ (range.1 ≤ b ∧ b ≤ range.2) ∧
        continueWith missing (value * 64 + b.toNat % 64) (taken + 1) (0x80, 0xBF) tail =
          .scalar c after := by
  cases rest with
  | nil => simp [continueWith]
  | cons b tail =>
      rw [continueWith]
      constructor
      · intro h
        split at h
        · exact ⟨b, tail, rfl, ‹_›, h⟩
        · cases h
      · rintro ⟨_, _, hrest, hrange, h⟩
        cases hrest
        rw [if_pos hrange, h]

theorem mem_tailRange_iff :
    ((0x80, 0xBF) : UInt8 × UInt8).1 ≤ b ∧ b ≤ ((0x80, 0xBF) : UInt8 × UInt8).2 ↔
      0x80 ≤ b.toNat ∧ b.toNat ≤ 0xBF := by
  simp only [UInt8.le_iff_toNat_le, UInt8.reduceToNat]

/-! ## Sequences -/

section Sequences

variable {b₁ b₂ b₃ : UInt8} {rest after : List UInt8} {c : Char}

theorem toNat_ofNat_of_valid {n : Nat} (h : n.isValidChar) : (Char.ofNat n).val.toNat = n := by
  rw [Char.ofNat, dif_pos h]
  rfl

theorem byte_ofNat_eq {n : Nat} (h : n = b.toNat) : UInt8.ofNat n = b := by
  rw [h, UInt8.ofNat_toNat]

theorem encodeChar_of_one (h : lead.toNat ≤ 0x7F) :
    String.utf8EncodeChar (Char.ofNat lead.toNat) = [lead] := by
  have hvalue := toNat_ofNat_of_valid (n := lead.toNat) (.inl (by omega))
  simp only [String.utf8EncodeChar, hvalue]
  rw [if_pos h, byte_ofNat_eq rfl]

theorem encodeChar_of_two (hlead : 0xC2 ≤ lead.toNat ∧ lead.toNat ≤ 0xDF)
    (h₁ : Continues lead b₁) :
    String.utf8EncodeChar (Char.ofNat (lead.toNat % 32 * 64 + b₁.toNat % 64)) = [lead, b₁] := by
  have htail := h₁.1
  have hvalue := toNat_ofNat_of_valid (n := lead.toNat % 32 * 64 + b₁.toNat % 64) (.inl (by omega))
  simp only [String.utf8EncodeChar, hvalue]
  rw [if_neg (by omega), if_pos (by omega), byte_ofNat_eq (b := lead) (by omega),
    byte_ofNat_eq (b := b₁) (by omega)]

theorem encodeChar_of_three (hlead : 0xE0 ≤ lead.toNat ∧ lead.toNat ≤ 0xEF)
    (h₁ : Continues lead b₁) (h₂ : 0x80 ≤ b₂.toNat ∧ b₂.toNat ≤ 0xBF) :
    String.utf8EncodeChar
      (Char.ofNat ((lead.toNat % 16 * 64 + b₁.toNat % 64) * 64 + b₂.toNat % 64)) =
        [lead, b₁, b₂] := by
  obtain ⟨htail, hoverlong, hsurrogate, -, -⟩ := h₁
  have hvalue := toNat_ofNat_of_valid
    (n := (lead.toNat % 16 * 64 + b₁.toNat % 64) * 64 + b₂.toNat % 64)
    (by unfold Nat.isValidChar; omega)
  simp only [String.utf8EncodeChar, hvalue]
  rw [if_neg (by omega), if_neg (by omega), if_pos (by omega), byte_ofNat_eq (b := lead) (by omega),
    byte_ofNat_eq (b := b₁) (by omega), byte_ofNat_eq (b := b₂) (by omega)]

theorem encodeChar_of_four (hlead : 0xF0 ≤ lead.toNat ∧ lead.toNat ≤ 0xF4)
    (h₁ : Continues lead b₁) (h₂ : 0x80 ≤ b₂.toNat ∧ b₂.toNat ≤ 0xBF)
    (h₃ : 0x80 ≤ b₃.toNat ∧ b₃.toNat ≤ 0xBF) :
    String.utf8EncodeChar
      (Char.ofNat (((lead.toNat % 8 * 64 + b₁.toNat % 64) * 64 + b₂.toNat % 64) * 64 +
        b₃.toNat % 64)) = [lead, b₁, b₂, b₃] := by
  obtain ⟨htail, -, -, hoverlong, hlarge⟩ := h₁
  have hvalue := toNat_ofNat_of_valid
    (n := ((lead.toNat % 8 * 64 + b₁.toNat % 64) * 64 + b₂.toNat % 64) * 64 + b₃.toNat % 64)
    (by unfold Nat.isValidChar; omega)
  simp only [String.utf8EncodeChar, hvalue]
  rw [if_neg (by omega), if_neg (by omega), if_neg (by omega), byte_ofNat_eq (b := lead) (by omega),
    byte_ofNat_eq (b := b₁) (by omega), byte_ofNat_eq (b := b₂) (by omega),
    byte_ofNat_eq (b := b₃) (by omega)]

/-- What is read at the front of bytes is the character that the bytes up to there encode. -/
theorem eq_encodeChar_of_step (h : step lead rest = .scalar c after) :
    lead :: rest = String.utf8EncodeChar c ++ after := by
  unfold step at h
  cases hwidth : width? lead with
  | none =>
      rw [hwidth] at h
      cases h
  | some n =>
      rw [hwidth] at h
      rcases width?_eq_some_iff.mp hwidth with
        ⟨rfl, hlead⟩ | ⟨rfl, hlead⟩ | ⟨rfl, hlead⟩ | ⟨rfl, hlead⟩
      · cases h
        rw [encodeChar_of_one hlead]
        rfl
      · obtain ⟨b₁, _, rfl, h₁, hend⟩ := continueWith_succ_eq_scalar_iff.mp h
        cases hend
        rw [encodeChar_of_two hlead (mem_secondRange_iff.mp h₁)]
        rfl
      · obtain ⟨b₁, _, rfl, h₁, hmore⟩ := continueWith_succ_eq_scalar_iff.mp h
        obtain ⟨b₂, _, rfl, h₂, hend⟩ := continueWith_succ_eq_scalar_iff.mp hmore
        cases hend
        rw [encodeChar_of_three hlead (mem_secondRange_iff.mp h₁) (mem_tailRange_iff.mp h₂)]
        rfl
      · obtain ⟨b₁, _, rfl, h₁, hmore⟩ := continueWith_succ_eq_scalar_iff.mp h
        obtain ⟨b₂, _, rfl, h₂, hlast⟩ := continueWith_succ_eq_scalar_iff.mp hmore
        obtain ⟨b₃, _, rfl, h₃, hend⟩ := continueWith_succ_eq_scalar_iff.mp hlast
        cases hend
        rw [encodeChar_of_four hlead (mem_secondRange_iff.mp h₁) (mem_tailRange_iff.mp h₂)
          (mem_tailRange_iff.mp h₃)]
        rfl

theorem step_of_one (h : lead.toNat ≤ 0x7F) :
    step lead rest = .scalar (Char.ofNat lead.toNat) rest := by
  have hwidth : width? lead = some 1 := width?_eq_some_iff.mpr (.inl ⟨rfl, h⟩)
  rw [step, hwidth]
  rfl

theorem step_of_two (hlead : 0xC2 ≤ lead.toNat ∧ lead.toNat ≤ 0xDF) (h₁ : Continues lead b₁) :
    step lead (b₁ :: rest) = .scalar (Char.ofNat (lead.toNat % 32 * 64 + b₁.toNat % 64)) rest := by
  have hwidth : width? lead = some 2 := width?_eq_some_iff.mpr (.inr (.inl ⟨rfl, hlead⟩))
  rw [step, hwidth]
  exact continueWith_succ_eq_scalar_iff.mpr ⟨b₁, rest, rfl, mem_secondRange_iff.mpr h₁, rfl⟩

theorem step_of_three (hlead : 0xE0 ≤ lead.toNat ∧ lead.toNat ≤ 0xEF) (h₁ : Continues lead b₁)
    (h₂ : 0x80 ≤ b₂.toNat ∧ b₂.toNat ≤ 0xBF) :
    step lead (b₁ :: b₂ :: rest) =
      .scalar (Char.ofNat ((lead.toNat % 16 * 64 + b₁.toNat % 64) * 64 + b₂.toNat % 64)) rest := by
  have hwidth : width? lead = some 3 := width?_eq_some_iff.mpr (.inr (.inr (.inl ⟨rfl, hlead⟩)))
  rw [step, hwidth]
  refine continueWith_succ_eq_scalar_iff.mpr ⟨b₁, _, rfl, mem_secondRange_iff.mpr h₁, ?_⟩
  exact continueWith_succ_eq_scalar_iff.mpr ⟨b₂, rest, rfl, mem_tailRange_iff.mpr h₂, rfl⟩

theorem step_of_four (hlead : 0xF0 ≤ lead.toNat ∧ lead.toNat ≤ 0xF4) (h₁ : Continues lead b₁)
    (h₂ : 0x80 ≤ b₂.toNat ∧ b₂.toNat ≤ 0xBF) (h₃ : 0x80 ≤ b₃.toNat ∧ b₃.toNat ≤ 0xBF) :
    step lead (b₁ :: b₂ :: b₃ :: rest) =
      .scalar (Char.ofNat (((lead.toNat % 8 * 64 + b₁.toNat % 64) * 64 + b₂.toNat % 64) * 64 +
        b₃.toNat % 64)) rest := by
  have hwidth : width? lead = some 4 := width?_eq_some_iff.mpr (.inr (.inr (.inr ⟨rfl, hlead⟩)))
  rw [step, hwidth]
  refine continueWith_succ_eq_scalar_iff.mpr ⟨b₁, _, rfl, mem_secondRange_iff.mpr h₁, ?_⟩
  refine continueWith_succ_eq_scalar_iff.mpr ⟨b₂, _, rfl, mem_tailRange_iff.mpr h₂, ?_⟩
  exact continueWith_succ_eq_scalar_iff.mpr ⟨b₃, rest, rfl, mem_tailRange_iff.mpr h₃, rfl⟩

theorem toNat_byte_ofNat {n : Nat} (h : n < 256) : (UInt8.ofNat n).toNat = n := by
  rw [UInt8.toNat_ofNat']
  exact Nat.mod_eq_of_lt h

/-- The bytes of a character are read as it, whatever follows. -/
theorem exists_step_of_encodeChar (c : Char) (after : List UInt8) :
    ∃ lead rest, String.utf8EncodeChar c ++ after = lead :: rest ∧
      step lead rest = .scalar c after := by
  have hvalid : c.val.toNat < 0xD800 ∨ 0xDFFF < c.val.toNat ∧ c.val.toNat < 0x110000 := c.valid
  have hchar {n : Nat} (h : n = c.val.toNat) : Char.ofNat n = c := h ▸ Char.ofNat_toNat c
  simp only [String.utf8EncodeChar]
  generalize hv : c.val.toNat = v at *
  have hlow : (UInt8.ofNat (v % 64 + 128)).toNat = v % 64 + 128 := toNat_byte_ofNat (by omega)
  have hmiddle : (UInt8.ofNat (v / 64 % 64 + 128)).toNat = v / 64 % 64 + 128 :=
    toNat_byte_ofNat (by omega)
  have hhigh : (UInt8.ofNat (v / 4096 % 64 + 128)).toNat = v / 4096 % 64 + 128 :=
    toNat_byte_ofNat (by omega)
  split
  · have hlead : (UInt8.ofNat v).toNat = v := toNat_byte_ofNat (by omega)
    refine ⟨_, _, rfl, ?_⟩
    rw [step_of_one (by omega), hlead, hchar rfl]
    rfl
  split
  · have hlead : (UInt8.ofNat (v / 64 % 32 + 192)).toNat = v / 64 % 32 + 192 :=
      toNat_byte_ofNat (by omega)
    refine ⟨_, _ :: after, rfl, ?_⟩
    rw [step_of_two (by omega) (by unfold Continues; omega), hlead, hlow, hchar (by omega)]
  split
  · have hlead : (UInt8.ofNat (v / 4096 % 16 + 224)).toNat = v / 4096 % 16 + 224 :=
      toNat_byte_ofNat (by omega)
    refine ⟨_, _ :: _ :: after, rfl, ?_⟩
    rw [step_of_three (by omega) (by unfold Continues; omega) (by omega), hlead, hmiddle, hlow,
      hchar (by omega)]
  · have hlead : (UInt8.ofNat (v / 262144 % 8 + 240)).toNat = v / 262144 % 8 + 240 :=
      toNat_byte_ofNat (by omega)
    refine ⟨_, _ :: _ :: _ :: after, rfl, ?_⟩
    rw [step_of_four (by omega) (by unfold Continues; omega) (by omega) (by omega), hlead, hhigh,
      hmiddle, hlow, hchar (by omega)]

end Sequences

/-! ## Texts -/

theorem decodes_iff {bytes : List UInt8} {text : List Char} :
    Decodes bytes text ↔ bytes = encode text := by
  constructor
  · intro h
    induction h with
    | nil => rfl
    | cons hstep _ ih => rw [eq_encodeChar_of_step hstep, ih, encode, encode, List.flatMap_cons]
  · rintro rfl
    induction text with
    | nil => exact .nil
    | cons c text ih =>
        obtain ⟨lead, rest, hbytes, hstep⟩ := exists_step_of_encodeChar c (encode text)
        rw [encode, List.flatMap_cons, ← encode, hbytes]
        exact .cons hstep ih

theorem decodeFuel_of_decodes {bytes : List UInt8} {text : List Char} (h : Decodes bytes text)
    {fuel : Nat} (total : Nat) (hfuel : bytes.length ≤ fuel) :
    decodeFuel fuel total bytes = .ok text := by
  induction h generalizing fuel with
  | nil => cases fuel <;> rfl
  | cons hstep _ ih =>
      cases fuel with
      | zero => simp at hfuel
      | succ fuel =>
          have hlength := length_le_of_step hstep
          rw [List.length_cons] at hfuel
          rw [decodeFuel, hstep]
          dsimp only
          rw [ih (by omega)]
          rfl

/-- Bytes are the text that encodes to them, and no text if there is none. -/
theorem decode_eq_ok_iff {bytes : List UInt8} {text : List Char} :
    decode bytes = .ok text ↔ bytes = encode text := by
  rw [← decodes_iff]
  exact ⟨decodes_of_decode, fun h => decodeFuel_of_decodes h _ (Nat.le_refl _)⟩

@[simp] theorem decode_encode (text : List Char) : decode (encode text) = .ok text :=
  decode_eq_ok_iff.mpr rfl

def asciiChar (b : UInt8) : Char :=
  Char.ofNat b.toNat

theorem encode_asciiChar_cons (h : b.toNat ≤ 0x7F) (text : List Char) :
    encode (asciiChar b :: text) = b :: encode text := by
  rw [encode, List.flatMap_cons, asciiChar, encodeChar_of_one h]
  rfl

/-- Bytes below `0x80` at the front of an encoded text are characters at the front of the text. -/
theorem encode_eq_append_iff {code rest : List UInt8} (h : ∀ b ∈ code, b.toNat ≤ 0x7F)
    {text : List Char} :
    encode text = code ++ rest ↔ ∃ tail, text = code.map asciiChar ++ tail ∧ encode tail = rest := by
  induction code generalizing text with
  | nil => simp
  | cons b code ih =>
      have hb : b.toNat ≤ 0x7F := h b List.mem_cons_self
      have hcode (text : List Char) : encode text = code ++ rest ↔
          ∃ tail, text = code.map asciiChar ++ tail ∧ encode tail = rest :=
        ih fun b hmem => h b (List.mem_cons_of_mem _ hmem)
      constructor
      · intro htext
        rw [List.cons_append] at htext
        have hdecodes := decodes_iff.mpr htext.symm
        cases hdecodes with
        | cons hstep hrest =>
            rw [step_of_one hb] at hstep
            cases hstep
            obtain ⟨tail, rfl, htail⟩ := (hcode _).mp (decodes_iff.mp hrest).symm
            exact ⟨tail, rfl, htail⟩
      · rintro ⟨tail, rfl, htail⟩
        rw [List.map_cons, List.cons_append, encode_asciiChar_cons hb, (hcode _).mpr ⟨tail, rfl, htail⟩,
          List.cons_append]

end Utf8

end FlowFence
