import FlowFence.Text.Utf8

/-!
# Texts and their bytes

No two texts have the same bytes. Bytes that decode to a text do so character by character, so what
the front of a byte sequence decodes to is the front of what the whole decodes to.
-/

namespace FlowFence

namespace Utf8

theorem encode_injective {a b : List Char} (h : encode a = encode b) : a = b := by
  have hbytes : (String.ofList a).toByteArray = (String.ofList b).toByteArray := by
    rw [String.toByteArray_ofList, String.toByteArray_ofList]
    exact congrArg List.toByteArray h
  exact String.ofList_injective (String.toByteArray_inj.mp hbytes)

/-! ## Single characters -/

theorem length_le_of_continueWith {missing value taken : Nat} {range : UInt8 × UInt8} {c : Char}
    {rest after : List UInt8} (h : continueWith missing value taken range rest = .scalar c after) :
    after.length ≤ rest.length := by
  induction missing generalizing value taken range rest with
  | zero =>
      cases h
      exact Nat.le_refl _
  | succ missing ih =>
      cases rest with
      | nil => cases h
      | cons b rest =>
          unfold continueWith at h
          split at h
          · have hrest := ih h
            rw [List.length_cons]
            omega
          · cases h

theorem continueWith_append {missing value taken : Nat} {range : UInt8 × UInt8} {c : Char}
    {rest after : List UInt8} (h : continueWith missing value taken range rest = .scalar c after)
    (more : List UInt8) :
    continueWith missing value taken range (rest ++ more) = .scalar c (after ++ more) := by
  induction missing generalizing value taken range rest with
  | zero =>
      cases h
      rfl
  | succ missing ih =>
      cases rest with
      | nil => cases h
      | cons b rest =>
          unfold continueWith at h
          rw [List.cons_append, continueWith]
          split at h
          · rw [if_pos ‹_›]
            exact ih h
          · cases h

theorem length_le_of_step {lead : UInt8} {rest after : List UInt8} {c : Char}
    (h : step lead rest = .scalar c after) : after.length ≤ rest.length := by
  unfold step at h
  split at h
  · cases h
    exact Nat.le_refl _
  · exact length_le_of_continueWith h
  · exact length_le_of_continueWith h
  · exact length_le_of_continueWith h
  · cases h

/-- A character that is complete is read the same when the bytes go on. -/
theorem step_append {lead : UInt8} {rest after : List UInt8} {c : Char}
    (h : step lead rest = .scalar c after) (more : List UInt8) :
    step lead (rest ++ more) = .scalar c (after ++ more) := by
  unfold step at h ⊢
  split at h
  · cases h
    rfl
  · exact continueWith_append h more
  · exact continueWith_append h more
  · exact continueWith_append h more
  · cases h

/-! ## Texts -/

inductive Decodes : List UInt8 → List Char → Prop
  | nil : Decodes [] []
  | cons {lead : UInt8} {rest after : List UInt8} {c : Char} {text : List Char}
      (hstep : step lead rest = .scalar c after) (hrest : Decodes after text) :
      Decodes (lead :: rest) (c :: text)

theorem decodes_of_decodeFuel {fuel total : Nat} {bytes : List UInt8} {text : List Char}
    (hfuel : bytes.length ≤ fuel) (h : decodeFuel fuel total bytes = .ok text) :
    Decodes bytes text := by
  induction fuel generalizing bytes text with
  | zero =>
      obtain rfl := List.eq_nil_of_length_eq_zero (Nat.le_zero.mp hfuel)
      cases h
      exact .nil
  | succ fuel ih =>
      cases bytes with
      | nil =>
          cases h
          exact .nil
      | cons lead rest =>
          unfold decodeFuel at h
          split at h
          · rename_i c after hstep
            have hlength := length_le_of_step hstep
            rw [List.length_cons] at hfuel
            cases hafter : decodeFuel fuel total after with
            | error fault =>
                rw [hafter] at h
                cases h
            | ok tail =>
                rw [hafter] at h
                cases h
                exact .cons hstep (ih (by omega) hafter)
          · cases h
          · cases h

theorem decodes_of_decode {bytes : List UInt8} {text : List Char} (h : decode bytes = .ok text) :
    Decodes bytes text :=
  decodes_of_decodeFuel (Nat.le_refl _) h

/-- The front of bytes decodes to the front of their text. -/
theorem Decodes.of_append {bytes more : List UInt8} {text whole : List Char}
    (h : Decodes bytes text) (hwhole : Decodes (bytes ++ more) whole) :
    ∃ tail, Decodes more tail ∧ whole = text ++ tail := by
  induction h generalizing whole with
  | nil => exact ⟨whole, hwhole, rfl⟩
  | cons hstep _ ih =>
      rw [List.cons_append] at hwhole
      cases hwhole with
      | cons hstep' hrest' =>
          rw [step_append hstep] at hstep'
          cases hstep'
          obtain ⟨tail, hmore, rfl⟩ := ih hrest'
          exact ⟨tail, hmore, rfl⟩

theorem eq_singleton_of_decodes_return {text : List Char} (h : Decodes [0x0D] text) :
    text = ['\r'] := by
  cases h with
  | cons hstep hrest =>
      cases hstep
      cases hrest
      rfl

end Utf8

end FlowFence
