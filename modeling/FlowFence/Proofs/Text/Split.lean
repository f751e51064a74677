import FlowFence.Text.Cut

/-!
# Splitting and joining

Pieces that do not hold the mark are what a text joined from them splits into, and nothing but the
marks is lost in splitting.
-/

namespace FlowFence

namespace Text

variable {mark : Char}

theorem joined_cons (piece : List Char) (pieces : List (List Char)) :
    joined mark (piece :: pieces) = piece ++ pieces.flatMap (mark :: ·) := by
  induction pieces generalizing piece with
  | nil => simp [joined]
  | cons next pieces ih => simp [joined, ih]

theorem splitWhere_joined {pieces : List (List Char)} (hne : pieces ≠ [])
    (hclean : ∀ piece ∈ pieces, mark ∉ piece) :
    splitWhere (· == mark) (joined mark pieces) = pieces := by
  induction pieces with
  | nil => exact (hne rfl).elim
  | cons piece pieces ih =>
      have hpiece : ∀ c ∈ piece, (c == mark) = false := by
        intro c hc
        have hmark := hclean piece List.mem_cons_self
        simp only [beq_eq_false_iff_ne]
        rintro rfl
        exact hmark hc
      cases pieces with
      | nil => exact splitWhere_eq_singleton hpiece
      | cons next pieces =>
          rw [joined, splitWhere_append_cut hpiece (by simp),
            ih (by simp) fun p hp => hclean p (List.mem_cons_of_mem piece hp)]
          simp

theorem exists_mem_splitWhere (isCut : Char → Bool) {c : Char} (hc : isCut c = false)
    {text : List Char} (h : c ∈ text) : ∃ piece ∈ splitWhere isCut text, c ∈ piece := by
  induction text with
  | nil => cases h
  | cons d text ih =>
      rw [splitWhere]
      rcases List.mem_cons.mp h with rfl | h
      · simp only [hc, Bool.false_eq_true, if_false]
        cases hsplit : splitWhere isCut text with
        | nil => exact ⟨[c], by simp, by simp⟩
        | cons piece pieces => exact ⟨c :: piece, by simp, by simp⟩
      · obtain ⟨piece, hpiece, hmem⟩ := ih h
        split
        · exact ⟨piece, List.mem_cons_of_mem _ hpiece, hmem⟩
        · cases hsplit : splitWhere isCut text with
          | nil => simp [hsplit] at hpiece
          | cons first pieces =>
              rw [hsplit] at hpiece
              rcases List.mem_cons.mp hpiece with rfl | hpiece
              · exact ⟨d :: piece, by simp, List.mem_cons_of_mem d hmem⟩
              · exact ⟨piece, List.mem_cons_of_mem _ hpiece, hmem⟩

/-- No piece has a character at which the text is cut. -/
theorem not_isCut_of_mem_splitWhere {isCut : Char → Bool} {text piece : List Char}
    (h : piece ∈ splitWhere isCut text) : ∀ c ∈ piece, isCut c = false := by
  induction text generalizing piece with
  | nil =>
      rw [List.mem_singleton.mp h]
      exact List.forall_mem_nil _
  | cons d text ih =>
      rw [splitWhere] at h
      by_cases hd : isCut d = true
      · rw [if_pos hd, List.mem_cons] at h
        rcases h with rfl | hrest
        · simp
        · exact ih hrest
      · obtain ⟨first, pieces, hpieces⟩ :=
          List.exists_cons_of_ne_nil (splitWhere_ne_nil isCut text)
        rw [if_neg hd, hpieces] at h
        rw [hpieces] at ih
        rcases List.mem_cons.mp h with rfl | hrest
        · exact List.forall_mem_cons.mpr ⟨Bool.eq_false_iff.mpr hd, ih List.mem_cons_self⟩
        · exact ih (List.mem_cons_of_mem first hrest)

/-- A text is the pieces that it splits into, with the marks between them again. -/
theorem joined_splitWhere (mark : Char) (text : List Char) :
    joined mark (splitWhere (· == mark) text) = text := by
  induction text with
  | nil => rfl
  | cons c text ih =>
      obtain ⟨piece, pieces, hpieces⟩ :=
        List.exists_cons_of_ne_nil (splitWhere_ne_nil (· == mark) text)
      rw [hpieces, joined_cons] at ih
      rw [splitWhere, hpieces]
      by_cases hc : c = mark
      · simp [hc, joined_cons, ih]
      · simp [hc, joined_cons, ih]

end Text

end FlowFence
