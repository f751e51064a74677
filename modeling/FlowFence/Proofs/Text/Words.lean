import FlowFence.Proofs.Text.Split

/-!
# Words

A blank between two texts keeps their words apart, so blanks at the ends of a text, or more of them
in a place, do not change its words. Words put together with blanks are read back.
-/

namespace FlowFence

namespace Text

variable {isCut : Char → Bool} {c : Char}

/-! ## Pieces -/

theorem splitWhere_append_cons (hc : isCut c = true) (front rest : List Char) :
    splitWhere isCut (front ++ c :: rest) = splitWhere isCut front ++ splitWhere isCut rest := by
  induction front with
  | nil => simp [splitWhere, hc]
  | cons d front ih =>
      rw [List.cons_append, splitWhere, ih, splitWhere]
      by_cases hd : isCut d = true
      · simp [hd]
      · obtain ⟨piece, pieces, hpieces⟩ :=
          List.exists_cons_of_ne_nil (splitWhere_ne_nil isCut front)
        simp [hd, hpieces]

/-- What is put behind a text without a new cut goes on with its last piece. -/
theorem exists_splitWhere_append {more : List Char} (hmore : ∀ d ∈ more, isCut d = false)
    (text : List Char) :
    ∃ front last, splitWhere isCut text = front ++ [last] ∧
      splitWhere isCut (text ++ more) = front ++ [last ++ more] := by
  induction text with
  | nil => exact ⟨[], [], rfl, splitWhere_eq_singleton hmore⟩
  | cons d text ih =>
      obtain ⟨front, last, htext, hlong⟩ := ih
      by_cases hd : isCut d = true
      · refine ⟨[] :: front, last, ?_, ?_⟩
        · simp [splitWhere, hd, htext]
        · simp [splitWhere, hd, hlong]
      · cases front with
        | nil =>
            refine ⟨[], d :: last, ?_, ?_⟩
            · simp [splitWhere, hd, htext]
            · simp [splitWhere, hd, hlong]
        | cons piece front =>
            refine ⟨(d :: piece) :: front, last, ?_, ?_⟩
            · simp [splitWhere, hd, htext]
            · simp [splitWhere, hd, hlong]

/-! ## Blanks -/

theorem words_append_cons (hc : isBlank c = true) (front rest : List Char) :
    words (front ++ c :: rest) = words front ++ words rest := by
  rw [words, splitWhere_append_cons hc, List.filter_append, ← words, ← words]

theorem not_isBlank_of_mem_words {text word : List Char} (h : word ∈ words text) :
    ∀ d ∈ word, isBlank d = false :=
  not_isCut_of_mem_splitWhere (List.mem_filter.mp h).1

@[simp] theorem words_nil : words [] = [] := rfl

theorem words_cons (hc : isBlank c = true) (rest : List Char) : words (c :: rest) = words rest :=
  words_append_cons hc [] rest

theorem words_blanks_append {blanks : List Char} (h : ∀ d ∈ blanks, isBlank d = true)
    (rest : List Char) : words (blanks ++ rest) = words rest := by
  induction blanks with
  | nil => rfl
  | cons d blanks ih =>
      rw [List.cons_append, words_cons (h d List.mem_cons_self)]
      exact ih fun e he => h e (List.mem_cons_of_mem d he)

theorem words_blanks {blanks : List Char} (h : ∀ d ∈ blanks, isBlank d = true) :
    words blanks = [] := by
  have hwords := words_blanks_append h []
  rwa [List.append_nil] at hwords

/-- The pieces of a text have the same words if a blank is put in front of it or behind it. -/
theorem map_words_splitWhere_cons (isCut : Char → Bool) (hblank : isBlank c = true)
    (hc : isCut c = false) (text : List Char) :
    (splitWhere isCut (c :: text)).map words = (splitWhere isCut text).map words := by
  obtain ⟨piece, pieces, hpieces⟩ := List.exists_cons_of_ne_nil (splitWhere_ne_nil isCut text)
  simp [splitWhere, hc, hpieces, words_cons hblank]

theorem map_words_splitWhere_concat (isCut : Char → Bool) (hblank : isBlank c = true)
    (hc : isCut c = false) (text : List Char) :
    (splitWhere isCut (text ++ [c])).map words = (splitWhere isCut text).map words := by
  have hmore : ∀ d ∈ [c], isCut d = false := by simpa using hc
  obtain ⟨front, last, htext, hlong⟩ := exists_splitWhere_append hmore text
  rw [htext, hlong]
  simp [words_append_cons hblank]

theorem trim_eq_self {text : List Char} (h : ∀ d ∈ text, isBlank d = false) :
    trim text = text := by
  have hkeep {other : List Char} (hother : ∀ d ∈ other, isBlank d = false) :
      other.dropWhile isBlank = other := by
    cases other with
    | nil => rfl
    | cons d other => simp [hother d List.mem_cons_self]
  rw [trim, trimStart, hkeep h, trimEnd, hkeep fun d hd => h d (List.mem_reverse.mp hd),
    List.reverse_reverse]

/-- Trimming takes blanks off both ends, and nothing else. -/
theorem exists_eq_append_trim (text : List Char) :
    ∃ front back, text = front ++ trim text ++ back ∧
      (∀ d ∈ front, isBlank d = true) ∧ ∀ d ∈ back, isBlank d = true := by
  have htaken {other : List Char} : ∀ d ∈ other.takeWhile isBlank, isBlank d = true :=
    List.all_eq_true.mp List.all_takeWhile
  refine ⟨text.takeWhile isBlank, ((trimStart text).reverse.takeWhile isBlank).reverse, ?_,
    htaken, fun d hd => htaken d (List.mem_reverse.mp hd)⟩
  rw [trim, trimEnd, List.append_assoc, ← List.reverse_append, List.takeWhile_append_dropWhile,
    List.reverse_reverse, trimStart, List.takeWhile_append_dropWhile]

/-- A text without blanks is what is left between blanks. -/
theorem trim_append_append {front text back : List Char} (hfront : ∀ d ∈ front, isBlank d = true)
    (htext : ∀ d ∈ text, isBlank d = false) (hne : text ≠ [])
    (hback : ∀ d ∈ back, isBlank d = true) : trim (front ++ text ++ back) = text := by
  have hkeep {other more : List Char} (hother : ∀ d ∈ other, isBlank d = false)
      (hne : other ≠ []) : (other ++ more).dropWhile isBlank = other ++ more := by
    obtain ⟨d, other, rfl⟩ := List.exists_cons_of_ne_nil hne
    simp [hother d List.mem_cons_self]
  have hreverse : (text.reverse ++ []).dropWhile isBlank = text.reverse ++ [] :=
    hkeep (fun d hd => htext d (List.mem_reverse.mp hd)) (by simpa using hne)
  rw [trim, trimStart, List.append_assoc, List.dropWhile_append_of_pos hfront, hkeep htext hne,
    trimEnd, List.reverse_append,
    List.dropWhile_append_of_pos fun d hd => hback d (List.mem_reverse.mp hd)]
  simpa using congrArg List.reverse hreverse

/-! ## Words put together -/

theorem words_eq_singleton {word : List Char} (hne : word ≠ [])
    (h : ∀ d ∈ word, isBlank d = false) : words word = [word] := by
  simp [words, splitWhere_eq_singleton h, hne]

theorem words_joined {pieces : List (List Char)}
    (h : ∀ piece ∈ pieces, piece ≠ [] ∧ ∀ d ∈ piece, isBlank d = false) :
    words (joined ' ' pieces) = pieces := by
  induction pieces with
  | nil => rfl
  | cons piece pieces ih =>
      obtain ⟨hne, hclean⟩ := h piece List.mem_cons_self
      cases pieces with
      | nil => exact words_eq_singleton hne hclean
      | cons next pieces =>
          have hrest := ih fun other hother => h other (List.mem_cons_of_mem piece hother)
          have hjoined : joined ' ' (piece :: next :: pieces) =
              piece ++ ' ' :: joined ' ' (next :: pieces) := rfl
          rw [hjoined, words_append_cons (by decide), words_eq_singleton hne hclean, hrest]
          rfl

/-- A text that does not begin with a blank begins with its first word. -/
theorem exists_words_eq_cons (hc : isBlank c = false) (text : List Char) :
    ∃ word more, words (c :: text) = (c :: word) :: more := by
  obtain ⟨piece, pieces, hpieces⟩ := List.exists_cons_of_ne_nil (splitWhere_ne_nil isBlank text)
  refine ⟨piece, pieces.filter fun other => !other.isEmpty, ?_⟩
  simp [words, splitWhere, hc, hpieces]

end Text

end FlowFence
