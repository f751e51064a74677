import FlowFence.Proofs.Text.Words
import FlowFence.Route.Reader

/-!
# Match groups

What a part of a match group says depends on its words only, and a part of fewer than two words or
of an unknown key says nothing.
-/

namespace FlowFence

namespace Route

open Text (words joined splitWhere)

variable {criteria : Criteria} {part : List Char} {parts others : List (List Char)}

/-! ## Single parts -/

theorem keyAndValue?_of_words {front : List (List Char)} {value : List Char} (hne : front ≠ [])
    (h : words part = front ++ [value]) : keyAndValue? part = some (joined '_' front, value) := by
  obtain ⟨init, last, rfl⟩ := List.eq_nil_or_concat front |>.resolve_left hne
  simp [keyAndValue?, h]

theorem keyAndValue?_of_length {found : List (List Char)} (h : words part = found)
    (hshort : found.length < 2) : keyAndValue? part = none := by
  match found, hshort with
  | [], _ => simp [keyAndValue?, h]
  | [_], _ => simp [keyAndValue?, h]

theorem addPart_of_none (h : keyAndValue? part = none) : addPart criteria part = .ok criteria := by
  rw [addPart, h]

theorem addPart_of_unknown {spelling value : List Char}
    (h : keyAndValue? part = some (spelling, value)) (hkey : ∀ key : Key, key.spelling ≠ spelling) :
    addPart criteria part = .ok criteria := by
  have hunknown : Key.ofSpelling? spelling = none := by
    simp [Key.ofSpelling?, hkey]
  rw [addPart, h]
  simp [hunknown]

theorem ofSpelling?_spelling (key : Key) : Key.ofSpelling? key.spelling = some key := by
  cases key <;> decide

/-- A part whose first word begins with a closing brace says nothing. -/
theorem addPart_of_brace {word : List Char} {more : List (List Char)}
    (h : words part = ('}' :: word) :: more) : addPart criteria part = .ok criteria := by
  rcases List.eq_nil_or_concat more with rfl | ⟨init, value, rfl⟩
  · exact addPart_of_none (keyAndValue?_of_length h (by simp))
  · have hkey : keyAndValue? part = some (joined '_' (('}' :: word) :: init), value) :=
      keyAndValue?_of_words (by simp) (by simpa using h)
    refine addPart_of_unknown hkey fun key heq => ?_
    have hhead : key.spelling.head? ≠ some '}' := by cases key <;> decide
    simp [heq, Text.joined_cons] at hhead

/-! ## Lists of parts -/

theorem addParts_congr (h : parts.map words = others.map words) (criteria : Criteria) :
    addParts criteria parts = addParts criteria others := by
  induction parts generalizing others criteria with
  | nil =>
      obtain rfl : others = [] := by simpa using h.symm
      rfl
  | cons part parts ih =>
      cases others with
      | nil => simp at h
      | cons other others =>
          rw [List.map_cons, List.map_cons, List.cons.injEq] at h
          have hpart : addPart criteria part = addPart criteria other := by
            simp [addPart, keyAndValue?, h.1]
          rw [addParts, addParts, hpart]
          cases addPart criteria other with
          | error e => rfl
          | ok found => exact ih h.2 found

theorem addParts_append_silent (hsilent : ∀ criteria, addPart criteria part = .ok criteria)
    (criteria : Criteria) : addParts criteria (parts ++ [part]) = addParts criteria parts := by
  induction parts generalizing criteria with
  | nil => simp [addParts, hsilent]
  | cons first parts ih =>
      rw [List.cons_append, addParts, addParts]
      cases addPart criteria first with
      | error e => rfl
      | ok found => exact ih found

/-! ## Whole groups -/

/-- A blank in front of a group or behind it changes nothing. -/
theorem criteria?_cons_blank {c : Char} (hblank : Text.isBlank c = true) (hc : c ≠ ';')
    (group : List Char) : criteria? (c :: group) = criteria? group := by
  have hwords := Text.map_words_splitWhere_cons (· == ';') hblank (by simpa using hc) group
  exact addParts_congr hwords _

theorem criteria?_concat_blank {c : Char} (hblank : Text.isBlank c = true) (hc : c ≠ ';')
    (group : List Char) : criteria? (group ++ [c]) = criteria? group := by
  have hwords := Text.map_words_splitWhere_concat (· == ';') hblank (by simpa using hc) group
  exact addParts_congr hwords _

theorem criteria?_append_cons (group rest : List Char) :
    criteria? (group ++ ';' :: rest) =
      addParts {} (splitWhere (· == ';') group ++ splitWhere (· == ';') rest) := by
  rw [criteria?, Text.splitWhere_append_cons (by simp)]

end Route

end FlowFence
