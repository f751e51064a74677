import FlowFence.Text.Blank

/-!
# Cutting a text at a marker

Search for a marker inside a text: what follows it when it leads, the two sides of its first
occurrence, the group between two markers, and the pieces between all its occurrences; and pieces
put together again.
-/

namespace FlowFence

namespace Text

def after? : (lead text : List Char) → Option (List Char)
  | [], text => some text
  | _ :: _, [] => none
  | l :: lead, c :: text => if l = c then after? lead text else none

def before? (tail text : List Char) : Option (List Char) :=
  (after? tail.reverse text.reverse).map List.reverse

def cut? (marker : List Char) : List Char → Option (List Char × List Char)
  | [] => (after? marker []).map fun rest => ([], rest)
  | c :: text =>
      match after? marker (c :: text) with
      | some rest => some ([], rest)
      | none => (cut? marker text).map fun (front, rest) => (c :: front, rest)

/-- The text before the first occurrence of `marker`; all of it when there is none. -/
def upTo (marker text : List Char) : List Char :=
  match cut? marker text with
  | some (front, _) => front
  | none => text

/--
The group between the first `left` and the next `right` after it. It is empty when `left` is
absent, and the whole remainder when `right` is absent.
-/
def between (left right text : List Char) : List Char :=
  match cut? left text with
  | some (_, rest) => upTo right rest
  | none => []

/-- Fuelled worker of `splitOn`: each unit of fuel takes off one piece. -/
def splitOnFuel (marker : List Char) : Nat → List Char → List (List Char)
  | 0, text => [text]
  | fuel + 1, text =>
      match cut? marker text with
      | some (front, rest) => front :: splitOnFuel marker fuel rest
      | none => [text]

/--
The pieces between the occurrences of a marker, found from the left and not overlapping. There
are at most as many occurrences of a marker that is not empty as characters.
-/
def splitOn (marker text : List Char) : List (List Char) :=
  splitOnFuel marker text.length text

def cutLast? (mark : Char) (text : List Char) : Option (List Char × List Char) :=
  match cut? [mark] text.reverse with
  | some (back, front) => some (front.reverse, back.reverse)
  | none => none

/-- The first line of a text, without its line end (a line feed and one carriage return before). -/
def firstLine (text : List Char) : List Char :=
  match cut? ['\n'] text with
  | some (line, _) => (before? ['\r'] line).getD line
  | none => text

def joined (mark : Char) : List (List Char) → List Char
  | [] => []
  | [piece] => piece
  | piece :: pieces => piece ++ mark :: joined mark pieces

/-! ## Laws -/

@[simp] theorem after?_append (lead rest : List Char) : after? lead (lead ++ rest) = some rest := by
  induction lead with
  | nil => rfl
  | cons l lead ih => simp [after?, ih]

theorem eq_append_of_after? {lead text rest : List Char} (h : after? lead text = some rest) :
    text = lead ++ rest := by
  induction lead generalizing text with
  | nil =>
      simp only [after?, Option.some.injEq] at h
      simpa using h
  | cons l lead ih =>
      cases text with
      | nil => simp [after?] at h
      | cons c text =>
          by_cases hl : l = c
          · simp only [after?, hl, if_true] at h
            simp [hl, ih h]
          · simp [after?, hl] at h

theorem eq_append_of_cut? {marker text front rest : List Char}
    (h : cut? marker text = some (front, rest)) : text = front ++ marker ++ rest := by
  induction text generalizing front with
  | nil =>
      simp only [cut?, Option.map_eq_some_iff, Prod.mk.injEq] at h
      obtain ⟨tail, htail, rfl, rfl⟩ := h
      simpa using eq_append_of_after? htail
  | cons c text ih =>
      unfold cut? at h
      split at h
      · rename_i tail htail
        simp only [Option.some.injEq, Prod.mk.injEq] at h
        obtain ⟨rfl, rfl⟩ := h
        simpa using eq_append_of_after? htail
      · simp only [Option.map_eq_some_iff, Prod.mk.injEq] at h
        obtain ⟨⟨front', rest'⟩, hcut, rfl, rfl⟩ := h
        have htext := ih hcut
        simpa using htext

end Text

end FlowFence
