import FlowFence.Text.Cut
import Mathlib.Data.List.Basic

/-!
# Searching texts that go on

A marker that is found in a text is found at the same place in every longer text. One that cannot
end behind the text is found in it or not at all, so a group that is closed stays as it is.
-/

namespace FlowFence

namespace Text

variable {marker left right text more front rest : List Char}

/-! ## Occurrences -/

theorem after?_append_eq_none {lead : List Char} (h : after? lead text = none)
    (hlength : lead.length ≤ text.length) (more : List Char) :
    after? lead (text ++ more) = none := by
  cases hafter : after? lead (text ++ more) with
  | none => rfl
  | some rest =>
      have heq := eq_append_of_after? hafter
      have hlead : lead <+: text :=
        List.prefix_of_prefix_length_le ⟨rest, heq.symm⟩ (List.prefix_append _ _) hlength
      obtain ⟨tail, rfl⟩ := hlead
      rw [after?_append] at h
      cases h

theorem length_le_of_cut? (h : cut? marker text = some (front, rest)) :
    front.length + marker.length ≤ text.length := by
  have hlength := congrArg List.length (eq_append_of_cut? h)
  simp only [List.length_append] at hlength
  omega

/-- What is found in a text stays found when the text goes on. -/
theorem cut?_append (h : cut? marker text = some (front, rest)) (more : List Char) :
    cut? marker (text ++ more) = some (front, rest ++ more) := by
  induction text generalizing front with
  | nil =>
      have hlength := length_le_of_cut? h
      have hmarker : marker = [] := List.eq_nil_of_length_eq_zero (by
        rw [List.length_nil] at hlength
        omega)
      subst hmarker
      cases h
      cases more <;> rfl
  | cons c text ih =>
      have hlength := length_le_of_cut? h
      unfold cut? at h
      rw [List.cons_append, cut?]
      cases hafter : after? marker (c :: text) with
      | some tail =>
          rw [hafter] at h
          cases h
          have heq := eq_append_of_after? hafter
          rw [← List.cons_append, heq, List.append_assoc, after?_append]
      | none =>
          have hnone := after?_append_eq_none hafter (by omega) more
          rw [List.cons_append] at hnone
          rw [hafter] at h
          obtain ⟨⟨front', rest'⟩, hcut, heq⟩ := Option.map_eq_some_iff.mp h
          cases heq
          rw [hnone, ih hcut]
          rfl

theorem isSome_cut? (marker front rest : List Char) :
    (cut? marker (front ++ marker ++ rest)).isSome = true := by
  induction front with
  | nil =>
      have hfound : cut? marker (marker ++ []) = some ([], []) := by
        cases hmarker : marker with
        | nil => rfl
        | cons c tail => rw [List.cons_append, cut?, ← List.cons_append, after?_append]
      have hmore := cut?_append hfound rest
      rw [List.append_nil] at hmore
      rw [List.nil_append, hmore]
      rfl
  | cons c front ih =>
      rw [List.cons_append, List.cons_append, cut?]
      cases after? marker (c :: (front ++ marker ++ rest)) with
      | some tail => rfl
      | none => simpa using ih

/-- If no occurrence of a marker ends behind a text, going on does not make one. -/
theorem cut?_append_eq_map (hends : ∀ front rest, text ++ more = front ++ marker ++ rest →
      front.length + marker.length ≤ text.length) :
    cut? marker (text ++ more) =
      (cut? marker text).map fun found => (found.1, found.2 ++ more) := by
  cases hcut : cut? marker text with
  | some found => exact cut?_append hcut more
  | none =>
      cases hlong : cut? marker (text ++ more) with
      | none => rfl
      | some found =>
          have heq := eq_append_of_cut? hlong
          have hinside : found.1 ++ marker <+: text := by
            refine List.prefix_of_prefix_length_le ⟨found.2, heq.symm⟩
              (List.prefix_append _ more) ?_
            rw [List.length_append]
            exact hends _ _ heq
          obtain ⟨tail, rfl⟩ := hinside
          have hsome := isSome_cut? marker found.1 tail
          rw [hcut] at hsome
          cases hsome

theorem cut?_append_of_last_not_mem {last : Char} (h : last ∉ more) :
    cut? (marker ++ [last]) (text ++ more) =
      (cut? (marker ++ [last]) text).map fun found => (found.1, found.2 ++ more) := by
  apply cut?_append_eq_map
  intro front rest heq
  simp only [List.length_append, List.length_singleton]
  have hlast : (text ++ more)[front.length + marker.length]? = some last := by
    rw [heq, ← List.append_assoc, List.append_assoc (front ++ marker),
      List.getElem?_append_right (by simp)]
    simp
  apply Nat.le_of_not_lt
  intro hlong
  rw [List.getElem?_append_right (by omega)] at hlast
  exact h (List.mem_of_getElem? hlast)

theorem cut?_append_of_pair {first second : Char} (hfirst : first ∉ more)
    (hsecond : more.head? ≠ some second) :
    cut? [first, second] (text ++ more) =
      (cut? [first, second] text).map fun found => (found.1, found.2 ++ more) := by
  apply cut?_append_eq_map
  intro front rest heq
  have hlead : (text ++ more)[front.length]? = some first := by simp [heq]
  have hnext : (text ++ more)[front.length + 1]? = some second := by simp [heq]
  have hinside : front.length < text.length := by
    apply Nat.lt_of_not_le
    intro hlong
    rw [List.getElem?_append_right (by omega)] at hlead
    exact hfirst (List.mem_of_getElem? hlead)
  apply Nat.le_of_not_lt
  intro hlong
  have hedge : front.length + 1 = text.length := by
    simp only [List.length_cons, List.length_nil] at hlong
    omega
  rw [hedge, List.getElem?_append_right (Nat.le_refl _), Nat.sub_self, ← List.head?_eq_getElem?]
    at hnext
  exact hsecond hnext

/-- A marker is found at its end if no character like its last one stands before that. -/
theorem cut?_of_last_not_mem {last : Char} (h : last ∉ front ++ marker) (rest : List Char) :
    cut? (marker ++ [last]) (front ++ marker ++ last :: rest) = some (front, rest) := by
  have hsome := isSome_cut? (marker ++ [last]) front []
  obtain ⟨⟨found, tail⟩, hcut⟩ := Option.isSome_iff_exists.mp hsome
  have heq := eq_append_of_cut? hcut
  simp only [List.append_nil, List.append_assoc, List.singleton_append] at heq
  rw [← List.append_assoc, ← List.append_assoc,
    List.append_cons_inj_of_notMem h List.not_mem_nil] at heq
  obtain ⟨hfound, -, rfl⟩ := heq
  obtain rfl : front = found := List.append_cancel_right hfound
  have hlong := cut?_append hcut rest
  simpa using hlong

/-- A marker that ends with a character of which a text has only one ends there or nowhere. -/
theorem cut?_eq_none_of_last_once {last : Char} (hfront : last ∉ front) (hrest : last ∉ rest)
    (h : ∀ lead, front ≠ lead ++ marker) :
    cut? (marker ++ [last]) (front ++ last :: rest) = none := by
  cases hcut : cut? (marker ++ [last]) (front ++ last :: rest) with
  | none => rfl
  | some found =>
      have heq := eq_append_of_cut? hcut
      simp only [List.append_assoc, List.singleton_append] at heq
      rw [← List.append_assoc, List.append_cons_inj_of_notMem hfront hrest] at heq
      exact (h found.1 heq.1).elim

theorem cut?_append_of_not_mem {lead : Char} {marker piece : List Char} (h : lead ∉ piece)
    (rest : List Char) :
    cut? (lead :: marker) (piece ++ rest) =
      (cut? (lead :: marker) rest).map fun found => (piece ++ found.1, found.2) := by
  induction piece with
  | nil => simp
  | cons c piece ih =>
      have hc : lead ≠ c := fun heq => h (heq ▸ List.mem_cons_self)
      rw [List.cons_append, cut?, after?, if_neg hc,
        ih fun hmem => h (List.mem_cons_of_mem c hmem), Option.map_map]
      rfl

/-- A pair is not found at its second character if the text before does not end with the first. -/
theorem cut?_pair_append {first second : Char} (hne : first ≠ second) (hmem : second ∉ text)
    (hopen : ∀ lead, text ≠ lead ++ [first]) (more : List Char) :
    cut? [first, second] (text ++ second :: more) =
      (cut? [first, second] more).map fun found => (text ++ second :: found.1, found.2) := by
  induction text with
  | nil => simp [cut?, after?, hne]
  | cons c text ih =>
      have htext := ih (fun h => hmem (List.mem_cons_of_mem c h)) fun lead hlead =>
        hopen (c :: lead) (by simp [hlead])
      have hnone : after? [first, second] (c :: (text ++ second :: more)) = none := by
        by_cases hc : first = c
        · cases text with
          | nil => exact (hopen [] (by simp [hc])).elim
          | cons d text =>
              have hd : second ≠ d := fun heq => hmem (by simp [heq])
              simp [after?, hc, hd]
        · simp [after?, hc]
      rw [List.cons_append, cut?, hnone, htext, Option.map_map]
      rfl

theorem cut?_singleton_append {mark : Char} {piece : List Char} (h : mark ∉ piece)
    (rest : List Char) :
    cut? [mark] (piece ++ rest) =
      (cut? [mark] rest).map fun found => (piece ++ found.1, found.2) :=
  cut?_append_of_not_mem h rest

theorem cut?_singleton_eq_none_iff {mark : Char} : cut? [mark] text = none ↔ mark ∉ text := by
  constructor
  · intro h hmem
    obtain ⟨front, rest, rfl⟩ := List.append_of_mem hmem
    have hsome := isSome_cut? [mark] front rest
    rw [List.append_assoc, List.singleton_append, h] at hsome
    cases hsome
  · intro h
    have hcut := cut?_singleton_append h []
    rw [List.append_nil] at hcut
    rw [hcut]
    rfl

/-! ## Groups -/

theorem upTo_append (h : (cut? marker text).isSome = true) (more : List Char) :
    upTo marker (text ++ more) = upTo marker text := by
  obtain ⟨found, hfound⟩ := Option.isSome_iff_exists.mp h
  rw [upTo, upTo, hfound, cut?_append hfound]

theorem upTo_eq_self (h : cut? marker text = none) : upTo marker text = text := by
  rw [upTo, h]

theorem upTo_subset (marker text : List Char) : upTo marker text ⊆ text := by
  unfold upTo
  split
  · rename_i front rest hcut
    rw [eq_append_of_cut? hcut, List.append_assoc]
    exact List.subset_append_left _ _
  · exact List.Subset.refl _

theorem upTo_append_of_not_mem {mark : Char} (h : mark ∉ text) (more : List Char) :
    upTo [mark] (text ++ more) = text ++ upTo [mark] more := by
  rw [upTo, cut?_singleton_append h, upTo]
  cases cut? [mark] more <;> rfl

def Closes (left right text : List Char) : Prop :=
  ∃ front rest, cut? left text = some (front, rest) ∧ (cut? right rest).isSome = true

theorem closes_iff : Closes left right text ↔
    ((cut? left text).any fun found => (cut? right found.2).isSome) = true := by
  simp [Closes, Option.any_eq_true]

instance : Decidable (Closes left right text) :=
  decidable_of_iff _ closes_iff.symm

theorem Closes.append (h : Closes left right text) (more : List Char) :
    Closes left right (text ++ more) := by
  obtain ⟨front, rest, hleft, hright⟩ := h
  refine ⟨front, rest ++ more, cut?_append hleft more, ?_⟩
  obtain ⟨found, hfound⟩ := Option.isSome_iff_exists.mp hright
  rw [cut?_append hfound]
  rfl

theorem between_append_of_closes (h : Closes left right text) (more : List Char) :
    between left right (text ++ more) = between left right text := by
  obtain ⟨front, rest, hleft, hright⟩ := h
  simp only [between, hleft, cut?_append hleft, upTo_append hright]

theorem between_append_of_not_mem {lead : Char} {piece : List Char} (h : lead ∉ piece) :
    between (lead :: left) right (piece ++ text) = between (lead :: left) right text := by
  rw [between, cut?_append_of_not_mem h, between]
  cases cut? (lead :: left) text <;> rfl

theorem between_of_cut? {mark : Char} {group : List Char}
    (h : cut? left text = some (front, group ++ mark :: rest)) (hgroup : mark ∉ group) :
    between left [mark] text = group := by
  have hgroup := upTo_append_of_not_mem hgroup (mark :: rest)
  simpa [between, h, upTo, cut?, after?] using hgroup

/-- A character that neither marker ends with closes no group. -/
theorem closes_of_closes_append_singleton {a b c : Char} (hleft : c ≠ a) (hright : c ≠ b)
    (h : Closes (left ++ [a]) (right ++ [b]) (text ++ [c])) :
    Closes (left ++ [a]) (right ++ [b]) text := by
  obtain ⟨front, rest, hfront, hrest⟩ := h
  rw [cut?_append_of_last_not_mem (by simpa using hleft.symm)] at hfront
  obtain ⟨⟨front', rest'⟩, hcut, heq⟩ := Option.map_eq_some_iff.mp hfront
  cases heq
  rw [cut?_append_of_last_not_mem (by simpa using hright.symm), Option.isSome_map] at hrest
  exact ⟨_, rest', hcut, hrest⟩

/-! ## Pieces -/

theorem splitOn_ne_nil (marker text : List Char) : splitOn marker text ≠ [] := by
  unfold splitOn
  cases text.length with
  | zero => simp [splitOnFuel]
  | succ fuel =>
      rw [splitOnFuel]
      split <;> simp

theorem splitOnFuel_eq (hmarker : marker ≠ []) {fuel : Nat} (h : text.length ≤ fuel) :
    splitOnFuel marker fuel text = splitOn marker text := by
  unfold splitOn
  suffices ∀ (enough : Nat), text.length ≤ enough →
      splitOnFuel marker fuel text = splitOnFuel marker enough text from this _ (Nat.le_refl _)
  have hpositive := List.length_pos_iff.mpr hmarker
  have hnil (count : Nat) : splitOnFuel marker count [] = [[]] := by
    cases count with
    | zero => rfl
    | succ count =>
        cases hcut : cut? marker [] with
        | none => rw [splitOnFuel, hcut]
        | some found =>
            have hlength := length_le_of_cut? hcut
            rw [List.length_nil] at hlength
            omega
  induction fuel generalizing text with
  | zero =>
      intro enough _
      obtain rfl := List.eq_nil_of_length_eq_zero (Nat.le_zero.mp h)
      rw [hnil, hnil]
  | succ fuel ih =>
      intro enough henough
      cases enough with
      | zero =>
          obtain rfl := List.eq_nil_of_length_eq_zero (Nat.le_zero.mp henough)
          rw [hnil, hnil]
      | succ enough =>
          rw [splitOnFuel, splitOnFuel]
          cases hcut : cut? marker text with
          | none => rfl
          | some found =>
              have hlength := congrArg List.length (eq_append_of_cut? hcut)
              simp only [List.length_append] at hlength
              dsimp only
              rw [ih (by omega) enough (by omega)]

theorem splitOn_of_cut? (hmarker : marker ≠ []) (h : cut? marker text = some (front, rest)) :
    splitOn marker text = front :: splitOn marker rest := by
  have hpositive := List.length_pos_iff.mpr hmarker
  have hlength := congrArg List.length (eq_append_of_cut? h)
  simp only [List.length_append] at hlength
  rw [← splitOnFuel_eq hmarker (Nat.le_succ text.length), splitOnFuel, h]
  dsimp only
  rw [splitOnFuel_eq hmarker (by omega)]

theorem splitOn_of_cut?_eq_none (hmarker : marker ≠ []) (h : cut? marker text = none) :
    splitOn marker text = [text] := by
  rw [← splitOnFuel_eq hmarker (Nat.le_succ text.length), splitOnFuel, h]

theorem splitOn_of_not_mem {lead : Char} (h : lead ∉ text) :
    splitOn (lead :: marker) text = [text] := by
  have hnone : cut? (lead :: marker) text = none := by
    have hcut : cut? (lead :: marker) (text ++ []) = _ := cut?_append_of_not_mem h []
    simpa [cut?, after?] using hcut
  exact splitOn_of_cut?_eq_none (by simp) hnone

theorem splitOn_append {lead : Char} {piece : List Char} (h : lead ∉ piece) (rest : List Char) :
    splitOn (lead :: marker) (piece ++ (lead :: marker ++ rest)) =
      piece :: splitOn (lead :: marker) rest := by
  have hfound : cut? (lead :: marker) (lead :: marker ++ rest) = some ([], rest) := by
    rw [List.cons_append, cut?, ← List.cons_append, after?_append]
  refine splitOn_of_cut? (by simp) ?_
  rw [cut?_append_of_not_mem h, hfound]
  simp

/-! ## First lines -/

theorem firstLine_append (h : '\n' ∈ text) (more : List Char) :
    firstLine (text ++ more) = firstLine text := by
  cases hcut : cut? ['\n'] text with
  | none => exact (cut?_singleton_eq_none_iff.mp hcut h).elim
  | some found => simp only [firstLine, hcut, cut?_append hcut]

theorem firstLine_of_not_mem (h : '\n' ∉ text) : firstLine text = text := by
  rw [firstLine, cut?_singleton_eq_none_iff.mpr h]

@[simp] theorem before?_append (text tail : List Char) :
    before? tail (text ++ tail) = some text := by
  simp [before?]

theorem before?_eq_some_iff {tail text front : List Char} :
    before? tail text = some front ↔ text = front ++ tail := by
  constructor
  · intro h
    obtain ⟨back, hback, rfl⟩ := Option.map_eq_some_iff.mp h
    simpa using congrArg List.reverse (eq_append_of_after? hback)
  · rintro rfl
    exact before?_append front tail

theorem before?_singleton_eq_none {mark : Char} (h : mark ∉ text) : before? [mark] text = none := by
  cases hback : before? [mark] text with
  | none => rfl
  | some front =>
      rw [before?_eq_some_iff] at hback
      exact (h (by simp [hback])).elim

theorem firstLine_append_of_not_mem (hfeed : '\n' ∉ text) (hreturn : '\r' ∉ text)
    (hmore : more = [] ∨ more.head? = some '\n') : firstLine (text ++ more) = text := by
  rcases hmore with rfl | hmore
  · rw [List.append_nil, firstLine_of_not_mem hfeed]
  · obtain ⟨rest, rfl⟩ := List.head?_eq_some_iff.mp hmore
    have hcut := cut?_singleton_append hfeed ('\n' :: rest)
    simp [cut?, after?] at hcut
    rw [firstLine, hcut]
    simp [before?_singleton_eq_none hreturn]

/-- The first line of a text that goes on goes on too, but for a carriage return. -/
theorem exists_firstLine_append (h : '\n' ∉ text) (more : List Char) :
    ∃ tail, firstLine (text ++ more) = text ++ tail ∨
      firstLine (text ++ more) ++ ['\r'] = text ++ tail := by
  have hlong := cut?_singleton_append h more
  cases hcut : cut? ['\n'] more with
  | none =>
      rw [hcut] at hlong
      exact ⟨more, .inl (by rw [firstLine, hlong]; rfl)⟩
  | some found =>
      rw [hcut] at hlong
      have hline : firstLine (text ++ more) =
          (before? ['\r'] (text ++ found.1)).getD (text ++ found.1) := by
        rw [firstLine, hlong]
        rfl
      rw [hline]
      cases hbefore : before? ['\r'] (text ++ found.1) with
      | none => exact ⟨found.1, .inl rfl⟩
      | some line =>
          exact ⟨found.1, .inr (before?_eq_some_iff.mp hbefore).symm⟩

/-- A first line begins with every part of it that has no line end. -/
theorem exists_firstLine_eq_append (hfeed : '\n' ∉ text) (hreturn : '\r' ∉ text)
    (more : List Char) : ∃ tail, firstLine (text ++ more) = text ++ tail := by
  obtain ⟨tail, hline | hline⟩ := exists_firstLine_append hfeed more
  · exact ⟨tail, hline⟩
  · rcases List.eq_nil_or_concat tail with rfl | ⟨tail, c, rfl⟩
    · have hmem : '\r' ∈ text ++ [] := hline ▸ List.mem_append_right _ (List.mem_singleton_self _)
      exact (hreturn (by simpa using hmem)).elim
    · rw [List.concat_eq_append, ← List.append_assoc] at hline
      exact ⟨tail, (List.append_inj' hline rfl).1⟩

theorem firstLine_isFront (text : List Char) : firstLine text <+: text := by
  cases hcut : cut? ['\n'] text with
  | none =>
      have hline : firstLine text = text := by rw [firstLine, hcut]
      exact ⟨[], by rw [hline, List.append_nil]⟩
  | some found =>
      have hline : found.1 <+: text := ⟨_, by simpa using (eq_append_of_cut? hcut).symm⟩
      rw [firstLine, hcut]
      cases hbefore : before? ['\r'] found.1 with
      | none => simpa [hbefore] using hline
      | some line =>
          have hfront : line <+: found.1 := ⟨_, (before?_eq_some_iff.mp hbefore).symm⟩
          simpa [hbefore] using hfront.trans hline

theorem before?_singleton_concat (mark c : Char) (text : List Char) :
    before? [mark] (text ++ [c]) = if mark = c then some text else none := by
  by_cases hmark : mark = c
  · rw [if_pos hmark, hmark, before?_append]
  · rw [if_neg hmark, before?, List.reverse_append]
    simp [after?, hmark]

/-- What stands in front of a line that is not empty stays in front of it. -/
theorem firstLine_append_cons {c : Char} (hfeed : '\n' ∉ text) (hc : c ≠ '\n')
    (more : List Char) : firstLine (text ++ c :: more) = text ++ firstLine (c :: more) := by
  have hlong := cut?_singleton_append hfeed (c :: more)
  cases hcut : cut? ['\n'] (c :: more) with
  | none =>
      rw [hcut, Option.map_none] at hlong
      rw [firstLine, firstLine, hlong, hcut]
  | some found =>
      rw [hcut, Option.map_some] at hlong
      have hne : found.1 ≠ [] := by
        intro hnil
        have heq := eq_append_of_cut? hcut
        rw [hnil, List.nil_append, List.singleton_append] at heq
        exact hc (List.cons.inj heq).1
      obtain ⟨line, last, hline⟩ := List.eq_nil_or_concat found.1 |>.resolve_left hne
      rw [List.concat_eq_append] at hline
      rw [firstLine, firstLine, hlong, hcut]
      dsimp only
      rw [hline, ← List.append_assoc, before?_singleton_concat, before?_singleton_concat]
      by_cases hreturn : '\r' = last
      · rw [if_pos hreturn, if_pos hreturn, Option.getD_some, Option.getD_some]
      · rw [if_neg hreturn, if_neg hreturn, Option.getD_none, Option.getD_none, List.append_assoc]

/-- A group that is closed in the part of a line that is there stays as it is. -/
theorem between_firstLine_append {a b : Char} (hleft : '\r' ≠ a) (hright : '\r' ≠ b)
    (hline : '\n' ∉ text) (h : Closes (left ++ [a]) (right ++ [b]) text) (more : List Char) :
    between (left ++ [a]) (right ++ [b]) (firstLine (text ++ more)) =
      between (left ++ [a]) (right ++ [b]) text := by
  obtain ⟨tail, hlong | hlong⟩ := exists_firstLine_append hline more
  · rw [hlong, between_append_of_closes h]
  · have hclosed := h.append tail
    rw [← hlong] at hclosed
    have hgroup := between_append_of_closes
      (closes_of_closes_append_singleton hleft hright hclosed) ['\r']
    rw [← hgroup, hlong, between_append_of_closes h]

end Text

end FlowFence
