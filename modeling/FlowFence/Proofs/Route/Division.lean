import FlowFence.Proofs.Route.Blocks

/-!
# The division of a dump

Every block of a dump begins with a marker that is whole in the block. No marker can lie across the
place where another one begins, so a dump with a text behind it that begins with a marker has the
blocks of the dump and then those of the text.
-/

namespace FlowFence

namespace Dump

variable {text rest : List Char}

/-- A text without the first letter of a marker is skipped on the way to the next block. -/
theorem preamble_append_of_not_mem (h : 'f' ∉ text) (rest : List Char) :
    preamble (text ++ rest) = text ++ preamble rest := by
  induction text with
  | nil => rfl
  | cons c text ih =>
      have hc : c ≠ 'f' := fun hc => h (hc ▸ List.mem_cons_self)
      rw [List.cons_append, preamble_cons_of_not_startsBlock (startsBlock_of_head_ne hc),
        ih fun hmem => h (List.mem_cons_of_mem c hmem), List.cons_append]

/-- The marker that a block begins with does not go beyond the block. -/
theorem startsBlock_cons_preamble {c : Char} (h : startsBlock (c :: rest) = true) :
    startsBlock (c :: preamble rest) = true := by
  obtain ⟨digit, blanks, tail, heq, hdigit, hblanks⟩ := startsBlock_iff.mp h
  obtain ⟨rfl, htail⟩ := List.cons.inj heq
  have hrest : rest = ('l' :: 'o' :: 'w' :: digit :: blanks ++ ['{']) ++ tail := by
    simpa using htail
  rw [hrest, preamble_append_of_not_mem (not_mem_marker_tail hdigit hblanks)]
  exact startsBlock_iff.mpr ⟨digit, blanks, preamble tail, by simp, hdigit, hblanks⟩

theorem startsBlock_of_mem_blocks {block dump : List Char} (h : block ∈ blocks dump) :
    startsBlock block = true := by
  induction dump with
  | nil => simp at h
  | cons c rest ih =>
      by_cases hstarts : startsBlock (c :: rest) = true
      · rw [blocks_cons_of_startsBlock hstarts] at h
        rcases List.mem_cons.mp h with rfl | htail
        · exact startsBlock_cons_preamble hstarts
        · exact ih htail
      · rw [blocks_cons_of_not_startsBlock (Bool.eq_false_iff.mpr hstarts)] at h
        exact ih h

/-! ## Dumps put together -/

/-- A marker that begins in a text ends there if another marker begins behind the text. -/
theorem startsBlock_cons_append (h : startsBlock rest = true) (c : Char) (text : List Char) :
    startsBlock (c :: (text ++ rest)) = startsBlock (c :: text) := by
  obtain ⟨_, _, _, hnext, -⟩ := startsBlock_iff.mp h
  rw [Bool.eq_iff_iff, startsBlock_iff, startsBlock_iff]
  constructor
  · rintro ⟨digit, blanks, tail, heq, hdigit, hblanks⟩
    obtain ⟨rfl, htail⟩ := List.cons.inj heq
    have hsplit : text ++ rest = ('l' :: 'o' :: 'w' :: digit :: blanks ++ ['{']) ++ tail := by
      simpa using htail
    rcases List.append_eq_append_iff.mp hsplit with ⟨across, hmarker, hrest⟩ | ⟨behind, htext, -⟩
    · cases across with
      | nil => exact ⟨digit, blanks, [], by simpa using hmarker.symm, hdigit, hblanks⟩
      | cons first across =>
          -- the marker behind the text would begin inside of this one
          rw [hnext] at hrest
          obtain ⟨rfl, -⟩ := List.cons.inj hrest
          have hmem : 'f' ∈ 'l' :: 'o' :: 'w' :: digit :: blanks ++ ['{'] := by simp [hmarker]
          exact (not_mem_marker_tail hdigit hblanks hmem).elim
    · exact ⟨digit, blanks, behind, by simpa using htext, hdigit, hblanks⟩
  · rintro ⟨digit, blanks, tail, heq, hdigit, hblanks⟩
    obtain ⟨rfl, rfl⟩ := List.cons.inj heq
    exact ⟨digit, blanks, tail ++ rest, by simp, hdigit, hblanks⟩

theorem preamble_append (h : startsBlock rest = true) (text : List Char) :
    preamble (text ++ rest) = preamble text := by
  induction text with
  | nil =>
      cases rest with
      | nil => rfl
      | cons c rest => exact preamble_cons_of_startsBlock h
  | cons c text ih =>
      have hsame := startsBlock_cons_append h c text
      rw [List.cons_append]
      cases hstarts : startsBlock (c :: text) with
      | true =>
          rw [hstarts] at hsame
          rw [preamble_cons_of_startsBlock hsame, preamble_cons_of_startsBlock hstarts]
      | false =>
          rw [hstarts] at hsame
          rw [preamble_cons_of_not_startsBlock hsame, preamble_cons_of_not_startsBlock hstarts, ih]

theorem blocks_append (h : startsBlock rest = true) (text : List Char) :
    blocks (text ++ rest) = blocks text ++ blocks rest := by
  induction text with
  | nil => rfl
  | cons c text ih =>
      have hsame := startsBlock_cons_append h c text
      rw [List.cons_append]
      cases hstarts : startsBlock (c :: text) with
      | true =>
          rw [hstarts] at hsame
          rw [blocks_cons_of_startsBlock hsame, blocks_cons_of_startsBlock hstarts, ih,
            preamble_append h, List.cons_append]
      | false =>
          rw [hstarts] at hsame
          rw [blocks_cons_of_not_startsBlock hsame, blocks_cons_of_not_startsBlock hstarts, ih]

end Dump

end FlowFence
