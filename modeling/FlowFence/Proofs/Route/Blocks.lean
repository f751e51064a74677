import FlowFence.Proofs.ControlSocket.EarlyEnd
import FlowFence.Proofs.Route.Cuts
import FlowFence.Route.Dump
import Mathlib.Data.List.Forall2

/-!
# Blocks of dumps that begin alike

A dump that ends early has the first blocks of the dump that goes on. The last of them may be a
front of its block, or its block with the beginning of the next marker behind it.
-/

namespace FlowFence

namespace Dump

open ControlSocket (IsLineEnd)

/-! ## Markers -/

theorem startsBlock_iff {text : List Char} :
    startsBlock text = true ↔
      ∃ digit blanks rest, text = 'f' :: 'l' :: 'o' :: 'w' :: digit :: blanks ++ '{' :: rest ∧
        (digit = '4' ∨ digit = '6') ∧ ∀ c ∈ blanks, Text.isBlank c = true := by
  constructor
  · intro h
    unfold startsBlock at h
    split at h
    · rename_i digit tail
      rw [Bool.and_eq_true, Bool.or_eq_true, beq_iff_eq, beq_iff_eq, beq_iff_eq,
        List.head?_eq_some_iff] at h
      obtain ⟨hdigit, rest, hrest⟩ := h
      refine ⟨digit, tail.takeWhile Text.isBlank, rest, ?_, hdigit, ?_⟩
      · rw [List.cons_append, List.cons_append, List.cons_append, List.cons_append,
          List.cons_append, ← hrest, List.takeWhile_append_dropWhile]
      · intro c hc
        exact List.all_eq_true.mp List.all_takeWhile c hc
    · cases h
  · rintro ⟨digit, blanks, rest, rfl, hdigit, hblanks⟩
    have hdrop : (blanks ++ '{' :: rest).dropWhile Text.isBlank = '{' :: rest := by
      rw [List.dropWhile_append_of_pos hblanks]
      rfl
    simp only [List.cons_append, startsBlock, hdrop]
    rcases hdigit with rfl | rfl <;> rfl

theorem startsBlock_of_head_ne {c : Char} {rest : List Char} (h : c ≠ 'f') :
    startsBlock (c :: rest) = false := by
  rw [Bool.eq_false_iff]
  intro hstarts
  obtain ⟨digit, blanks, tail, heq, -⟩ := startsBlock_iff.mp hstarts
  exact h (List.cons.inj heq).1

/-- The characters of a marker behind the first one. -/
theorem not_mem_marker_tail {digit : Char} {blanks : List Char} (hdigit : digit = '4' ∨ digit = '6')
    (hblanks : ∀ c ∈ blanks, Text.isBlank c = true) :
    'f' ∉ 'l' :: 'o' :: 'w' :: digit :: blanks ++ ['{'] := by
  intro hmem
  have hblank : 'f' ∉ blanks := fun h => absurd (hblanks _ h) (by decide)
  rcases hdigit with rfl | rfl <;> simp [hblank] at hmem

/-- A marker that begins in a text is whole there, or the text ends inside of it. -/
theorem startsBlock_append_cases {text more : List Char} (h : startsBlock (text ++ more) = true) :
    (∀ other, startsBlock (text ++ other) = true) ∨
      ∃ digit blanks, text <+: 'f' :: 'l' :: 'o' :: 'w' :: digit :: blanks ∧
        (digit = '4' ∨ digit = '6') ∧ ∀ c ∈ blanks, Text.isBlank c = true := by
  obtain ⟨digit, blanks, rest, heq, hdigit, hblanks⟩ := startsBlock_iff.mp h
  have hmarker : text ++ more = ('f' :: 'l' :: 'o' :: 'w' :: digit :: blanks ++ ['{']) ++ rest := by
    simpa using heq
  rcases List.append_eq_append_iff.mp hmarker with ⟨tail, hlong, -⟩ | ⟨tail, rfl, -⟩
  · have hfront : text <+: 'f' :: 'l' :: 'o' :: 'w' :: digit :: blanks ++ ['{'] :=
      ⟨tail, hlong.symm⟩
    rcases List.prefix_concat_iff.mp hfront with rfl | hinside
    · refine .inl fun other => startsBlock_iff.mpr ⟨digit, blanks, other, ?_, hdigit, hblanks⟩
      simp
    · exact .inr ⟨digit, blanks, hinside, hdigit, hblanks⟩
  · refine .inl fun other =>
      startsBlock_iff.mpr ⟨digit, blanks, tail ++ other, ?_, hdigit, hblanks⟩
    simp

/-! ## Trimmings -/

def markerLetters : List Char := "flow46".toList

/-- Whether a text is nothing but a line end or the beginning of a marker, or may pass for that. -/
structure IsTrimming (tail : List Char) : Prop where
  chars : ∀ c ∈ tail, Text.isBlank c = true ∨ c ∈ markerLetters
  blank : tail.head? ≠ some ' '

theorem IsTrimming.inert {tail : List Char} (h : IsTrimming tail) : Route.Inert tail where
  opening hmem := absurd (h.chars _ hmem) (by decide)
  closing hmem := absurd (h.chars _ hmem) (by decide)
  comma hmem := absurd (h.chars _ hmem) (by decide)
  blank := h.blank

theorem IsTrimming.of_front {tail front : List Char} (h : IsTrimming tail)
    (hfront : front <+: tail) :
    IsTrimming front where
  chars c hc := h.chars c (hfront.subset hc)
  blank := by
    obtain ⟨more, rfl⟩ := hfront
    intro hhead
    apply h.blank
    rw [List.head?_append, hhead]
    rfl

theorem isTrimming_lineEnd {ending : List Char} (h : IsLineEnd ending) : IsTrimming ending := by
  have hfeed : Text.isBlank '\n' = true := rfl
  have hreturn : Text.isBlank '\r' = true := rfl
  rcases h with rfl | rfl | rfl <;> constructor <;> simp [hfeed, hreturn]

/-- The beginning of a marker, with a line end behind it. -/
theorem isTrimming_marker {text ending blanks : List Char} {digit : Char} (h : IsLineEnd ending)
    (hfront : text <+: 'f' :: 'l' :: 'o' :: 'w' :: digit :: blanks)
    (hdigit : digit = '4' ∨ digit = '6') (hblanks : ∀ c ∈ blanks, Text.isBlank c = true) :
    IsTrimming (text ++ ending) where
  chars c hc := by
    rcases List.mem_append.mp hc with htext | hending
    · have hmem := hfront.subset htext
      simp only [List.mem_cons] at hmem
      rcases hmem with rfl | rfl | rfl | rfl | rfl | hblank
      · exact .inr (by decide)
      · exact .inr (by decide)
      · exact .inr (by decide)
      · exact .inr (by decide)
      · rcases hdigit with rfl | rfl <;> exact .inr (by decide)
      · exact .inl (hblanks c hblank)
    · exact (isTrimming_lineEnd h).chars c hending
  blank := by
    cases text with
    | nil => exact (isTrimming_lineEnd h).blank
    | cons c text =>
        have hc := (List.cons_prefix_cons.mp hfront).1
        rw [hc]
        simp

/-! ## Blocks -/

theorem blocks_eq_nil {text : List Char} (h : 'f' ∉ text) : blocks text = [] := by
  induction text with
  | nil => rfl
  | cons c text ih =>
      have hc : c ≠ 'f' := fun hc => h (hc ▸ List.mem_cons_self)
      rw [blocks_cons_of_not_startsBlock (startsBlock_of_head_ne hc),
        ih fun hmem => h (List.mem_cons_of_mem c hmem)]

theorem preamble_isFront (text : List Char) : preamble text <+: text :=
  ⟨_, preamble_append_blocks text⟩

/-- No second marker begins inside of a marker that has begun. -/
theorem not_mem_behind_first {c digit : Char} {front ending blanks : List Char}
    (h : IsLineEnd ending) (hfront : c :: front <+: 'f' :: 'l' :: 'o' :: 'w' :: digit :: blanks)
    (hdigit : digit = '4' ∨ digit = '6') (hblanks : ∀ c ∈ blanks, Text.isBlank c = true) :
    'f' ∉ front ++ ending := by
  intro hmem
  rcases List.mem_append.mp hmem with hbehind | hending
  · have htail := (List.cons_prefix_cons.mp hfront).2.subset hbehind
    exact not_mem_marker_tail hdigit hblanks (List.mem_append_left ['{'] htail)
  · rcases h with rfl | rfl | rfl <;> exact absurd hending (by decide)

/-- Whether a text is a front of another one with trimmings behind it. -/
def Alike (block other : List Char) : Prop :=
  ∃ part rest tail, block = part ++ rest ∧ other = part ++ tail ∧ IsTrimming tail

theorem Alike.cons {block other : List Char} (h : Alike block other) (c : Char) :
    Alike (c :: block) (c :: other) := by
  obtain ⟨part, rest, tail, rfl, rfl, htail⟩ := h
  exact ⟨c :: part, rest, tail, rfl, rfl, htail⟩

theorem alike_of_isTrimming (block : List Char) {other : List Char} (h : IsTrimming other) :
    Alike block other :=
  ⟨[], block, other, rfl, rfl, h⟩

theorem not_startsBlock_of_isTrimming {text : List Char} (h : IsTrimming text) :
    startsBlock text = false := by
  rw [Bool.eq_false_iff]
  intro hstarts
  obtain ⟨digit, blanks, rest, rfl, -⟩ := startsBlock_iff.mp hstarts
  exact absurd (h.chars '{' (by simp)) (by decide)

/-- A marker whose beginning is at the end of a text is none if a line end follows. -/
theorem startsBlock_append_of_lineEnd {text rest ending : List Char} (hending : IsLineEnd ending)
    (h : startsBlock (text ++ ending) = true) : startsBlock (text ++ rest) = true := by
  rcases startsBlock_append_cases h with hwhole | ⟨digit, blanks, hfront, hdigit, hblanks⟩
  · exact hwhole rest
  · rw [not_startsBlock_of_isTrimming (isTrimming_marker hending hfront hdigit hblanks)] at h
    cases h

/--
The blocks of a front of a dump with a line end behind it are the first blocks of the dump, each
like its block.
-/
theorem exists_alike_blocks {ending : List Char} (hending : IsLineEnd ending)
    (front rest : List Char) :
    Alike (preamble (front ++ rest)) (preamble (front ++ ending)) ∧
      ∃ firsts, firsts <+: blocks (front ++ rest) ∧
        List.Forall₂ Alike firsts (blocks (front ++ ending)) := by
  induction front with
  | nil =>
      have htrimming := (isTrimming_lineEnd hending).of_front (preamble_isFront ending)
      have hnone : blocks ending = [] := by
        apply blocks_eq_nil
        rcases hending with rfl | rfl | rfl <;> decide
      refine ⟨alike_of_isTrimming _ htrimming, [], List.nil_prefix, ?_⟩
      rw [List.nil_append, hnone]
      exact .nil
  | cons c front ih =>
      obtain ⟨hlead, firsts, hfirsts, hblocks⟩ := ih
      rw [List.cons_append, List.cons_append]
      by_cases hcut : startsBlock (c :: (front ++ ending)) = true
      · have hmarker : startsBlock ((c :: front) ++ ending) = true := hcut
        have hstarts : startsBlock (c :: (front ++ rest)) = true :=
          startsBlock_append_of_lineEnd hending hmarker
        rw [preamble_cons_of_startsBlock hstarts, preamble_cons_of_startsBlock hcut,
          blocks_cons_of_startsBlock hstarts, blocks_cons_of_startsBlock hcut]
        exact ⟨alike_of_isTrimming _ (isTrimming_lineEnd (.inl rfl)), _,
          List.cons_prefix_cons.mpr ⟨rfl, hfirsts⟩, .cons (hlead.cons c) hblocks⟩
      · have hcut : startsBlock (c :: (front ++ ending)) = false := Bool.eq_false_iff.mpr hcut
        rw [preamble_cons_of_not_startsBlock hcut, blocks_cons_of_not_startsBlock hcut]
        by_cases hstarts : startsBlock (c :: (front ++ rest)) = true
        · have hmarker : startsBlock ((c :: front) ++ rest) = true := hstarts
          rcases startsBlock_append_cases hmarker with
            hwhole | ⟨digit, blanks, hfront, hdigit, hblanks⟩
          · exact absurd (hwhole ending) (by rw [List.cons_append, hcut]; decide)
          · have htrimming := isTrimming_marker hending hfront hdigit hblanks
            refine ⟨alike_of_isTrimming _ (htrimming.of_front
              (List.cons_prefix_cons.mpr ⟨rfl, preamble_isFront _⟩)), [], List.nil_prefix, ?_⟩
            rw [blocks_eq_nil (not_mem_behind_first hending hfront hdigit hblanks)]
            exact .nil
        · have hstarts : startsBlock (c :: (front ++ rest)) = false := Bool.eq_false_iff.mpr hstarts
          rw [preamble_cons_of_not_startsBlock hstarts, blocks_cons_of_not_startsBlock hstarts]
          exact ⟨hlead.cons c, firsts, hfirsts, hblocks⟩

end Dump

end FlowFence
