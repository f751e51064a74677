import FlowFence.Proofs.Route.Division

/-!
# Dumps cut at their markers

A dump is the text before its first marker and, behind it, its blocks: each begins with a marker and
holds no other one. It can be cut into such pieces in one way only. A search from the left that goes
on behind each marker it finds still finds them all, since no marker begins inside of another, and
the blocks are what lies between the places that it finds.
-/

namespace FlowFence

namespace Dump

variable {text rest dump : List Char} {c : Char}

/-- Whether a text is a marker: the name of a family, blanks, and an opening brace. -/
def IsMarker (text : List Char) : Prop :=
  ∃ digit blanks, text = 'f' :: 'l' :: 'o' :: 'w' :: digit :: blanks ++ ['{'] ∧
    (digit = '4' ∨ digit = '6') ∧ ∀ c ∈ blanks, Text.isBlank c = true

def HoldsMarker (text : List Char) : Prop :=
  ∃ marker, IsMarker marker ∧ marker <:+: text

def IsBlock (text : List Char) : Prop :=
  ∃ marker body, IsMarker marker ∧ text = marker ++ body ∧
    ∀ front other back, IsMarker other → text = front ++ other ++ back →
      front = [] ∧ other = marker

/-! ## Markers in texts -/

theorem startsBlock_iff_exists_marker :
    startsBlock text = true ↔ ∃ marker, IsMarker marker ∧ marker <+: text := by
  rw [startsBlock_iff]
  constructor
  · intro h
    obtain ⟨digit, blanks, rest, rfl, hdigit, hblanks⟩ := h
    exact ⟨_, ⟨digit, blanks, rfl, hdigit, hblanks⟩, rest, by simp⟩
  · intro h
    obtain ⟨_, ⟨digit, blanks, rfl, hdigit, hblanks⟩, rest, rfl⟩ := h
    exact ⟨digit, blanks, rest, by simp, hdigit, hblanks⟩

theorem startsBlock_of_isFront {front : List Char} (h : startsBlock front = true)
    (hfront : front <+: text) : startsBlock text = true := by
  obtain ⟨marker, hmarker, hlead⟩ := startsBlock_iff_exists_marker.mp h
  exact startsBlock_iff_exists_marker.mpr ⟨marker, hmarker, hlead.trans hfront⟩

theorem holdsMarker_cons_iff :
    HoldsMarker (c :: text) ↔ startsBlock (c :: text) = true ∨ HoldsMarker text := by
  simp only [HoldsMarker, List.infix_cons_iff, and_or_left, exists_or,
    startsBlock_iff_exists_marker]

/-- A text holds no marker just if it has no blocks. -/
theorem blocks_eq_nil_iff : blocks text = [] ↔ ¬ HoldsMarker text := by
  induction text with
  | nil =>
      have hnone : ¬ HoldsMarker [] := by
        intro h
        obtain ⟨_, ⟨digit, blanks, rfl, -⟩, hmarker⟩ := h
        exact absurd (List.infix_nil.mp hmarker) (by simp)
      simp [hnone]
  | cons c text ih =>
      rw [holdsMarker_cons_iff]
      cases hstarts : startsBlock (c :: text) with
      | true => simp [blocks_cons_of_startsBlock hstarts]
      | false => simp [blocks_cons_of_not_startsBlock hstarts, ih]

theorem preamble_eq_self (h : ¬ HoldsMarker text) : preamble text = text := by
  have hwhole := preamble_append_blocks text
  rw [blocks_eq_nil_iff.mpr h] at hwhole
  simpa using hwhole

theorem not_holdsMarker_preamble (text : List Char) : ¬ HoldsMarker (preamble text) := by
  induction text with
  | nil => exact blocks_eq_nil_iff.mp rfl
  | cons c text ih =>
      cases hstarts : startsBlock (c :: text) with
      | true =>
          rw [preamble_cons_of_startsBlock hstarts]
          exact blocks_eq_nil_iff.mp rfl
      | false =>
          rw [preamble_cons_of_not_startsBlock hstarts, holdsMarker_cons_iff]
          intro h
          have hfront : c :: preamble text <+: c :: text :=
            List.cons_prefix_cons.mpr ⟨rfl, preamble_isFront text⟩
          have hmarker := startsBlock_of_isFront (h.resolve_right ih) hfront
          rw [hstarts] at hmarker
          cases hmarker

/-! ## Blocks -/

theorem IsMarker.exists_name {marker : List Char} (h : IsMarker marker) :
    ∃ name, marker = name ++ ['{'] ∧ '{' ∉ name := by
  obtain ⟨digit, blanks, rfl, hdigit, hblanks⟩ := h
  have hblank : '{' ∉ blanks := fun hmem => absurd (hblanks _ hmem) (by decide)
  refine ⟨_, rfl, ?_⟩
  rcases hdigit with rfl | rfl <;> simp [hblank]

/-- Two markers at one place are the same, since each ends with its only brace. -/
theorem IsMarker.eq_of_append {marker other back : List Char} (h : IsMarker marker)
    (hother : IsMarker other) (heq : marker ++ rest = other ++ back) : marker = other := by
  obtain ⟨name, rfl, hname⟩ := h.exists_name
  obtain ⟨name', rfl, hname'⟩ := hother.exists_name
  have hcut {name : List Char} (hname : '{' ∉ name) (rest : List Char) :
      Text.cut? ['{'] (name ++ ['{'] ++ rest) = some (name, rest) := by
    rw [List.append_assoc, Text.cut?_singleton_append hname]
    simp [Text.cut?, Text.after?]
  have hfound := hcut hname rest
  rw [heq, hcut hname' back, Option.some.injEq, Prod.mk.injEq] at hfound
  rw [hfound.1]

theorem isBlock_cons_iff :
    IsBlock (c :: text) ↔ startsBlock (c :: text) = true ∧ ¬ HoldsMarker text := by
  constructor
  · intro h
    obtain ⟨marker, body, hmarker, heq, halone⟩ := h
    refine ⟨startsBlock_iff_exists_marker.mpr ⟨marker, hmarker, body, heq.symm⟩, ?_⟩
    intro hholds
    obtain ⟨other, hother, front, back, htext⟩ := hholds
    have hnone := (halone (c :: front) other back hother (by simp [← htext])).1
    cases hnone
  · intro h
    obtain ⟨hstarts, hnone⟩ := h
    obtain ⟨marker, hmarker, body, heq⟩ := startsBlock_iff_exists_marker.mp hstarts
    refine ⟨marker, body, hmarker, heq.symm, ?_⟩
    intro front other back hother htext
    cases front with
    | nil => exact ⟨rfl, hother.eq_of_append hmarker (htext.symm.trans heq.symm)⟩
    | cons d front =>
        have htail : text = front ++ other ++ back := (List.cons.inj htext).2
        exact (hnone ⟨other, hother, front, back, htail.symm⟩).elim

theorem blocks_of_isBlock {block : List Char} (h : IsBlock block) : blocks block = [block] := by
  cases block with
  | nil =>
      obtain ⟨_, body, ⟨digit, blanks, rfl, -⟩, heq, -⟩ := h
      cases heq
  | cons c text =>
      obtain ⟨hstarts, hnone⟩ := isBlock_cons_iff.mp h
      rw [blocks_cons_of_startsBlock hstarts, preamble_eq_self hnone, blocks_eq_nil_iff.mpr hnone]

theorem startsBlock_of_isBlock {block : List Char} (h : IsBlock block) :
    startsBlock block = true := by
  obtain ⟨marker, body, hmarker, heq, -⟩ := h
  exact startsBlock_iff_exists_marker.mpr ⟨marker, hmarker, body, heq.symm⟩

theorem isBlock_of_mem_blocks {block : List Char} (h : block ∈ blocks dump) : IsBlock block := by
  induction dump with
  | nil => simp at h
  | cons c rest ih =>
      cases hstarts : startsBlock (c :: rest) with
      | true =>
          rw [blocks_cons_of_startsBlock hstarts] at h
          rcases List.mem_cons.mp h with rfl | htail
          · exact isBlock_cons_iff.mpr
              ⟨startsBlock_cons_preamble hstarts, not_holdsMarker_preamble rest⟩
          · exact ih htail
      | false =>
          rw [blocks_cons_of_not_startsBlock hstarts] at h
          exact ih h

theorem startsBlock_flatten {piece : List Char} (h : IsBlock piece) (pieces : List (List Char)) :
    startsBlock (piece :: pieces).flatten = true :=
  startsBlock_of_isFront (startsBlock_of_isBlock h) (List.prefix_append _ _)

/-- Blocks put together are cut where they were joined. -/
theorem blocks_flatten {pieces : List (List Char)} (h : ∀ piece ∈ pieces, IsBlock piece) :
    blocks pieces.flatten = pieces := by
  induction pieces with
  | nil => rfl
  | cons piece pieces ih =>
      obtain ⟨hpiece, hrest⟩ := List.forall_mem_cons.mp h
      have hblocks := ih hrest
      cases pieces with
      | nil =>
          rw [List.flatten_singleton]
          exact blocks_of_isBlock hpiece
      | cons next pieces =>
          have hnext := startsBlock_flatten (hrest next List.mem_cons_self) pieces
          rw [List.flatten_cons, blocks_append hnext, blocks_of_isBlock hpiece, hblocks,
            List.singleton_append]

/-- A dump is cut in one way only into a text without markers and blocks. -/
theorem eq_preamble_and_blocks {lead : List Char} {pieces : List (List Char)}
    (hlead : ¬ HoldsMarker lead) (h : ∀ piece ∈ pieces, IsBlock piece)
    (heq : lead ++ pieces.flatten = dump) : lead = preamble dump ∧ pieces = blocks dump := by
  subst heq
  cases pieces with
  | nil =>
      rw [List.flatten_nil, List.append_nil, preamble_eq_self hlead, blocks_eq_nil_iff.mpr hlead]
      exact ⟨rfl, rfl⟩
  | cons piece pieces =>
      have hstarts := startsBlock_flatten (h piece List.mem_cons_self) pieces
      rw [preamble_append hstarts, preamble_eq_self hlead, blocks_append hstarts,
        blocks_eq_nil_iff.mpr hlead, blocks_flatten h]
      exact ⟨rfl, rfl⟩

/-! ## Search from the left -/

def markerLength? (text : List Char) : Option Nat :=
  if startsBlock text then some (6 + ((text.drop 5).takeWhile Text.isBlank).length) else none

/--
The places of the markers that a search from the left finds in a text that begins at a place, if it
passes over the first `skip` characters. It goes on behind each marker that it finds.
-/
def placesFrom : (skip place : Nat) → List Char → List Nat
  | _, _, [] => []
  | skip + 1, place, _ :: rest => placesFrom skip (place + 1) rest
  | 0, place, c :: rest =>
      match markerLength? (c :: rest) with
      | some length => place :: placesFrom (length - 1) (place + 1) rest
      | none => placesFrom 0 (place + 1) rest

def markerPlaces (dump : List Char) : List Nat :=
  placesFrom 0 0 dump

/-- The pieces of a text that begin at the given places, each of which ends where the next begins. -/
def slices (text : List Char) : List Nat → List (List Char)
  | [] => []
  | [start] => [text.drop start]
  | start :: stop :: places => (text.take stop).drop start :: slices text (stop :: places)

/-- What is passed over behind the first letter of a marker holds no marker's first letter. -/
theorem placesFrom_of_not_mem {skip : Nat} (h : 'f' ∉ text.take skip) (place : Nat) :
    placesFrom skip place text = placesFrom 0 place text := by
  induction text generalizing skip place with
  | nil => cases skip <;> rfl
  | cons c text ih =>
      cases skip with
      | zero => rfl
      | succ skip =>
          rw [List.take_succ_cons, List.mem_cons, not_or] at h
          have hstarts := @startsBlock_of_head_ne c text (Ne.symm h.1)
          rw [placesFrom, placesFrom, markerLength?, hstarts, ih h.2]
          rfl

theorem placesFrom_cons_of_startsBlock (h : startsBlock (c :: text) = true) (place : Nat) :
    placesFrom 0 place (c :: text) = place :: placesFrom 0 (place + 1) text := by
  obtain ⟨digit, blanks, rest, heq, hdigit, hblanks⟩ := startsBlock_iff.mp h
  obtain ⟨rfl, htext⟩ := List.cons.inj heq
  have hrest : text = ('l' :: 'o' :: 'w' :: digit :: blanks ++ ['{']) ++ rest := by
    simpa using htext
  have htaken : ((text.drop 4).takeWhile Text.isBlank).length = blanks.length := by
    have hdrop : text.drop 4 = blanks ++ '{' :: rest := by simp [htext]
    rw [hdrop, List.takeWhile_append_of_pos hblanks]
    simp [show Text.isBlank '{' = false by decide]
  have hlength : markerLength? ('f' :: text) = some (6 + blanks.length) := by
    rw [markerLength?, if_pos h, List.drop_succ_cons, htaken]
  have hpassed : 'f' ∉ text.take (6 + blanks.length - 1) := by
    have hmarker := not_mem_marker_tail hdigit hblanks
    have htake : text.take (6 + blanks.length - 1) =
        'l' :: 'o' :: 'w' :: digit :: blanks ++ ['{'] := by
      rw [hrest]
      apply List.take_left'
      simp
      omega
    rwa [htake]
  rw [placesFrom, hlength]
  dsimp only
  rw [placesFrom_of_not_mem hpassed]

theorem placesFrom_cons_of_not_startsBlock (h : startsBlock (c :: text) = false) (place : Nat) :
    placesFrom 0 place (c :: text) = placesFrom 0 (place + 1) text := by
  rw [placesFrom, markerLength?, h]
  rfl

/-- The search finds every marker. -/
theorem mem_placesFrom_iff {found : Nat} (place : Nat) :
    found ∈ placesFrom 0 place text ↔
      ∃ distance, found = place + distance ∧ startsBlock (text.drop distance) = true := by
  induction text generalizing place with
  | nil => simp [placesFrom, startsBlock]
  | cons c text ih =>
      have hbehind : (∃ distance, found = place + (distance + 1) ∧
          startsBlock ((c :: text).drop (distance + 1)) = true) ↔
            found ∈ placesFrom 0 (place + 1) text := by
        rw [ih]
        simp [Nat.add_assoc, Nat.add_comm 1]
      rw [← Nat.or_exists_add_one, hbehind]
      cases hstarts : startsBlock (c :: text) with
      | true => simp [placesFrom_cons_of_startsBlock hstarts, hstarts]
      | false => simp [placesFrom_cons_of_not_startsBlock hstarts, hstarts]

theorem mem_markerPlaces_iff {place : Nat} :
    place ∈ markerPlaces dump ↔ ∃ marker, IsMarker marker ∧ marker <+: dump.drop place := by
  rw [markerPlaces, mem_placesFrom_iff, ← startsBlock_iff_exists_marker]
  simp

/-- The first place that the search finds is the end of the preamble. -/
theorem placesFrom_cases (place : Nat) (text : List Char) :
    placesFrom 0 place text = [] ∧ blocks text = [] ∨
      ∃ more, placesFrom 0 place text = (place + (preamble text).length) :: more := by
  induction text generalizing place with
  | nil => exact .inl ⟨rfl, rfl⟩
  | cons c text ih =>
      cases hstarts : startsBlock (c :: text) with
      | true =>
          rw [placesFrom_cons_of_startsBlock hstarts, preamble_cons_of_startsBlock hstarts]
          exact .inr ⟨_, rfl⟩
      | false =>
          have hlength : place + (c :: preamble text).length =
              place + 1 + (preamble text).length := by
            rw [List.length_cons]
            omega
          rw [placesFrom_cons_of_not_startsBlock hstarts, preamble_cons_of_not_startsBlock hstarts,
            blocks_cons_of_not_startsBlock hstarts, hlength]
          exact ih (place + 1)

/-- The slices between the places that are found behind a text are the blocks there. -/
theorem slices_placesFrom (done text : List Char) :
    slices (done ++ text) (placesFrom 0 done.length text) = blocks text := by
  induction text generalizing done with
  | nil => rfl
  | cons c text ih =>
      have hnext := ih (done ++ [c])
      rw [List.append_assoc, List.singleton_append, List.length_append, List.length_singleton]
        at hnext
      cases hstarts : startsBlock (c :: text) with
      | false =>
          rw [placesFrom_cons_of_not_startsBlock hstarts, blocks_cons_of_not_startsBlock hstarts]
          exact hnext
      | true =>
          rw [placesFrom_cons_of_startsBlock hstarts, blocks_cons_of_startsBlock hstarts]
          rcases placesFrom_cases (done.length + 1) text with ⟨hnone, hblocks⟩ | ⟨more, hplaces⟩
          · have hrest := preamble_eq_self (blocks_eq_nil_iff.mp hblocks)
            rw [hnone, hblocks, hrest, slices, List.drop_left]
          · have hwhole : done ++ c :: text = (done ++ c :: preamble text) ++ (blocks text).flatten := by
              simp [preamble_append_blocks]
            have htake : (done ++ c :: text).take (done.length + 1 + (preamble text).length) =
                done ++ c :: preamble text := by
              rw [hwhole]
              exact List.take_left' (by simp; omega)
            rw [hplaces] at hnext ⊢
            rw [slices, hnext, htake, List.drop_left]

/--
A dump is its preamble and then its blocks, with nothing lost and nothing twice. The preamble holds
no marker, and each block begins with a marker and holds no other one; no other pieces of that kind
make up the dump. A search from the left, which goes on behind each marker that it finds, finds
just the places where markers begin, and the blocks are the slices of the dump between them.
-/
theorem dump_is_cut_at_markers (dump : List Char) :
    preamble dump ++ (blocks dump).flatten = dump ∧
    ¬ HoldsMarker (preamble dump) ∧
    (∀ block ∈ blocks dump, IsBlock block) ∧
    (∀ lead pieces, lead ++ pieces.flatten = dump → ¬ HoldsMarker lead →
      (∀ piece ∈ pieces, IsBlock piece) → lead = preamble dump ∧ pieces = blocks dump) ∧
    (∀ place, place ∈ markerPlaces dump ↔ ∃ marker, IsMarker marker ∧ marker <+: dump.drop place) ∧
    blocks dump = slices dump (markerPlaces dump) := by
  refine ⟨preamble_append_blocks dump, not_holdsMarker_preamble dump,
    fun _ => isBlock_of_mem_blocks, ?_, fun _ => mem_markerPlaces_iff,
    (slices_placesFrom [] dump).symm⟩
  intro lead pieces heq hlead hpieces
  exact eq_preamble_and_blocks hlead hpieces heq

def crowdedDump : List Char :=
  "0001 flow4 flowflow6\n\u3000\x7b a \x7d [flow4 b]\nflow4\x7b c \x7d flow6 ".toList

theorem crowdedDump_is_cut :
    let lead := "0001 flow4 flow".toList
    let pieces := ["flow6\n\u3000\x7b a \x7d [flow4 b]\n".toList, "flow4\x7b c \x7d flow6 ".toList]
    lead ++ pieces.flatten = crowdedDump ∧ ¬ HoldsMarker lead ∧ (∀ piece ∈ pieces, IsBlock piece) ∧
      lead = preamble crowdedDump ∧ pieces = blocks crowdedDump ∧
      blocks crowdedDump = slices crowdedDump [15, 38] := by
  intro lead pieces
  have heq : lead ++ pieces.flatten = crowdedDump := by decide
  have hlead : ¬ HoldsMarker lead := blocks_eq_nil_iff.mp (by decide)
  have hblock {rest : List Char} (hstarts : startsBlock ('f' :: rest) = true)
      (hnone : blocks rest = []) : IsBlock ('f' :: rest) :=
    isBlock_cons_iff.mpr ⟨hstarts, blocks_eq_nil_iff.mp hnone⟩
  have hpieces : ∀ piece ∈ pieces, IsBlock piece := by
    intro piece hpiece
    simp only [pieces, List.mem_cons, List.not_mem_nil, or_false] at hpiece
    rcases hpiece with rfl | rfl
    · exact hblock (by decide) (by decide)
    · exact hblock (by decide) (by decide)
  obtain ⟨-, -, -, hunique, -, hslices⟩ := dump_is_cut_at_markers crowdedDump
  obtain ⟨hpreamble, hblocks⟩ := hunique lead pieces heq hlead hpieces
  have hplaces : markerPlaces crowdedDump = [15, 38] := by decide
  exact ⟨heq, hlead, hpieces, hpreamble, hblocks, hplaces ▸ hslices⟩

end Dump

end FlowFence
