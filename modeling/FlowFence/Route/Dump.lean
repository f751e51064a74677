import FlowFence.Text.Blank

/-!
# Route dumps

A dump is the routing daemon's reply to the route query. Every route is a block of it: a block
starts at a marker, which is the family name, blanks and an opening brace, and runs up to the next
marker. What stands before the first marker belongs to no block.
-/

namespace FlowFence

namespace Dump

def startsBlock : List Char → Bool
  | 'f' :: 'l' :: 'o' :: 'w' :: digit :: rest =>
      (digit == '4' || digit == '6') && (rest.dropWhile Text.isBlank).head? == some '{'
  | _ => false

/-- The text before the first marker, and the blocks. -/
def segments : List Char → List Char × List (List Char)
  | [] => ([], [])
  | c :: rest =>
      let (lead, blocks) := segments rest
      if startsBlock (c :: rest) then ([], (c :: lead) :: blocks) else (c :: lead, blocks)

def blocks (dump : List Char) : List (List Char) :=
  (segments dump).2

def preamble (dump : List Char) : List Char :=
  (segments dump).1

theorem preamble_append_blocks (dump : List Char) :
    preamble dump ++ (blocks dump).flatten = dump := by
  induction dump with
  | nil => rfl
  | cons c rest ih =>
      unfold preamble blocks at ih ⊢
      by_cases h : startsBlock (c :: rest) <;> simp [segments, h, ih]

@[simp] theorem blocks_nil : blocks [] = [] := rfl

theorem blocks_cons_of_startsBlock {c : Char} {rest : List Char}
    (h : startsBlock (c :: rest) = true) :
    blocks (c :: rest) = (c :: preamble rest) :: blocks rest := by
  simp [blocks, preamble, segments, h]

theorem blocks_cons_of_not_startsBlock {c : Char} {rest : List Char}
    (h : startsBlock (c :: rest) = false) : blocks (c :: rest) = blocks rest := by
  simp [blocks, segments, h]

theorem preamble_cons_of_startsBlock {c : Char} {rest : List Char}
    (h : startsBlock (c :: rest) = true) : preamble (c :: rest) = [] := by
  simp [preamble, segments, h]

theorem preamble_cons_of_not_startsBlock {c : Char} {rest : List Char}
    (h : startsBlock (c :: rest) = false) : preamble (c :: rest) = c :: preamble rest := by
  simp [preamble, segments, h]

end Dump

end FlowFence
