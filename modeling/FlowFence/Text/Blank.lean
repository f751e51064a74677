/-!
# Blank characters

White space in the sense of the Unicode property of that name, trimming, and the words of a text.
The control characters U+001C to U+001F, the zero-width space and the byte order mark are not
blank.
-/

namespace FlowFence

namespace Text

/-- Whether a character has the Unicode property White_Space. -/
def isBlank (c : Char) : Bool :=
  let n := c.toNat
  (0x09 ≤ n && n ≤ 0x0D) || n == 0x20 || n == 0x85 || n == 0xA0 || n == 0x1680 ||
    (0x2000 ≤ n && n ≤ 0x200A) || n == 0x2028 || n == 0x2029 || n == 0x202F || n == 0x205F ||
    n == 0x3000

def trimStart (text : List Char) : List Char :=
  text.dropWhile isBlank

def trimEnd (text : List Char) : List Char :=
  (text.reverse.dropWhile isBlank).reverse

def trim (text : List Char) : List Char :=
  trimEnd (trimStart text)

/--
The pieces of a text between the characters that satisfy `isCut`, in order and with empty pieces
kept: a text without such a character is one piece.
-/
def splitWhere (isCut : Char → Bool) : List Char → List (List Char)
  | [] => [[]]
  | c :: rest =>
      if isCut c then
        [] :: splitWhere isCut rest
      else
        match splitWhere isCut rest with
        | [] => [[c]]
        | piece :: pieces => (c :: piece) :: pieces

/-- The maximal runs of characters that are not blank, in order. -/
def words (text : List Char) : List (List Char) :=
  (splitWhere isBlank text).filter (fun piece => !piece.isEmpty)

/-! ## Laws -/

@[simp] theorem splitWhere_ne_nil (isCut : Char → Bool) (text : List Char) :
    splitWhere isCut text ≠ [] := by
  cases text with
  | nil => simp [splitWhere]
  | cons c rest =>
      unfold splitWhere
      split
      · simp
      · split <;> simp

theorem splitWhere_eq_singleton {isCut : Char → Bool} {text : List Char}
    (clean : ∀ c ∈ text, isCut c = false) : splitWhere isCut text = [text] := by
  induction text with
  | nil => rfl
  | cons c rest ih =>
      have hrest := ih (fun x hx => clean x (List.mem_cons_of_mem c hx))
      simp [splitWhere, clean c List.mem_cons_self, hrest]

theorem splitWhere_append_cut {isCut : Char → Bool} {piece rest : List Char} {cut : Char}
    (clean : ∀ c ∈ piece, isCut c = false) (hcut : isCut cut = true) :
    splitWhere isCut (piece ++ cut :: rest) = piece :: splitWhere isCut rest := by
  induction piece with
  | nil => simp [splitWhere, hcut]
  | cons c piece ih =>
      have htail := ih (fun x hx => clean x (List.mem_cons_of_mem c hx))
      simp [splitWhere, clean c List.mem_cons_self, htail]

end Text

end FlowFence
