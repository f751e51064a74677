import FlowFence.ControlSocket

/-!
# Lines of bytes

How bytes fall into lines, apart from the reader: a line ends with a line feed, or with a carriage
return and a line feed, and what is behind the last line feed is a line unless it is empty. There is
one way only, and the reader finds it.
-/

namespace FlowFence

namespace ControlSocket

inductive FallsInto : List UInt8 → List (List UInt8) → Prop
  | nil : FallsInto [] []
  /-- A line without an end. A carriage return behind it belongs to it. -/
  | unended {line : List UInt8} (nonempty : line ≠ []) (unbroken : 0x0A ∉ line) :
      FallsInto line [line]
  | feed {line bytes : List UInt8} {lines : List (List UInt8)} (unbroken : 0x0A ∉ line)
      (unreturned : line.getLast? ≠ some 0x0D) (more : FallsInto bytes lines) :
      FallsInto (line ++ 0x0A :: bytes) (line :: lines)
  | returnFeed {line bytes : List UInt8} {lines : List (List UInt8)} (unbroken : 0x0A ∉ line)
      (more : FallsInto bytes lines) :
      FallsInto (line ++ 0x0D :: 0x0A :: bytes) (line :: lines)

theorem linesFrom_append_feed {line : List UInt8} (h : 0x0A ∉ line) (current bytes : List UInt8) :
    linesFrom current (line ++ 0x0A :: bytes) =
      dropReturn (current.reverse ++ line) :: linesFrom [] bytes := by
  induction line generalizing current with
  | nil => simp [linesFrom]
  | cons b line ih =>
      obtain ⟨hb, hline⟩ := not_or.mp (mt List.mem_cons.mpr h)
      rw [List.cons_append, linesFrom, if_neg (Ne.symm hb), ih hline]
      simp

theorem linesFrom_of_not_mem {line : List UInt8} (h : 0x0A ∉ line) {current : List UInt8}
    (hne : current ≠ []) : linesFrom current line = [current.reverse ++ line] := by
  induction line generalizing current with
  | nil => simp [linesFrom, hne]
  | cons b line ih =>
      obtain ⟨hb, hline⟩ := not_or.mp (mt List.mem_cons.mpr h)
      rw [linesFrom, if_neg (Ne.symm hb), ih hline (List.cons_ne_nil b current)]
      simp

theorem dropReturn_of_getLast? {line : List UInt8} (h : line.getLast? ≠ some 0x0D) :
    dropReturn line = line :=
  if_neg h

@[simp] theorem dropReturn_append_return (line : List UInt8) :
    dropReturn (line ++ [0x0D]) = line := by
  simp [dropReturn]

theorem FallsInto.lines_eq {bytes : List UInt8} {found : List (List UInt8)}
    (h : FallsInto bytes found) : lines bytes = found := by
  induction h with
  | nil => rfl
  | @unended line nonempty unbroken =>
      obtain ⟨b, line, rfl⟩ := List.exists_cons_of_ne_nil nonempty
      obtain ⟨hb, hline⟩ := not_or.mp (mt List.mem_cons.mpr unbroken)
      rw [lines, linesFrom, if_neg (Ne.symm hb),
        linesFrom_of_not_mem hline (List.cons_ne_nil b [])]
      rfl
  | feed unbroken unreturned more ih =>
      rw [lines, linesFrom_append_feed unbroken, List.reverse_nil, List.nil_append,
        dropReturn_of_getLast? unreturned, ← lines, ih]
  | @returnFeed line bytes found unbroken more ih =>
      have hline : 0x0A ∉ line ++ [0x0D] := by simp [unbroken]
      have hends := linesFrom_append_feed hline [] bytes
      rw [List.append_assoc] at hends
      rw [← ih, lines, lines]
      simpa using hends

/-- A line that has begun and the bytes behind it. -/
theorem fallsInto_linesFrom {current : List UInt8} (h : 0x0A ∉ current) (bytes : List UInt8) :
    FallsInto (current.reverse ++ bytes) (linesFrom current bytes) := by
  induction bytes generalizing current with
  | nil =>
      cases current with
      | nil => exact .nil
      | cons b current =>
          have hline : 0x0A ∉ (b :: current).reverse := fun hmem => h (List.mem_reverse.mp hmem)
          rw [List.append_nil]
          exact .unended (List.reverse_ne_nil_iff.mpr (List.cons_ne_nil b current)) hline
  | cons b bytes ih =>
      rw [linesFrom]
      split
      · rename_i hfeed
        subst hfeed
        have hmore : FallsInto bytes (linesFrom [] bytes) := ih List.not_mem_nil
        have hline : 0x0A ∉ current.reverse := fun hmem => h (List.mem_reverse.mp hmem)
        by_cases hreturn : current.reverse.getLast? = some 0x0D
        · obtain ⟨line, hline'⟩ := List.getLast?_eq_some_iff.mp hreturn
          rw [hline'] at hline ⊢
          have hunbroken : 0x0A ∉ line := fun hmem => hline (List.mem_append_left _ hmem)
          simpa using FallsInto.returnFeed hunbroken hmore
        · rw [dropReturn_of_getLast? hreturn]
          exact .feed hline hreturn hmore
      · have hcurrent : 0x0A ∉ b :: current := mt List.mem_cons.mp (not_or.mpr ⟨Ne.symm ‹_›, h⟩)
        simpa using ih hcurrent

/-- Every byte sequence falls into lines, and into no others than the reader finds. -/
theorem fallsInto_iff {bytes : List UInt8} {found : List (List UInt8)} :
    FallsInto bytes found ↔ lines bytes = found := by
  constructor
  · exact FallsInto.lines_eq
  · rintro rfl
    exact fallsInto_linesFrom List.not_mem_nil bytes

end ControlSocket

end FlowFence
