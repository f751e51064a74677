import FlowFence.ControlSocket
import FlowFence.Proofs.Text.Utf8

/-!
# Replies that stop early

The reply of a connection that is cut off after any number of bytes is the front of the reply that
all bytes make, with a line end behind it.
-/

namespace FlowFence

namespace ControlSocket

def IsLineEnd (ending : List Char) : Prop :=
  ending = [] ∨ ending = ['\n'] ∨ ending = ['\r', '\n']

/-! ## Lines -/

theorem dropReturn_eq_or (line : List UInt8) :
    dropReturn line = line ∨ dropReturn line ++ [0x0D] = line := by
  unfold dropReturn
  split
  · rename_i hlast
    obtain ⟨front, rfl⟩ := List.getLast?_eq_some_iff.mp hlast
    exact .inr (by rw [List.dropLast_concat])
  · exact .inl rfl

/-- The line that has begun goes on, but for a carriage return at the end of what is there. -/
theorem exists_linesFrom_eq_cons {current : List UInt8} (hne : current ≠ []) (bytes : List UInt8) :
    ∃ line rest, linesFrom current bytes = line :: rest ∧
      (current.reverse <+: line ∨ line ++ [0x0D] = current.reverse) := by
  induction bytes generalizing current with
  | nil =>
      refine ⟨current.reverse, [], ?_, .inl (List.prefix_refl _)⟩
      rw [linesFrom, if_neg (by simpa using hne)]
  | cons b bytes ih =>
      by_cases hfeed : b = 0x0A
      · refine ⟨dropReturn current.reverse, linesFrom [] bytes, ?_, ?_⟩
        · rw [linesFrom, if_pos hfeed]
        · rcases dropReturn_eq_or current.reverse with hwhole | hreturn
          · rw [hwhole]
            exact .inl (List.prefix_refl _)
          · exact .inr hreturn
      · obtain ⟨line, rest, hlines, hline⟩ := ih (List.cons_ne_nil b current)
        rw [List.reverse_cons] at hline
        refine ⟨line, rest, by rw [linesFrom, if_neg hfeed, hlines], .inl ?_⟩
        rcases hline with hlong | hreturn
        · exact (List.prefix_append _ _).trans hlong
        · exact ⟨[], by rw [List.append_nil, (List.append_inj' hreturn rfl).1]⟩

/-! ## Replies -/

theorem exists_reply_eq_append {bytes : List UInt8} {rest : List (List UInt8)} {reply : List Char}
    (h : replyOfLines? (bytes :: rest) = .ok reply) :
    ∃ line more, Utf8.decode bytes = .ok line ∧ reply = line ++ '\n' :: more := by
  unfold replyOfLines? at h
  split at h
  · cases h
  · rename_i line hline
    split at h
    · cases h
    · split at h
      · cases h
        exact ⟨line, [], hline, rfl⟩
      · cases hrest : replyOfLines? rest with
        | error e =>
            rw [hrest] at h
            cases h
        | ok more =>
            rw [hrest] at h
            cases h
            exact ⟨line, more, hline, rfl⟩

theorem reply_eq_of_singleton {bytes : List UInt8} {reply : List Char}
    (h : replyOfLines? [bytes] = .ok reply) :
    ∃ line, Utf8.decode bytes = .ok line ∧ reply = line ++ ['\n'] := by
  unfold replyOfLines? at h
  split at h
  · cases h
  · rename_i line hline
    split at h
    · cases h
    · split at h <;>
      · cases h
        exact ⟨line, hline, rfl⟩

/-- What is left of a reply whose bytes stop inside a line. -/
theorem exists_front_of_line {current more : List UInt8} (hne : current ≠ [])
    {reply cut : List Char} (h : replyOfLines? (linesFrom current more) = .ok reply)
    (hcut : replyOfLines? [current.reverse] = .ok cut) :
    ∃ front rest ending, reply = front ++ rest ∧ cut = front ++ ending ∧ IsLineEnd ending := by
  obtain ⟨shown, hshown, rfl⟩ := reply_eq_of_singleton hcut
  obtain ⟨line, lines, hlines, hline⟩ := exists_linesFrom_eq_cons hne more
  rw [hlines] at h
  obtain ⟨whole, rest, hwhole, rfl⟩ := exists_reply_eq_append h
  have hshown := Utf8.decodes_of_decode hshown
  have hwhole := Utf8.decodes_of_decode hwhole
  rcases hline with ⟨bytes, rfl⟩ | hreturn
  · obtain ⟨tail, -, rfl⟩ := hshown.of_append hwhole
    exact ⟨shown, tail ++ '\n' :: rest, ['\n'], by simp, rfl, .inr (.inl rfl)⟩
  · rw [← hreturn] at hshown
    obtain ⟨tail, htail, rfl⟩ := hwhole.of_append hshown
    obtain rfl := Utf8.eq_singleton_of_decodes_return htail
    exact ⟨whole, '\n' :: rest, ['\r', '\n'], rfl, by simp, .inr (.inr rfl)⟩

/-- The reply that the front of the bytes makes is a front of the reply, and a line end. -/
theorem exists_front_of_linesFrom (current bytes more : List UInt8) {reply cut : List Char}
    (h : replyOfLines? (linesFrom current (bytes ++ more)) = .ok reply)
    (hcut : replyOfLines? (linesFrom current bytes) = .ok cut) :
    ∃ front rest ending, reply = front ++ rest ∧ cut = front ++ ending ∧ IsLineEnd ending := by
  induction bytes generalizing current reply cut with
  | nil =>
      cases current with
      | nil =>
          cases hcut
          exact ⟨[], reply, [], rfl, rfl, .inl rfl⟩
      | cons b current => exact exists_front_of_line (List.cons_ne_nil b current) h hcut
  | cons b bytes ih =>
      rw [List.cons_append] at h
      unfold linesFrom at h hcut
      split at h
      · rw [if_pos ‹_›] at hcut
        unfold replyOfLines? at h hcut
        split at h
        · cases h
        · rename_i line hline
          rw [hline] at hcut
          dsimp only at hcut
          split at h
          · cases h
          · rename_i hreport
            rw [hreport] at hcut
            dsimp only at hcut
            split at h
            · rw [if_pos ‹_›] at hcut
              cases h
              cases hcut
              exact ⟨line ++ ['\n'], [], [], by simp, by simp, .inl rfl⟩
            · rw [if_neg ‹_›] at hcut
              cases hrest : replyOfLines? (linesFrom [] (bytes ++ more)) with
              | error e =>
                  rw [hrest] at h
                  cases h
              | ok reply' =>
                  cases hrest' : replyOfLines? (linesFrom [] bytes) with
                  | error e =>
                      rw [hrest'] at hcut
                      cases hcut
                  | ok cut' =>
                      rw [hrest] at h
                      rw [hrest'] at hcut
                      cases h
                      cases hcut
                      obtain ⟨front, rest, ending, rfl, rfl, hending⟩ := ih [] hrest hrest'
                      exact ⟨line ++ '\n' :: front, rest, ending, by simp, by simp, hending⟩
      · rw [if_neg ‹_›] at hcut
        exact ih (b :: current) h hcut

theorem exists_front_of_reply? {bytes more : List UInt8} {reply cut : List Char}
    (h : reply? (bytes ++ more) = .ok reply) (hcut : reply? bytes = .ok cut) :
    ∃ front rest ending, reply = front ++ rest ∧ cut = front ++ ending ∧ IsLineEnd ending :=
  exists_front_of_linesFrom [] bytes more h hcut

end ControlSocket

end FlowFence
