import FlowFence.Proofs.Ruleset.Grammar

/-!
# Reading by position

Programs read by an index that goes up by one to three with each phrase, looking ahead up to two
places. It reads what is read off the front of a program, and of a program with statements it ends
at the length of the program and not behind it.
-/

namespace FlowFence

namespace Statement

variable {program rest : Program} {statement : Statement} {count position : Nat}

/--
The statement of the phrase that an expression begins, and how many more expressions the phrase has,
by the two expressions behind the first one as far as there are any.
-/
def turn? : Expression → Option Expression → Option Expression →
    Except LiftError (Statement × Nat)
  | .load .network offset length _, second, third =>
      match AddressField.at? offset length with
      | none => .error (.networkLoad offset length)
      | some field =>
          match second, third with
          | some (.mask _ _ _ kept _), some (.compare _ data) =>
              (addressValue? data (some kept)).map fun value => (.address field value, 2)
          | some (.compare _ data), _ =>
              (addressValue? data none).map fun value => (.address field value, 1)
          | _, _ => .error (.danglingLoad field.headerName field.name)
  | .load .transport offset 2 _, second, _ =>
      match portAt? offset with
      | none => .error (.transportLoad offset)
      | some direction =>
          match second with
          | some (.compare _ [high, low]) =>
              .ok (.port direction (high.toNat * 256 + low.toNat), 1)
          | _ => .error (.danglingLoad "th" (portName direction))
  | .loadProtocol _, second, _ =>
      match second with
      | some (.compare _ [value]) => .ok (.protocol value.toNat, 1)
      | _ => .error (.danglingLoad "meta" "l4proto")
  | .counterRef name, second, _ =>
      match second with
      | some (.counter _ _) => .ok (.countNamed name, 1)
      | _ => .ok (.countNamed name, 0)
  | .counter packets bytes, _, _ => .ok (.count packets bytes, 0)
  | .limit unit rate above, _, _ => .ok (.limit unit rate above, 0)
  | .drop, _, _ => .ok (.drop, 0)
  | expression, _, _ => .error (.stray expression)

/-- The statements from a position of a program on, and the position at which reading ends. -/
def readFrom? (program : Program) (position : Nat) : Except LiftError (List Statement × Nat) :=
  if _ : position < program.length then
    match turn? program[position] program[position + 1]? program[position + 2]? with
    | .error e => .error e
    | .ok (statement, more) =>
        (readFrom? program (position + 1 + more)).map fun found =>
          (statement :: found.1, found.2)
  else .ok ([], position)
termination_by program.length - position

/-! ## One turn -/

/-- Whether a turn goes as far as the phrase that is read off the front of the program. -/
def TurnsAsFar (expression : Expression) (rest : Program) : Prop :=
  turn? expression rest[0]? rest[1]? =
    (phrase? expression rest).map fun found => (found.1, rest.length - found.2.length)

theorem turnsAsFar_load_network (offset length target : Nat) (rest : Program) :
    TurnsAsFar (.load .network offset length target) rest := by
  unfold TurnsAsFar
  cases hfield : AddressField.at? offset length with
  | none => simp [turn?, phrase?, hfield, Except.map]
  | some field =>
      rcases rest with _ | ⟨second, rest⟩
      · simp [turn?, phrase?, hfield, addressPhrase?, Except.map]
      cases second with
      | compare register data =>
          cases hvalue : addressValue? data none <;>
            simp [turn?, phrase?, hfield, addressPhrase?, hvalue, Except.map]
      | mask source masked count kept flip =>
          rcases rest with _ | ⟨third, rest⟩
          · simp [turn?, phrase?, hfield, addressPhrase?, Except.map]
          cases third with
          | compare register data =>
              have hcount : rest.length + 1 + 1 - rest.length = 2 := by omega
              cases hvalue : addressValue? data (some kept) <;>
                simp [turn?, phrase?, hfield, addressPhrase?, hvalue, Except.map, hcount]
          | _ => simp [turn?, phrase?, hfield, addressPhrase?, Except.map]
      | _ => simp [turn?, phrase?, hfield, addressPhrase?, Except.map]

theorem turnsAsFar_load_transport (offset length target : Nat) (rest : Program) :
    TurnsAsFar (.load .transport offset length target) rest := by
  unfold TurnsAsFar
  by_cases hlength : length = 2
  · subst hlength
    cases hport : portAt? offset with
    | none => simp [turn?, phrase?, hport, Except.map]
    | some direction =>
        rcases rest with _ | ⟨second, rest⟩
        · simp [turn?, phrase?, hport, portPhrase?, Except.map]
        cases second with
        | compare register data =>
            rcases data with _ | ⟨high, _ | ⟨low, _ | ⟨extra, data⟩⟩⟩ <;>
              simp [turn?, phrase?, hport, portPhrase?, Except.map]
        | _ => simp [turn?, phrase?, hport, portPhrase?, Except.map]
  · simp [turn?, phrase?, hlength, Except.map]

theorem turnsAsFar_loadProtocol (target : Nat) (rest : Program) :
    TurnsAsFar (.loadProtocol target) rest := by
  unfold TurnsAsFar
  rcases rest with _ | ⟨second, rest⟩
  · rfl
  cases second with
  | compare register data =>
      rcases data with _ | ⟨value, _ | ⟨extra, data⟩⟩ <;>
        simp [turn?, phrase?, protocolPhrase?, Except.map]
  | _ => rfl

/-- A turn goes as far as the phrase that is read off the front. -/
theorem turnsAsFar (expression : Expression) (rest : Program) : TurnsAsFar expression rest := by
  cases expression with
  | load header offset length target =>
      cases header with
      | network => exact turnsAsFar_load_network offset length target rest
      | transport => exact turnsAsFar_load_transport offset length target rest
  | loadProtocol target => exact turnsAsFar_loadProtocol target rest
  | counterRef name =>
      rcases rest with _ | ⟨second, rest⟩
      · rfl
      cases second <;> simp [TurnsAsFar, turn?, phrase?, dropCounter, Except.map]
  | counter packets bytes => simp [TurnsAsFar, turn?, phrase?, Except.map]
  | limit unit rate above => simp [TurnsAsFar, turn?, phrase?, Except.map]
  | drop => simp [TurnsAsFar, turn?, phrase?, Except.map]
  | mask source target length kept flip => rfl
  | compare register data => rfl

/-! ## Whole programs -/

theorem Phrase.suffix_tail {expression : Expression}
    (h : Phrase (expression :: program) statement rest) : rest <:+ program := by
  rcases List.suffix_cons_iff.mp h.suffix with rfl | hsuffix
  · have hlength := phrase?_length_le (phrase?_eq_ok_iff.mpr h)
    rw [List.length_cons] at hlength
    omega
  · exact hsuffix

/-- From a position on is read what is read off the front there, up to the end of the program. -/
theorem readFrom?_eq (program : Program) {position : Nat} (h : position ≤ program.length) :
    readFrom? program position =
      (ofProgram? (program.drop position)).map fun statements => (statements, program.length) := by
  induction hdistance : program.length - position using Nat.strongRecOn generalizing position with
  | _ distance ih =>
      rw [readFrom?]
      by_cases hposition : position < program.length
      · have hturn := turnsAsFar program[position] (program.drop (position + 1))
        rw [TurnsAsFar, List.getElem?_drop, List.getElem?_drop] at hturn
        rw [dif_pos hposition, List.drop_eq_getElem_cons hposition, ofProgram?_cons, hturn]
        cases hphrase : phrase? program[position] (program.drop (position + 1)) with
        | error e => rfl
        | ok found =>
            obtain ⟨statement, rest⟩ := found
            -- the next turn begins where the rest of the program does
            have hrest : program.drop
                (position + 1 + ((program.drop (position + 1)).length - rest.length)) = rest := by
              rw [← List.drop_drop]
              exact (List.suffix_iff_eq_drop.mp
                (phrase?_eq_ok_iff.mp hphrase).suffix_tail).symm
            have hnext : position + 1 + ((program.drop (position + 1)).length - rest.length) ≤
                program.length := by
              rw [List.length_drop]
              omega
            simp only [Except.map]
            rw [ih _ (by omega) hnext rfl, hrest]
            cases ofProgram? rest <;> rfl
      · obtain rfl : position = program.length := by omega
        rw [dif_neg hposition, List.drop_length]
        rfl

/--
A program has statements just if it is put together of phrases. It has those of its phrases, one for
each and in order, where no border between phrases parts a reference from its counter. Programs with
statements, put together, have the statements of both, except where a border does; the statement of
that counter is then left out. Reading by position gives the same, takes every expression of a
program with statements into one phrase, and ends at the end of it.
-/
theorem programs_are_read_by_phrases :
    (∀ program, (∃ statements, ofProgram? program = .ok statements) ↔
      ∃ phrases : List Program, (∀ phrase ∈ phrases, IsPhrase phrase) ∧
        phrases.flatten = program) ∧
    (∀ program statements, ofProgram? program = .ok statements ↔
      ∃ phrases, List.Forall₂ IsReadAs phrases statements ∧
        phrases.IsChain (fun first second => ¬ PartsReference first second) ∧
          phrases.flatten = program) ∧
    (∀ first second statements others,
      ofProgram? first = .ok statements → ofProgram? second = .ok others →
        (¬ PartsReference first second →
          ofProgram? (first ++ second) = .ok (statements ++ others)) ∧
        (PartsReference first second →
          ofProgram? (first ++ second) = .ok (statements ++ others.tail))) ∧
    ∀ program, readFrom? program 0 =
      (ofProgram? program).map fun statements => (statements, program.length) := by
  refine ⟨fun _ => exists_ofProgram?_iff, fun _ _ => ?_, ?_, fun program => ?_⟩
  · rw [ofProgram?_eq_ok_iff, phrases_iff_isReadAs]
  · intro first second statements others hfirst hsecond
    simp only [ofProgram?_eq_ok_iff] at hfirst hsecond ⊢
    exact hfirst.append hsecond
  · exact readFrom?_eq program (Nat.zero_le _)

/-- A masked test with a reference at its end, in front of a counter and a drop. -/
theorem countedTest_is_read_by_phrases :
    let test : Program := [.load .network 12 4 1, .mask 1 1 4 [255, 255, 255, 0] [0, 0, 0, 0],
      .compare 1 [192, 0, 2, 0], .counterRef "seen"]
    let tail : Program := [.counter 0 0, .drop]
    let block : Statement := .address ⟨.ipv4, .source⟩ (.block (.v4 0xC0000200) 24)
    ofProgram? test = .ok [block, .countNamed "seen"] ∧
      ofProgram? tail = .ok [.count 0 0, .drop] ∧ PartsReference test tail ∧
      ofProgram? (test ++ tail) = .ok [block, .countNamed "seen", .drop] ∧
      ofProgram? (tail ++ test) = .ok [.count 0 0, .drop, block, .countNamed "seen"] ∧
      readFrom? (test ++ tail) 0 = .ok ([block, .countNamed "seen", .drop], 6) := by
  intro test tail block
  obtain ⟨-, -, htogether, hposition⟩ := programs_are_read_by_phrases
  have htest : ofProgram? test = .ok [block, .countNamed "seen"] := by decide
  have htail : ofProgram? tail = .ok [.count 0 0, .drop] := by decide
  have hborder : PartsReference test tail := ⟨⟨"seen", rfl⟩, 0, 0, rfl⟩
  have hboth := (htogether test tail _ _ htest htail).2 hborder
  refine ⟨htest, htail, hborder, hboth, ?_, ?_⟩
  · refine (htogether tail test _ _ htail htest).1 ?_
    rintro ⟨⟨name, hlast⟩, -⟩
    cases hlast
  · rw [hposition, hboth]
    rfl

end Statement

end FlowFence
