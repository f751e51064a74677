import FlowFence.Ruleset.Statement

/-!
# From programs to statements

A program is read as a sequence of phrases, each of which is one statement: a load with the tests
that follow it, a reference to a named counter with its counter, or a single expression. A program
that is no such sequence has no statements.
-/

namespace FlowFence

inductive LiftError where
  /-- No address field stands at this place of the network header. -/
  | networkLoad (offset length : Nat)
  /-- No port field stands at this place of the transport header. -/
  | transportLoad (offset : Nat)
  /-- A load of a field, given by its header and name, is not followed by a test of it. -/
  | danglingLoad (header field : String)
  /-- An address is compared with data of a length that no address has. -/
  | addressLength (length : Nat)
  /-- An expression that begins no phrase. -/
  | stray (expression : Expression)
deriving DecidableEq

def LiftError.message : LiftError → String
  | .networkLoad offset length =>
      "network header load at " ++ toString offset ++ "+" ++ toString length
  | .transportLoad offset => "transport header load at " ++ toString offset
  | .danglingLoad header field => "dangling " ++ header ++ " " ++ field ++ " load"
  | .addressLength length => toString length ++ "-byte address"
  | .stray expression => expression.description

namespace Statement

def onesOf (byte : UInt8) : Nat :=
  ((List.range 8).filter fun i => byte.toNat.testBit i).length

def ones : List UInt8 → Nat
  | [] => 0
  | byte :: bytes => onesOf byte + ones bytes

/--
The value that compared data and a mask stand for: an address if the mask has as many one bits as
the address has bits, or if there is no mask, else the block of that many bits.
-/
def addressValue? (data : List UInt8) (kept : Option (List UInt8)) :
    Except LiftError AddressValue :=
  match Address.ofBytes? data with
  | none => .error (.addressLength data.length)
  | some base =>
      let width := 8 * data.length
      let length := match kept with
        | some bytes => ones bytes
        | none => width
      .ok (if length = width then .host base else .block base length)

def addressPhrase? (field : AddressField) :
    Program → Except LiftError (Statement × Program)
  | .mask _ _ _ kept _ :: .compare _ data :: rest =>
      (addressValue? data (some kept)).map fun value => (.address field value, rest)
  | .compare _ data :: rest =>
      (addressValue? data none).map fun value => (.address field value, rest)
  | _ => .error (.danglingLoad field.headerName field.name)

def portPhrase? (direction : Program.Direction) :
    Program → Except LiftError (Statement × Program)
  | .compare _ [high, low] :: rest =>
      .ok (.port direction (high.toNat * 256 + low.toNat), rest)
  | _ => .error (.danglingLoad "th" (portName direction))

def protocolPhrase? : Program → Except LiftError (Statement × Program)
  | .compare _ [value] :: rest => .ok (.protocol value.toNat, rest)
  | _ => .error (.danglingLoad "meta" "l4proto")

/-- Drop the counter that goes with the reference before it. -/
def dropCounter : Program → Program
  | .counter _ _ :: rest => rest
  | program => program

/-- The statement of the phrase that an expression begins, and the rest of the program. -/
def phrase? (expression : Expression) (rest : Program) :
    Except LiftError (Statement × Program) :=
  match expression with
  | .load .network offset length _ =>
      match AddressField.at? offset length with
      | some field => addressPhrase? field rest
      | none => .error (.networkLoad offset length)
  | .load .transport offset 2 _ =>
      match portAt? offset with
      | some direction => portPhrase? direction rest
      | none => .error (.transportLoad offset)
  | .loadProtocol _ => protocolPhrase? rest
  | .counterRef name => .ok (.countNamed name, dropCounter rest)
  | .counter packets bytes => .ok (.count packets bytes, rest)
  | .limit unit rate above => .ok (.limit unit rate above, rest)
  | .drop => .ok (.drop, rest)
  | _ => .error (.stray expression)

/-- Fuelled worker of `ofProgram?`: each unit of fuel reads one phrase. -/
def ofProgramFuel : Nat → Program → Except LiftError (List Statement)
  | 0, _ => .ok []
  | _, [] => .ok []
  | fuel + 1, expression :: rest =>
      match phrase? expression rest with
      | .error e => .error e
      | .ok (statement, rest) => (ofProgramFuel fuel rest).map (statement :: ·)

/-- The statements of a program. A phrase has at least one expression. -/
def ofProgram? (program : Program) : Except LiftError (List Statement) :=
  ofProgramFuel program.length program

/-! ## Laws -/

theorem length_dropCounter_le (program : Program) :
    (dropCounter program).length ≤ program.length := by
  unfold dropCounter
  split <;> simp

theorem addressPhrase?_length_le {field : AddressField} {program rest : Program}
    {statement : Statement} (h : addressPhrase? field program = .ok (statement, rest)) :
    rest.length ≤ program.length := by
  unfold addressPhrase? at h
  split at h
  · rename_i source target length kept flip register data tail
    cases hv : addressValue? data (some kept) with
    | error e => simp [hv, Except.map] at h
    | ok value =>
        simp only [hv, Except.map, Except.ok.injEq, Prod.mk.injEq] at h
        simp [← h.2]
        omega
  · rename_i register data tail
    cases hv : addressValue? data none with
    | error e => simp [hv, Except.map] at h
    | ok value =>
        simp only [hv, Except.map, Except.ok.injEq, Prod.mk.injEq] at h
        simp [← h.2]
  · cases h

theorem portPhrase?_length_le {direction : Program.Direction} {program rest : Program}
    {statement : Statement} (h : portPhrase? direction program = .ok (statement, rest)) :
    rest.length ≤ program.length := by
  unfold portPhrase? at h
  split at h
  · simp only [Except.ok.injEq, Prod.mk.injEq] at h
    simp [← h.2]
  · cases h

theorem protocolPhrase?_length_le {program rest : Program} {statement : Statement}
    (h : protocolPhrase? program = .ok (statement, rest)) : rest.length ≤ program.length := by
  unfold protocolPhrase? at h
  split at h
  · simp only [Except.ok.injEq, Prod.mk.injEq] at h
    simp [← h.2]
  · cases h

theorem phrase?_length_le {expression : Expression} {program rest : Program}
    {statement : Statement} (h : phrase? expression program = .ok (statement, rest)) :
    rest.length ≤ program.length := by
  unfold phrase? at h
  split at h
  · split at h
    · exact addressPhrase?_length_le h
    · cases h
  · split at h
    · exact portPhrase?_length_le h
    · cases h
  · exact protocolPhrase?_length_le h
  · simp only [Except.ok.injEq, Prod.mk.injEq] at h
    exact h.2 ▸ length_dropCounter_le program
  · simp only [Except.ok.injEq, Prod.mk.injEq] at h
    simp [← h.2]
  · simp only [Except.ok.injEq, Prod.mk.injEq] at h
    simp [← h.2]
  · simp only [Except.ok.injEq, Prod.mk.injEq] at h
    simp [← h.2]
  · cases h

/-- Fuel beyond the length of a program changes nothing. -/
theorem ofProgramFuel_eq {program : Program} {fuel : Nat} (h : program.length ≤ fuel) :
    ofProgramFuel fuel program = ofProgram? program := by
  unfold ofProgram?
  suffices ∀ (enough : Nat), program.length ≤ enough →
      ofProgramFuel fuel program = ofProgramFuel enough program from this _ (Nat.le_refl _)
  induction fuel generalizing program with
  | zero =>
      have hnil : program = [] := List.eq_nil_of_length_eq_zero (Nat.le_zero.mp h)
      intro enough _
      subst hnil
      cases enough <;> rfl
  | succ fuel ih =>
      intro enough henough
      cases program with
      | nil => cases enough <;> rfl
      | cons expression program =>
          cases enough with
          | zero => simp at henough
          | succ enough =>
              simp only [List.length_cons, Nat.add_le_add_iff_right] at h henough
              simp only [ofProgramFuel]
              cases hphrase : phrase? expression program with
              | error e => rfl
              | ok found =>
                  obtain ⟨statement, rest⟩ := found
                  have hrest := phrase?_length_le hphrase
                  simp only
                  rw [ih (Nat.le_trans hrest h) enough (Nat.le_trans hrest henough)]

@[simp] theorem ofProgram?_nil : ofProgram? [] = .ok [] := rfl

/-- A program is read phrase by phrase. -/
theorem ofProgram?_cons (expression : Expression) (program : Program) :
    ofProgram? (expression :: program) =
      match phrase? expression program with
      | .error e => .error e
      | .ok (statement, rest) => (ofProgram? rest).map (statement :: ·) := by
  change ofProgramFuel (program.length + 1) (expression :: program) = _
  simp only [ofProgramFuel]
  cases hphrase : phrase? expression program with
  | error e => rfl
  | ok found =>
      obtain ⟨statement, rest⟩ := found
      simp only
      rw [ofProgramFuel_eq (phrase?_length_le hphrase)]

end Statement

end FlowFence
