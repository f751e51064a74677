import FlowFence.Ruleset.Lift
import Mathlib.Data.List.Forall2

/-!
# Phrases

The language of the programs that have statements. A phrase is given by its expressions and by the
statement that they are read as; a program has statements just when it is a sequence of phrases, and
then they are those of the phrases, in order.
-/

namespace FlowFence

namespace Statement

/-- A phrase at the start of a program, the statement it is, and the program behind it. -/
inductive Phrase : Program → Statement → Program → Prop
  | host {offset length target register : Nat} {data : List UInt8} {field : AddressField}
      {value : AddressValue} {rest : Program}
      (field_at : AddressField.at? offset length = some field)
      (value_of : addressValue? data none = .ok value) :
      Phrase (.load .network offset length target :: .compare register data :: rest)
        (.address field value) rest
  | block {offset length target source masked count register : Nat} {kept flip data : List UInt8}
      {field : AddressField} {value : AddressValue} {rest : Program}
      (field_at : AddressField.at? offset length = some field)
      (value_of : addressValue? data (some kept) = .ok value) :
      Phrase
        (.load .network offset length target :: .mask source masked count kept flip ::
          .compare register data :: rest)
        (.address field value) rest
  | port {offset target register : Nat} {high low : UInt8} {direction : Program.Direction}
      {rest : Program} (port_at : portAt? offset = some direction) :
      Phrase (.load .transport offset 2 target :: .compare register [high, low] :: rest)
        (.port direction (high.toNat * 256 + low.toNat)) rest
  | protocol {target register : Nat} {value : UInt8} {rest : Program} :
      Phrase (.loadProtocol target :: .compare register [value] :: rest)
        (.protocol value.toNat) rest
  | countNamed {name : String} {rest : Program} :
      Phrase (.counterRef name :: rest) (.countNamed name) (dropCounter rest)
  | count {packets bytes : Nat} {rest : Program} :
      Phrase (.counter packets bytes :: rest) (.count packets bytes) rest
  | limit {unit : LimitUnit} {rate : Nat} {above : Bool} {rest : Program} :
      Phrase (.limit unit rate above :: rest) (.limit unit rate above) rest
  | drop {rest : Program} : Phrase (.drop :: rest) .drop rest

section Reading

variable {expression : Expression} {program rest : Program} {statement : Statement}

theorem phrase_of_addressPhrase? {offset length target : Nat} {field : AddressField}
    (hfield : AddressField.at? offset length = some field)
    (h : addressPhrase? field program = .ok (statement, rest)) :
    Phrase (.load .network offset length target :: program) statement rest := by
  unfold addressPhrase? at h
  split at h
  · rename_i source masked count kept flip register data tail
    cases hvalue : addressValue? data (some kept) with
    | error e => simp [hvalue, Except.map] at h
    | ok value =>
        simp only [hvalue, Except.map, Except.ok.injEq, Prod.mk.injEq] at h
        obtain ⟨rfl, rfl⟩ := h
        exact .block hfield hvalue
  · rename_i register data tail
    cases hvalue : addressValue? data none with
    | error e => simp [hvalue, Except.map] at h
    | ok value =>
        simp only [hvalue, Except.map, Except.ok.injEq, Prod.mk.injEq] at h
        obtain ⟨rfl, rfl⟩ := h
        exact .host hfield hvalue
  · cases h

theorem phrase_of_portPhrase? {offset target : Nat} {direction : Program.Direction}
    (hport : portAt? offset = some direction)
    (h : portPhrase? direction program = .ok (statement, rest)) :
    Phrase (.load .transport offset 2 target :: program) statement rest := by
  unfold portPhrase? at h
  split at h
  · cases h
    exact .port hport
  · cases h

theorem phrase_of_protocolPhrase? {target : Nat}
    (h : protocolPhrase? program = .ok (statement, rest)) :
    Phrase (.loadProtocol target :: program) statement rest := by
  unfold protocolPhrase? at h
  split at h
  · cases h
    exact .protocol
  · cases h

/-- What is read as a phrase is one. -/
theorem phrase?_eq_ok_iff :
    phrase? expression program = .ok (statement, rest) ↔
      Phrase (expression :: program) statement rest := by
  constructor
  · intro h
    unfold phrase? at h
    split at h
    · split at h
      · rename_i hfield
        exact phrase_of_addressPhrase? hfield h
      · cases h
    · split at h
      · rename_i hport
        exact phrase_of_portPhrase? hport h
      · cases h
    · exact phrase_of_protocolPhrase? h
    · cases h
      exact .countNamed
    · cases h
      exact .count
    · cases h
      exact .limit
    · cases h
      exact .drop
    · cases h
  · intro h
    cases h with
    | host hfield hvalue => simp [phrase?, hfield, addressPhrase?, hvalue, Except.map]
    | block hfield hvalue => simp [phrase?, hfield, addressPhrase?, hvalue, Except.map]
    | port hport => simp [phrase?, hport, portPhrase?]
    | protocol => rfl
    | countNamed => rfl
    | count => rfl
    | limit => rfl
    | drop => rfl

theorem suffix_dropCounter (program : Program) : dropCounter program <:+ program := by
  unfold dropCounter
  split
  · exact List.suffix_cons _ _
  · exact List.suffix_rfl

theorem Phrase.suffix (h : Phrase program statement rest) : rest <:+ program := by
  cases h with
  | host => exact (List.suffix_cons _ _).trans (List.suffix_cons _ _)
  | block =>
      exact ((List.suffix_cons _ _).trans (List.suffix_cons _ _)).trans (List.suffix_cons _ _)
  | port => exact (List.suffix_cons _ _).trans (List.suffix_cons _ _)
  | protocol => exact (List.suffix_cons _ _).trans (List.suffix_cons _ _)
  | countNamed => exact (suffix_dropCounter _).trans (List.suffix_cons _ _)
  | count => exact List.suffix_cons _ _
  | limit => exact List.suffix_cons _ _
  | drop => exact List.suffix_cons _ _

end Reading

inductive Phrases : Program → List Statement → Prop
  | nil : Phrases [] []
  | cons {program rest : Program} {statement : Statement} {statements : List Statement}
      (phrase : Phrase program statement rest) (tail : Phrases rest statements) :
      Phrases program (statement :: statements)

theorem ofProgram?_cons_eq_ok_iff {expression : Expression} {program : Program}
    {statements : List Statement} :
    ofProgram? (expression :: program) = .ok statements ↔
      ∃ statement rest others, phrase? expression program = .ok (statement, rest) ∧
        ofProgram? rest = .ok others ∧ statements = statement :: others := by
  rw [ofProgram?_cons]
  cases hphrase : phrase? expression program with
  | error e => simp
  | ok found =>
      obtain ⟨statement, rest⟩ := found
      cases hrest : ofProgram? rest with
      | error e => simp [hrest, Except.map]
      | ok others => simp [hrest, Except.map, eq_comm]

/-- The programs that have statements are the sequences of phrases. -/
theorem ofProgram?_eq_ok_iff {program : Program} {statements : List Statement} :
    ofProgram? program = .ok statements ↔ Phrases program statements := by
  constructor
  · intro h
    induction statements generalizing program with
    | nil =>
        cases program with
        | nil => exact .nil
        | cons expression program =>
            obtain ⟨_, _, _, -, -, hcons⟩ := ofProgram?_cons_eq_ok_iff.mp h
            cases hcons
    | cons statement statements ih =>
        cases program with
        | nil => cases h
        | cons expression program =>
            obtain ⟨_, rest, _, hphrase, hrest, hcons⟩ := ofProgram?_cons_eq_ok_iff.mp h
            cases hcons
            exact .cons (phrase?_eq_ok_iff.mp hphrase) (ih hrest)
  · intro h
    induction h with
    | nil => rfl
    | @cons program rest statement statements phrase tail ih =>
        cases program with
        | nil => cases phrase
        | cons expression program =>
            exact ofProgram?_cons_eq_ok_iff.mpr
              ⟨statement, rest, statements, phrase?_eq_ok_iff.mpr phrase, ih, rfl⟩

end Statement

/-! ## What is not looked at -/

/--
Whether two expressions differ at most in what reading takes no notice of: registers, the length and
flips of a mask, and the places of its one bits.
-/
inductive Expression.ReadsLike : Expression → Expression → Prop
  | load (header : Header) (offset length target target' : Nat) :
      ReadsLike (.load header offset length target) (.load header offset length target')
  | mask {source target length source' target' length' : Nat} {kept flip kept' flip' : List UInt8}
      (sameLength : kept.length = kept'.length)
      (sameOnes : Statement.ones kept = Statement.ones kept') :
      ReadsLike (.mask source target length kept flip) (.mask source' target' length' kept' flip')
  | compare (register register' : Nat) (data : List UInt8) :
      ReadsLike (.compare register data) (.compare register' data)
  | loadProtocol (target target' : Nat) : ReadsLike (.loadProtocol target) (.loadProtocol target')
  | limit (unit : LimitUnit) (rate : Nat) (above : Bool) :
      ReadsLike (.limit unit rate above) (.limit unit rate above)
  | counterRef (name : String) : ReadsLike (.counterRef name) (.counterRef name)
  | counter (packets bytes : Nat) : ReadsLike (.counter packets bytes) (.counter packets bytes)
  | drop : ReadsLike .drop .drop

namespace Statement

theorem addressValue?_of_ones {data kept kept' : List UInt8} (h : ones kept = ones kept') :
    addressValue? data (some kept) = addressValue? data (some kept') := by
  simp only [addressValue?, h]

theorem dropCounter_readsLike {program other : Program}
    (h : List.Forall₂ Expression.ReadsLike program other) :
    List.Forall₂ Expression.ReadsLike (dropCounter program) (dropCounter other) := by
  cases h with
  | nil => exact .nil
  | cons first rest =>
      cases first with
      | counter => exact rest
      | load => exact .cons (.load _ _ _ _ _) rest
      | mask hlength hones => exact .cons (.mask hlength hones) rest
      | compare => exact .cons (.compare _ _ _) rest
      | loadProtocol => exact .cons (.loadProtocol _ _) rest
      | limit => exact .cons (.limit _ _ _) rest
      | counterRef => exact .cons (.counterRef _) rest
      | drop => exact .cons .drop rest

theorem Phrase.readsLike {program other rest : Program} {statement : Statement}
    (phrase : Phrase program statement rest)
    (h : List.Forall₂ Expression.ReadsLike program other) :
    ∃ rest', Phrase other statement rest' ∧ List.Forall₂ Expression.ReadsLike rest rest' := by
  cases phrase with
  | host hfield hvalue =>
      obtain _ | ⟨⟨⟩, _ | ⟨⟨⟩, hrest⟩⟩ := h
      exact ⟨_, .host hfield hvalue, hrest⟩
  | block hfield hvalue =>
      obtain _ | ⟨⟨⟩, _ | ⟨hmask, _ | ⟨⟨⟩, hrest⟩⟩⟩ := h
      cases hmask with
      | mask hlength hones =>
          exact ⟨_, .block hfield (addressValue?_of_ones hones ▸ hvalue), hrest⟩
  | port hport =>
      obtain _ | ⟨⟨⟩, _ | ⟨⟨⟩, hrest⟩⟩ := h
      exact ⟨_, .port hport, hrest⟩
  | protocol =>
      obtain _ | ⟨⟨⟩, _ | ⟨⟨⟩, hrest⟩⟩ := h
      exact ⟨_, .protocol, hrest⟩
  | countNamed =>
      obtain _ | ⟨⟨⟩, hrest⟩ := h
      exact ⟨_, .countNamed, dropCounter_readsLike hrest⟩
  | count =>
      obtain _ | ⟨⟨⟩, hrest⟩ := h
      exact ⟨_, .count, hrest⟩
  | limit =>
      obtain _ | ⟨⟨⟩, hrest⟩ := h
      exact ⟨_, .limit, hrest⟩
  | drop =>
      obtain _ | ⟨⟨⟩, hrest⟩ := h
      exact ⟨_, .drop, hrest⟩

theorem Phrases.readsLike {program other : Program} {statements : List Statement}
    (phrases : Phrases program statements)
    (h : List.Forall₂ Expression.ReadsLike program other) : Phrases other statements := by
  induction phrases generalizing other with
  | nil =>
      cases h
      exact .nil
  | cons phrase tail ih =>
      obtain ⟨rest', hphrase, hrest⟩ := phrase.readsLike h
      exact .cons hphrase (ih hrest)

end Statement

end FlowFence
