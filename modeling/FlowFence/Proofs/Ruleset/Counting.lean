import FlowFence.CounterPoller
import FlowFence.Proofs.Ruleset.Lifting
import FlowFence.Proofs.Ruleset.Phrases

/-!
# Counters take no part

The counters of a program stand apart from what it decides: taken out, they leave the program that is
compiled without counters, and its statements. Every reference has its counter right behind it and
names a counter that was created before, so no rule is refused for the sake of a counter.
-/

namespace FlowFence

namespace Expression

def isCounting : Expression → Bool
  | .counterRef _ => true
  | .counter _ _ => true
  | _ => false

def isDrop : Expression → Bool
  | .drop => true
  | _ => false

def isTest (expression : Expression) : Bool :=
  !(expression.isCounting || expression.isLimit || expression.isDrop)

end Expression

def Statement.isCounting : Statement → Bool
  | .countNamed _ => true
  | .count _ _ => true
  | _ => false

/-! ## Programs in which counters have references -/

namespace Program

/-- Whether every reference has a counter right behind it, and every counter a reference before it. -/
inductive IsPaired : Program → Prop
  | nil : IsPaired []
  | other {expression : Expression} {rest : Program} (h : expression.isCounting = false)
      (paired : IsPaired rest) : IsPaired (expression :: rest)
  | pair {name : String} {packets bytes : Nat} {rest : Program} (paired : IsPaired rest) :
      IsPaired (.counterRef name :: .counter packets bytes :: rest)

section Pairs

variable {program : Program}

theorem IsPaired.append {first second : Program} (hfirst : first.IsPaired)
    (hsecond : second.IsPaired) : IsPaired (first ++ second) := by
  induction hfirst with
  | nil => exact hsecond
  | other h _ ih => exact .other h ih
  | pair _ ih => exact .pair ih

theorem isPaired_of_forall (h : ∀ expression ∈ program, expression.isTest = true) :
    program.IsPaired := by
  induction program with
  | nil => exact .nil
  | cons expression program ih =>
      have htest := h expression List.mem_cons_self
      simp only [Expression.isTest, Bool.not_eq_true', Bool.or_eq_false_iff] at htest
      exact .other htest.1.1 (ih fun other hother => h other (List.mem_cons_of_mem _ hother))

theorem IsPaired.of_cons {expression : Expression} (h : IsPaired (expression :: program))
    (hother : expression.isCounting = false) : program.IsPaired := by
  cases h with
  | other _ paired => exact paired
  | pair => cases hother

/-- A counter follows every reference. -/
theorem IsPaired.counter_behind (h : program.IsPaired) {before after : Program} {name : String}
    (hprogram : program = before ++ .counterRef name :: after) :
    ∃ packets bytes rest, after = .counter packets bytes :: rest := by
  induction h generalizing before with
  | nil => simp at hprogram
  | other hother paired ih =>
      cases before with
      | nil =>
          cases hprogram
          cases hother
      | cons first before =>
          cases hprogram
          exact ih rfl
  | @pair name' packets bytes rest paired ih =>
      rcases before with _ | ⟨first, _ | ⟨second, before⟩⟩
      · cases hprogram
        exact ⟨packets, bytes, rest, rfl⟩
      · cases hprogram
      · cases hprogram
        exact ih rfl

/-- A program that is read phrase by phrase has no counter that begins one. -/
theorem IsPaired.count_not_mem (h : program.IsPaired) {statements : List Statement}
    (hphrases : Statement.Phrases program statements) (packets bytes : Nat) :
    .count packets bytes ∉ statements := by
  induction hphrases with
  | nil => exact List.not_mem_nil
  | cons phrase tail ih =>
      cases phrase with
      | host => simpa using ih ((h.of_cons rfl).of_cons rfl)
      | block => simpa using ih (((h.of_cons rfl).of_cons rfl).of_cons rfl)
      | port => simpa using ih ((h.of_cons rfl).of_cons rfl)
      | protocol => simpa using ih ((h.of_cons rfl).of_cons rfl)
      | countNamed =>
          cases h with
          | other hother => cases hother
          | pair paired => simpa using ih paired
      | count =>
          cases h with
          | other hother => cases hother
      | limit => simpa using ih (h.of_cons rfl)
      | drop => simpa using ih (h.of_cons rfl)

end Pairs

end Program

/-! ## Statements without counters -/

namespace Statement

/-- The statements of a program without its counters are its statements without theirs. -/
theorem Phrases.filter {program : Program} {statements : List Statement}
    (h : Phrases program statements) :
    Phrases (program.filter (!·.isCounting)) (statements.filter (!·.isCounting)) := by
  induction h with
  | nil => exact .nil
  | cons phrase tail ih =>
      cases phrase with
      | host field_at value_of => exact .cons (.host field_at value_of) ih
      | block field_at value_of => exact .cons (.block field_at value_of) ih
      | port port_at => exact .cons (.port port_at) ih
      | protocol => exact .cons .protocol ih
      | @countNamed name rest =>
          -- the counter behind the reference goes with it
          have hrest : (dropCounter rest).filter (!·.isCounting) = rest.filter (!·.isCounting) := by
            unfold dropCounter
            split <;> rfl
          rw [hrest] at ih
          exact ih
      | count => exact ih
      | limit => exact .cons .limit ih
      | drop => exact .cons .drop ih

/-! ## Compiled programs have statements -/

theorem exists_reads_addressTest? (direction : Program.Direction) (block : Option Network) :
    ∃ statements, Reads (Program.addressTest? direction block) statements := by
  cases block with
  | none => exact ⟨[], reads_nil⟩
  | some network =>
      let value := AddressValue.ofNetwork
        ⟨.ofBytes network.family network.baseBytes, ones network.maskBytes⟩
      refine ⟨[.address ⟨network.family, direction⟩ value], reads_phrase fun rest => ?_⟩
      simp only [phrase?, at?_addressOffset, List.cons_append, List.nil_append, addressPhrase?,
        addressValue?_of_length network.length_baseBytes]
      rfl

theorem exists_reads_portTest (direction : Program.Direction) (port : Nat) :
    ∃ statements, Reads (Program.portTest direction port) statements := by
  have hport : portAt? (Program.portOffset direction) = some direction := by
    cases direction <;> rfl
  let value := (UInt8.ofNat (port / 256)).toNat * 256 + (UInt8.ofNat (port % 256)).toNat
  refine ⟨[.port direction value], reads_phrase fun rest => ?_⟩
  simp only [phrase?, hport, List.cons_append, List.nil_append, portPhrase?]
  rfl

theorem exists_reads_protocolTest (protocol : Nat) :
    ∃ statements, Reads (Program.protocolTest protocol) statements :=
  ⟨[.protocol (UInt8.ofNat protocol).toNat], reads_phrase fun _ => rfl⟩

theorem exists_reads_unlessZero {test : Nat → Program} (n : Nat)
    (h : ∃ statements, Reads (test n) statements) :
    ∃ statements, Reads (Program.unlessZero test n) statements := by
  unfold Program.unlessZero
  split
  · exact ⟨[], reads_nil⟩
  · exact h

theorem exists_reads_append {first second : Program} (hfirst : ∃ front, Reads first front)
    (hsecond : ∃ back, Reads second back) : ∃ statements, Reads (first ++ second) statements := by
  obtain ⟨front, hfront⟩ := hfirst
  obtain ⟨back, hback⟩ := hsecond
  exact ⟨front ++ back, hfront.append hback⟩

/-- Whatever the numbers of criteria are, their tests are read as statements. -/
theorem exists_reads_tests (criteria : Criteria) :
    ∃ statements, Reads (Program.tests criteria) statements :=
  exists_reads_append
    (exists_reads_append
      (exists_reads_append
        (exists_reads_append (exists_reads_addressTest? .source criteria.source)
          (exists_reads_addressTest? .destination criteria.destination))
        (exists_reads_unlessZero _ (exists_reads_protocolTest _)))
      (exists_reads_unlessZero _ (exists_reads_portTest .source _)))
    (exists_reads_unlessZero _ (exists_reads_portTest .destination _))

end Statement

/-! ## Compiled programs -/

namespace Program

section Parts

variable (criteria : Criteria) (unit : LimitUnit) (rate : Nat) (counters : Bool)

theorem forall_mem_unlessZero {test : Nat → Program} {n : Nat} {p : Expression → Prop}
    (h : ∀ expression ∈ test n, p expression) : ∀ expression ∈ unlessZero test n, p expression := by
  unfold unlessZero
  split
  · simp
  · exact h

theorem isTest_of_mem_tests {expression : Expression} (h : expression ∈ tests criteria) :
    expression.isTest = true := by
  have haddress (direction : Direction) (block : Option Network) :
      ∀ expression ∈ addressTest? direction block, expression.isTest = true := by
    cases block <;> simp [addressTest?, addressTest, Expression.isTest, Expression.isCounting,
      Expression.isLimit, Expression.isDrop]
  have hprotocol : ∀ expression ∈ unlessZero protocolTest criteria.protocol,
      expression.isTest = true := by
    apply forall_mem_unlessZero
    simp [protocolTest, Expression.isTest, Expression.isCounting, Expression.isLimit,
      Expression.isDrop]
  have hport (direction : Direction) (port : Nat) :
      ∀ expression ∈ unlessZero (portTest direction) port, expression.isTest = true := by
    apply forall_mem_unlessZero
    simp [portTest, Expression.isTest, Expression.isCounting, Expression.isLimit,
      Expression.isDrop]
  simp only [tests, List.mem_append] at h
  rcases h with (((h | h) | h) | h) | h
  · exact haddress _ _ expression h
  · exact haddress _ _ expression h
  · exact hprotocol expression h
  · exact hport _ _ expression h
  · exact hport _ _ expression h

theorem kinds_of_mem_tests {expression : Expression} (h : expression ∈ tests criteria) :
    expression.isCounting = false ∧ expression.isLimit = false ∧ expression.isDrop = false := by
  have htest := isTest_of_mem_tests criteria h
  simpa [Expression.isTest, and_assoc] using htest

def ofRate (criteria : Criteria) (unit : LimitUnit) (rate : Nat) (counters : Bool) : Program :=
  tests criteria ++ limitTail unit rate counters ++ dropTail counters

theorem filter_ofRate :
    (ofRate criteria unit rate true).filter (!·.isCounting) = ofRate criteria unit rate false := by
  have htests : (tests criteria).filter (!·.isCounting) = tests criteria := by
    rw [List.filter_eq_self]
    intro expression hmem
    simp [(kinds_of_mem_tests criteria hmem).1]
  have hlimit : (limitTail unit rate true).filter (!·.isCounting) = limitTail unit rate false := by
    unfold limitTail
    split <;> rfl
  have hdrop : (dropTail true).filter (!·.isCounting) = dropTail false := rfl
  rw [ofRate, List.filter_append, List.filter_append, htests, hlimit, hdrop, ofRate]

theorem isPaired_ofRate : (ofRate criteria unit rate counters).IsPaired := by
  have hlimit : (limitTail unit rate counters).IsPaired := by
    unfold limitTail
    split
    · exact .nil
    · cases counters
      · exact .other rfl .nil
      · exact .pair (.other rfl .nil)
  have hdrop : (dropTail counters).IsPaired := by
    cases counters
    · exact .other rfl .nil
    · exact .pair (.other rfl .nil)
  have htests : (tests criteria).IsPaired :=
    isPaired_of_forall fun _ hmem => isTest_of_mem_tests criteria hmem
  exact (htests.append hlimit).append hdrop

theorem exists_phrases_ofRate :
    ∃ statements, Statement.Phrases (ofRate criteria unit rate counters) statements := by
  obtain ⟨statements, hreads⟩ := Statement.exists_reads_append
    (Statement.exists_reads_append (Statement.exists_reads_tests criteria)
      ⟨_, Statement.reads_limitTail unit rate counters⟩) ⟨_, Statement.reads_dropTail counters⟩
  exact ⟨statements, Statement.ofProgram?_eq_ok_iff.mp hreads.eq_ok⟩

theorem countP_isLimit_ofRate :
    (ofRate criteria unit rate counters).countP Expression.isLimit = if rate = 0 then 0 else 1 := by
  have htests : (tests criteria).countP Expression.isLimit = 0 := by
    rw [List.countP_eq_zero]
    intro expression hmem
    simp [(kinds_of_mem_tests criteria hmem).2.1]
  have hdrop : (dropTail counters).countP Expression.isLimit = 0 := by cases counters <;> rfl
  rw [ofRate, List.countP_append, List.countP_append, htests, hdrop]
  unfold limitTail
  split
  · rfl
  · cases counters <;> rfl

theorem countP_isDrop_ofRate : (ofRate criteria unit rate counters).countP Expression.isDrop = 1 := by
  have htests : (tests criteria).countP Expression.isDrop = 0 := by
    rw [List.countP_eq_zero]
    intro expression hmem
    simp [(kinds_of_mem_tests criteria hmem).2.2]
  have hlimit : (limitTail unit rate counters).countP Expression.isDrop = 0 := by
    unfold limitTail
    split
    · rfl
    · cases counters <;> rfl
  rw [ofRate, List.countP_append, List.countP_append, htests, hlimit]
  cases counters <;> rfl

theorem getLast?_ofRate : (ofRate criteria unit rate counters).getLast? = some .drop := by
  rw [ofRate, dropTail, ← List.append_assoc]
  exact List.getLast?_concat

theorem name_mem_all {name : String} (h : .counterRef name ∈ ofRate criteria unit rate counters) :
    name ∈ NamedCounter.all := by
  have htail {other : String} (h : .counterRef name ∈ if counters then countIn other else []) :
      name = other := by
    cases counters <;> simp [countIn] at h
    exact h
  rcases List.mem_append.mp h with hfront | hdrop
  · rcases List.mem_append.mp hfront with htest | hlimit
    · cases (kinds_of_mem_tests criteria htest).1
    · unfold limitTail at hlimit
      split at hlimit
      · cases hlimit
      · rcases List.mem_append.mp hlimit with hcounter | hother
        · simp [htail hcounter, NamedCounter.all]
        · simp at hother
  · rcases List.mem_append.mp hdrop with hcounter | hother
    · simp [htail hcounter, NamedCounter.all]
    · simp at hother

end Parts

end Program

/-- The counters that are created before rules refer to them. -/
theorem CounterPoller.provision_invocation? (table : String) :
    (provision table).invocation? =
      .ok (some (Tool.apply (NamedCounter.all.map (Command.addCounter table)))) := rfl

end FlowFence
