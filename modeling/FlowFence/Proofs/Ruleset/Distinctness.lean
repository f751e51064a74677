import FlowFence.Proofs.Json.Compact
import FlowFence.Proofs.Ruleset.Lifting

/-!
# Statements of different routes

What a route asks for can be read off from which statements it has. So two routes have the same
statements just when they ask for the same, and since statements with one JSON text are one, the
filter tool is never given the same rule for two filters.
-/

namespace FlowFence

namespace AddressValue

theorem ofNetwork_injective {a b : Network} (h : ofNetwork a = ofNetwork b) : a = b := by
  obtain ⟨base, length⟩ := a
  obtain ⟨base', length'⟩ := b
  by_cases ha : length = base.family.width <;> by_cases hb : length' = base'.family.width <;>
    simp [ofNetwork, Network.family, ha, hb] at h
  · subst h
    rw [ha, hb]
  · rw [h.1, h.2]

end AddressValue

def Criteria.port (criteria : Criteria) : Program.Direction → Nat
  | .source => criteria.sourcePort
  | .destination => criteria.destinationPort

theorem Criteria.ext_of_fields {a b : Criteria} (hblock : a.block? = b.block?)
    (hprotocol : a.protocol = b.protocol) (hport : a.port = b.port) : a = b := by
  have hsource : a.source = b.source := congrFun hblock .source
  have hdestination : a.destination = b.destination := congrFun hblock .destination
  have hsourcePort : a.sourcePort = b.sourcePort := congrFun hport .source
  have hdestinationPort : a.destinationPort = b.destinationPort := congrFun hport .destination
  cases a
  cases b
  simp_all

theorem Action.unit_eq_iff {a b : Action} {unit unit' : LimitUnit} (ha : a.RateOf unit)
    (hb : b.RateOf unit') : unit = unit' ↔ a = b := by
  cases a <;> cases b <;> simp_all [Action.RateOf]

theorem eq_of_ne_zero_iff {a b : Nat} (h : ∀ n, n ≠ 0 ∧ n = a ↔ n ≠ 0 ∧ n = b) : a = b := by
  by_cases ha : a = 0
  · by_cases hb : b = 0
    · omega
    · exact ((h b).mpr ⟨hb, rfl⟩).2.symm
  · exact ((h a).mp ⟨ha, rfl⟩).2

namespace Statement

/-! ## The statements of a route -/

section Membership

variable {route : Route} {unit : LimitUnit} {counters : Bool}

theorem mem_unlessZero_iff {statement : Nat → Statement} {n : Nat} {s : Statement} :
    s ∈ unlessZero statement n ↔ n ≠ 0 ∧ s = statement n := by
  unfold unlessZero
  by_cases h : n = 0 <;> simp [h]

theorem mem_ofBlock_iff {direction : Program.Direction} {block : Option Network} {s : Statement} :
    s ∈ ofBlock direction block ↔
      ∃ network ∈ block, s = .address ⟨network.family, direction⟩ (.ofNetwork network) := by
  cases block <;> simp [ofBlock]

theorem mem_limitTail_iff {rate : Nat} {s : Statement} :
    s ∈ limitTail unit rate counters ↔
      rate ≠ 0 ∧ (counters = true ∧ s = .countNamed NamedCounter.limitMatched ∨
        s = .limit unit rate true) := by
  unfold limitTail
  by_cases h : rate = 0 <;> cases counters <;> simp [h]

theorem mem_dropTail_iff {s : Statement} :
    s ∈ dropTail counters ↔
      counters = true ∧ s = .countNamed NamedCounter.dropped ∨ s = .drop := by
  cases counters <;> simp [dropTail]

theorem protocol_mem_ofRoute_iff {n : Nat} :
    .protocol n ∈ ofRoute route unit counters ↔ n ≠ 0 ∧ n = route.criteria.protocol := by
  simp only [ofRoute, ofCriteria, List.mem_append, mem_ofBlock_iff, mem_unlessZero_iff,
    mem_limitTail_iff, mem_dropTail_iff]
  constructor
  · simp +contextual
  · rintro ⟨hn, rfl⟩
    simp [hn]

theorem port_mem_ofRoute_iff {direction : Program.Direction} {n : Nat} :
    .port direction n ∈ ofRoute route unit counters ↔
      n ≠ 0 ∧ n = route.criteria.port direction := by
  simp only [ofRoute, ofCriteria, List.mem_append, mem_ofBlock_iff, mem_unlessZero_iff,
    mem_limitTail_iff, mem_dropTail_iff]
  constructor
  · cases direction <;> simp +contextual [Criteria.port]
  · rintro ⟨hn, rfl⟩
    cases direction <;> simp_all [Criteria.port]

theorem limit_mem_ofRoute_iff {other : LimitUnit} {rate : Nat} :
    .limit other rate true ∈ ofRoute route unit counters ↔
      rate ≠ 0 ∧ rate = route.argument.toNat ∧ other = unit := by
  simp only [ofRoute, ofCriteria, List.mem_append, mem_ofBlock_iff, mem_unlessZero_iff,
    mem_limitTail_iff, mem_dropTail_iff]
  constructor
  · simp +contextual
  · rintro ⟨hrate, rfl, rfl⟩
    simp [hrate]

theorem countNamed_mem_ofRoute_iff :
    .countNamed NamedCounter.dropped ∈ ofRoute route unit counters ↔ counters = true := by
  have hnames : NamedCounter.dropped ≠ NamedCounter.limitMatched := by decide
  simp [ofRoute, ofCriteria, mem_ofBlock_iff, mem_unlessZero_iff, mem_limitTail_iff,
    mem_dropTail_iff, hnames]

end Membership

section Injectivity

variable {first second : Route} {unit other : LimitUnit} {counters counters' : Bool}

theorem criteria_eq_of_ofRoute_eq
    (h : ofRoute first unit counters = ofRoute second other counters') :
    first.criteria = second.criteria := by
  refine Criteria.ext_of_fields (funext fun direction => Option.ext fun network => ?_) ?_
    (funext fun direction => eq_of_ne_zero_iff fun n => ?_)
  · have hside (left right : Route) (unit other : LimitUnit) (counters counters' : Bool)
        (h : ofRoute left unit counters = ofRoute right other counters')
        (hmem : network ∈ left.criteria.block? direction) :
        network ∈ right.criteria.block? direction := by
      have hstatement : .address ⟨network.family, direction⟩ (.ofNetwork network) ∈
          ofRoute left unit counters :=
        address_mem_ofRoute_iff.mpr ⟨network, hmem, rfl, rfl⟩
      rw [h] at hstatement
      obtain ⟨found, hfound, -, hvalue⟩ := address_mem_ofRoute_iff.mp hstatement
      exact AddressValue.ofNetwork_injective hvalue ▸ hfound
    exact ⟨hside first second _ _ _ _ h, hside second first _ _ _ _ h.symm⟩
  · refine eq_of_ne_zero_iff fun n => ?_
    rw [← protocol_mem_ofRoute_iff, h, protocol_mem_ofRoute_iff]
  · rw [← port_mem_ofRoute_iff, h, port_mem_ofRoute_iff]

/-- The statements of two routes are the same just when the routes ask for the same. -/
theorem ofRoute_eq_iff (hfirst : 0 ≤ first.argument) (hsecond : 0 ≤ second.argument) :
    ofRoute first unit counters = ofRoute second other counters' ↔
      first.criteria = second.criteria ∧ first.argument = second.argument ∧
        counters = counters' ∧ (first.argument = 0 ∨ unit = other) := by
  constructor
  · intro h
    have hlimit (u : LimitUnit) (rate : Nat) :
        rate ≠ 0 ∧ rate = first.argument.toNat ∧ u = unit ↔
          rate ≠ 0 ∧ rate = second.argument.toNat ∧ u = other := by
      have hmem : .limit u rate true ∈ ofRoute first unit counters ↔
          .limit u rate true ∈ ofRoute second other counters' := by rw [h]
      rwa [limit_mem_ofRoute_iff, limit_mem_ofRoute_iff] at hmem
    have hrate : first.argument.toNat = second.argument.toNat := by
      by_cases hzero : first.argument.toNat = 0
      · by_cases hother : second.argument.toNat = 0
        · omega
        · exact ((hlimit other _).mpr ⟨hother, rfl, rfl⟩).2.1.symm
      · exact ((hlimit unit _).mp ⟨hzero, rfl, rfl⟩).2.1
    refine ⟨criteria_eq_of_ofRoute_eq h, by omega, ?_, ?_⟩
    · rw [Bool.eq_iff_iff, ← countNamed_mem_ofRoute_iff, h, countNamed_mem_ofRoute_iff]
    · by_cases hzero : first.argument = 0
      · exact .inl hzero
      · exact .inr ((hlimit unit _).mp ⟨by omega, rfl, rfl⟩).2.2
  · rintro ⟨hcriteria, hargument, rfl, hunit⟩
    rcases hunit with hzero | rfl
    · simp [ofRoute, hcriteria, ← hargument, hzero, limitTail]
    · rw [ofRoute, ofRoute, hcriteria, hargument]

end Injectivity

/-! ## JSON of statements -/

theorem addressJson_injective {a b : Address} (h : addressJson a = addressJson b) : a = b := by
  have htext : a.text = b.text := String.ofList_inj.mp (Json.text.inj h)
  have hread := Address.parse?_text a
  rw [htext, Address.parse?_text] at hread
  exact (Option.some.inj hread).symm

theorem valueJson_injective {a b : AddressValue} (h : valueJson a = valueJson b) : a = b := by
  cases a with
  | host base =>
      cases b with
      | host base' => rw [addressJson_injective h]
      | block base' length' => simp [valueJson, addressJson, Json.keyed] at h
  | block base length =>
      cases b with
      | host base' => simp [valueJson, addressJson, Json.keyed] at h
      | block base' length' =>
          simp only [valueJson, Json.keyed, Json.natural, Json.object.injEq, List.cons.injEq,
            Prod.mk.injEq, Json.integer.injEq, true_and, and_true, Int.natCast_inj] at h
          rw [addressJson_injective h.1, h.2]

theorem limitJson_injective {unit unit' : LimitUnit} {rate rate' : Nat} {above above' : Bool}
    (h : limitJson unit rate above = limitJson unit' rate' above') :
    unit = unit' ∧ rate = rate' ∧ above = above' := by
  cases unit <;> cases unit' <;> cases above <;> cases above' <;>
    simp_all [limitJson, Json.natural_inj]

theorem fieldJson_injective {field field' : AddressField}
    (h : fieldJson field.headerName field.name = fieldJson field'.headerName field'.name) :
    field = field' := by
  obtain ⟨family, direction⟩ := field
  obtain ⟨family', direction'⟩ := field'
  cases family <;> cases family' <;> cases direction <;> cases direction' <;>
    simp [fieldJson, Json.keyed, AddressField.headerName, AddressField.name] at h ⊢

/-- Fields of the two headers are told apart by the names of their headers. -/
theorem fieldJson_ne_port (field : AddressField) (direction : Program.Direction) :
    fieldJson field.headerName field.name ≠ fieldJson "th" (portName direction) := by
  cases hfamily : field.family <;>
    simp [fieldJson, Json.keyed, AddressField.headerName, hfamily]

theorem matchJson_inj {left left' right right' : Json} :
    matchJson left right = matchJson left' right' ↔ left = left' ∧ right = right' := by
  simp [matchJson, Json.keyed]

theorem toJson_injective : Function.Injective toJson := by
  intro a b h
  cases a <;> cases b
  case address.address field value field' value' =>
    obtain ⟨hfield, hvalue⟩ := matchJson_inj.mp h
    rw [fieldJson_injective hfield, valueJson_injective hvalue]
  case address.port field value direction n =>
    exact (fieldJson_ne_port field direction (matchJson_inj.mp h).1).elim
  case port.address direction n field value =>
    exact (fieldJson_ne_port field direction (matchJson_inj.mp h).1.symm).elim
  case port.port direction n direction' n' =>
    obtain ⟨hfield, hvalue⟩ := matchJson_inj.mp h
    rw [Json.natural_inj.mp hvalue]
    cases direction <;> cases direction' <;> simp [fieldJson, Json.keyed, portName] at hfield ⊢
  case limit.limit unit rate above unit' rate' above' =>
    have hlimit : limitJson unit rate above = limitJson unit' rate' above' := by
      simpa [toJson, Json.keyed] using h
    obtain ⟨rfl, rfl, rfl⟩ := limitJson_injective hlimit
    rfl
  all_goals
    simp_all [toJson, matchJson, fieldJson, Json.keyed, Json.natural_inj]

end Statement

/--
Two routes that have programs are given the same rule just when they have the same criteria and the
same rate, count alike, and, unless the rate is zero, count the rate in the same unit.
-/
theorem statements_eq_iff_same_filter (first second : Route) (counters counters' : Bool)
    {program program' : Program} (hfirst : Program.ofRoute? first counters = .ok program)
    (hsecond : Program.ofRoute? second counters' = .ok program')
    (hfields : first.criteria.FitFields) (hfields' : second.criteria.FitFields) :
    ∃ statements statements', Statement.ofProgram? program = .ok statements ∧
      Statement.ofProgram? program' = .ok statements' ∧
      (statements.map Statement.toJson = statements'.map Statement.toJson ↔
        first.criteria = second.criteria ∧ first.argument = second.argument ∧
          counters = counters' ∧ (first.argument = 0 ∨ first.action = second.action)) := by
  obtain ⟨unit, hunit, hargument, rfl⟩ := Program.ofRoute?_eq_ok_iff.mp hfirst
  obtain ⟨unit', hunit', hargument', rfl⟩ := Program.ofRoute?_eq_ok_iff.mp hsecond
  refine ⟨_, _, Statement.ofProgram?_of_fitFields hfields unit counters,
    Statement.ofProgram?_of_fitFields hfields' unit' counters', ?_⟩
  rw [(List.map_injective_iff.mpr Statement.toJson_injective).eq_iff,
    Statement.ofRoute_eq_iff hargument hargument', Action.unit_eq_iff hunit hunit']

def halfBlockLimit : Route where
  session := ⟨"backup", .v4 0xC0000202, "2024-05-02"⟩
  criteria := { nameServerLimit.criteria with source := some ⟨.v4 0xCB007000, 21⟩ }
  action := .rateBytes
  argument := 6553600

theorem halfBlockLimit_fitFields : halfBlockLimit.criteria.FitFields where
  source := by
    rintro _ ⟨⟩
    decide
  destination := by rintro _ ⟨⟩
  protocol := by decide
  sourcePort := by decide
  destinationPort := by decide

/-- The two limits differ in one number of one statement, whatever neighbors they come from. -/
theorem halfBlockLimit_has_other_rule :
    ∃ program program' statements statements',
      Program.ofRoute? nameServerLimit true = .ok program ∧
        Program.ofRoute? halfBlockLimit true = .ok program' ∧
        Statement.ofProgram? program = .ok statements ∧
        Statement.ofProgram? program' = .ok statements' ∧
        statements.map Statement.toJson ≠ statements'.map Statement.toJson := by
  obtain ⟨statements, statements', hstatements, hstatements', hiff⟩ :=
    statements_eq_iff_same_filter nameServerLimit halfBlockLimit true true rfl rfl
      nameServerLimit_isEnforceable.fitFields halfBlockLimit_fitFields
  refine ⟨_, _, statements, statements', rfl, rfl, hstatements, hstatements', ?_⟩
  rw [Ne, hiff]
  decide

end FlowFence
