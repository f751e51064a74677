import FlowFence.Proofs.Address.RoundTrip
import FlowFence.Proofs.Traffic.Compilation
import FlowFence.Ruleset.Lift

/-!
# Statements of compiled programs

The statements that the program of a route is read as: each criterion gives one statement, and the
tail gives the limit, the counters and the drop. They drop what the route asks for, on packets of
either family, and a block is printed by the length and the address that the route gives it.
-/

namespace FlowFence

namespace AddressValue

def ofNetwork (network : Network) : AddressValue :=
  if network.length = network.family.width then .host network.base
  else .block network.base network.length

end AddressValue

/-- Whether the blocks and numbers of criteria are ones that the header fields can hold. -/
structure Criteria.FitFields (criteria : Criteria) : Prop where
  source : ∀ network ∈ criteria.source, network.length ≤ network.family.width
  destination : ∀ network ∈ criteria.destination, network.length ≤ network.family.width
  protocol : criteria.protocol < 256
  sourcePort : criteria.sourcePort < 65536
  destinationPort : criteria.destinationPort < 65536

theorem Route.IsEnforceable.fitFields {route : Route} (h : route.IsEnforceable) :
    route.criteria.FitFields where
  source network hnetwork := Network.length_le_of_isBuilt (h.source network hnetwork)
  destination network hnetwork := Network.length_le_of_isBuilt (h.destination network hnetwork)
  protocol := h.protocol
  sourcePort := h.sourcePort
  destinationPort := h.destinationPort

def Criteria.block? (criteria : Criteria) : Program.Direction → Option Network
  | .source => criteria.source
  | .destination => criteria.destination

namespace Statement

def ofBlock (direction : Program.Direction) : Option Network → List Statement
  | some network => [.address ⟨network.family, direction⟩ (.ofNetwork network)]
  | none => []

def unlessZero (statement : Nat → Statement) (n : Nat) : List Statement :=
  if n = 0 then [] else [statement n]

def ofCriteria (criteria : Criteria) : List Statement :=
  ofBlock .source criteria.source ++ ofBlock .destination criteria.destination ++
    unlessZero .protocol criteria.protocol ++
    unlessZero (.port .source) criteria.sourcePort ++
    unlessZero (.port .destination) criteria.destinationPort

def limitTail (unit : LimitUnit) (rate : Nat) (counters : Bool) : List Statement :=
  if rate = 0 then []
  else (if counters then [.countNamed NamedCounter.limitMatched] else []) ++
    [.limit unit rate true]

def dropTail (counters : Bool) : List Statement :=
  (if counters then [.countNamed NamedCounter.dropped] else []) ++ [.drop]

/-! ## Masks and addresses in programs -/

theorem onesOf_eq_count (byte : UInt8) :
    onesOf byte = ((List.range 8).map byte.toBitVec.getMsbD).count true := by
  have hbits : (List.range 8).map byte.toBitVec.getMsbD =
      ((List.range 8).map byte.toNat.testBit).reverse := by
    simp [List.range_succ, BitVec.getMsbD, BitVec.getLsbD]
  rw [hbits, List.count_reverse, List.count, List.countP_map, List.countP_eq_length_filter, onesOf]
  congr 1
  apply List.filter_congr
  intro i _
  simp

theorem ones_eq_count (bytes : List UInt8) : ones bytes = (bitList bytes).count true := by
  induction bytes with
  | nil => rfl
  | cons byte bytes ih =>
      rw [ones, ih, onesOf_eq_count, bitList, bitList, List.flatMap_cons, List.count_append]

theorem ones_maskBytes {network : Network} (h : network.length ≤ network.family.width) :
    ones network.maskBytes = network.length := by
  rw [ones_eq_count, Network.maskBytes, Network.bitList_mask h]
  simp [List.count_replicate]

end Statement

theorem ofBytes_bytes (address : Address) :
    Address.ofBytes address.family address.bytes = address := by
  have hbytes : (Address.ofBytes address.family address.bytes).bytes = address.bytes :=
    bytes_ofBytes address.length_bytes
  obtain ⟨family, bits⟩ := address
  exact congrArg (Address.mk family) (bigEndian_injective (Family.width_eq family) hbytes)

theorem ofBytes?_bytes (address : Address) : Address.ofBytes? address.bytes = some address := by
  have hround := ofBytes_bytes address
  have hlength := address.length_bytes
  obtain ⟨family, bits⟩ := address
  cases family with
  | ipv4 =>
      have hfour : (Address.mk .ipv4 bits).bytes.length = 4 := hlength
      rw [Address.ofBytes?, if_pos hfour]
      exact congrArg some hround
  | ipv6 =>
      have hsixteen : (Address.mk .ipv6 bits).bytes.length = 16 := hlength
      rw [Address.ofBytes?, if_neg (by omega), if_pos hsixteen]
      exact congrArg some hround

namespace Statement

/-! ## Reading tests -/

/-- Whether expressions in front of any program are read as statements in front of its own. -/
def Reads (test : Program) (statements : List Statement) : Prop :=
  ∀ rest, ofProgram? (test ++ rest) = (ofProgram? rest).map (statements ++ ·)

theorem reads_nil : Reads [] [] := by
  intro rest
  cases h : ofProgram? rest <;> simp [h, Except.map]

theorem Reads.append {first second : Program} {front back : List Statement}
    (hfirst : Reads first front) (hsecond : Reads second back) :
    Reads (first ++ second) (front ++ back) := by
  intro rest
  rw [List.append_assoc, hfirst, hsecond]
  cases ofProgram? rest <;> simp [Except.map]

theorem Reads.eq_ok {test : Program} {statements : List Statement} (h : Reads test statements) :
    ofProgram? test = .ok statements := by
  have hnil := h []
  simpa [Except.map] using hnil

theorem reads_phrase {expression : Expression} {phrase : Program} {statement : Statement}
    (h : ∀ rest, phrase? expression (phrase ++ rest) = .ok (statement, rest)) :
    Reads (expression :: phrase) [statement] := by
  intro rest
  rw [List.cons_append, ofProgram?_cons, h]
  rfl

theorem at?_addressOffset (family : Family) (direction : Program.Direction) :
    AddressField.at? (Program.addressOffset family direction) family.byteCount =
      some ⟨family, direction⟩ := by
  cases family <;> cases direction <;> rfl

/-- Data of an address are read as the block around it that is as long as the mask has one bits. -/
theorem addressValue?_of_length {family : Family} {data : List UInt8}
    (h : data.length = family.byteCount) (kept : Option (List UInt8)) :
    addressValue? data kept =
      .ok (.ofNetwork ⟨.ofBytes family data, (kept.map ones).getD family.width⟩) := by
  have hbase : Address.ofBytes? data = some (.ofBytes family data) := by
    have hround := ofBytes?_bytes (.ofBytes family data)
    rwa [bytes_ofBytes h] at hround
  have hwidth : 8 * data.length = family.width := by rw [h, Family.width_eq]
  simp only [addressValue?, hbase, hwidth]
  cases kept <;> rfl

theorem addressValue?_maskBytes {network : Network} (h : network.length ≤ network.family.width) :
    addressValue? network.baseBytes (some network.maskBytes) = .ok (.ofNetwork network) := by
  have hbase : Address.ofBytes network.family network.baseBytes = network.base :=
    ofBytes_bytes network.base
  rw [addressValue?_of_length network.length_baseBytes, hbase, Option.map_some, Option.getD_some,
    ones_maskBytes h]

theorem reads_addressTest? (direction : Program.Direction) {block : Option Network}
    (hlength : ∀ network ∈ block, network.length ≤ network.family.width) :
    Reads (Program.addressTest? direction block) (ofBlock direction block) := by
  cases block with
  | none => exact reads_nil
  | some network =>
      apply reads_phrase
      intro rest
      simp only [phrase?, at?_addressOffset, List.cons_append, List.nil_append, addressPhrase?,
        addressValue?_maskBytes (hlength network rfl)]
      rfl

theorem reads_portTest (direction : Program.Direction) {port : Nat} (h : port < 65536) :
    Reads (Program.portTest direction port) [.port direction port] := by
  apply reads_phrase
  intro rest
  have hport : portAt? (Program.portOffset direction) = some direction := by
    cases direction <;> rfl
  have hvalue : (UInt8.ofNat (port / 256)).toNat * 256 + (UInt8.ofNat (port % 256)).toNat =
      port := by
    rw [UInt8.toNat_ofNat', UInt8.toNat_ofNat']
    omega
  simp only [phrase?, hport, List.cons_append, List.nil_append, portPhrase?, hvalue]

theorem reads_protocolTest {protocol : Nat} (h : protocol < 256) :
    Reads (Program.protocolTest protocol) [.protocol protocol] := by
  apply reads_phrase
  intro rest
  have hvalue : (UInt8.ofNat protocol).toNat = protocol := by
    rw [UInt8.toNat_ofNat', Nat.mod_eq_of_lt h]
  simp only [phrase?, List.cons_append, List.nil_append, protocolPhrase?, hvalue]

theorem reads_unlessZero {test : Nat → Program} {statement : Nat → Statement} {n : Nat}
    (h : Reads (test n) [statement n]) :
    Reads (Program.unlessZero test n) (unlessZero statement n) := by
  unfold Program.unlessZero unlessZero
  split
  · exact reads_nil
  · exact h

theorem reads_countIn (name : String) : Reads (Program.countIn name) [.countNamed name] :=
  reads_phrase fun _ => rfl

theorem reads_counterIf (counters : Bool) (name : String) :
    Reads (if counters then Program.countIn name else [])
      (if counters then [.countNamed name] else []) := by
  cases counters
  · exact reads_nil
  · exact reads_countIn name

theorem reads_limitTail (unit : LimitUnit) (rate : Nat) (counters : Bool) :
    Reads (Program.limitTail unit rate counters) (limitTail unit rate counters) := by
  unfold Program.limitTail limitTail
  split
  · exact reads_nil
  · exact (reads_counterIf counters _).append (reads_phrase fun _ => rfl)

theorem reads_dropTail (counters : Bool) : Reads (Program.dropTail counters) (dropTail counters) :=
  (reads_counterIf counters _).append (reads_phrase fun _ => rfl)

theorem reads_tests {criteria : Criteria} (h : criteria.FitFields) :
    Reads (Program.tests criteria) (ofCriteria criteria) :=
  ((((reads_addressTest? .source h.source).append
    (reads_addressTest? .destination h.destination)).append
    (reads_unlessZero (reads_protocolTest h.protocol))).append
    (reads_unlessZero (reads_portTest .source h.sourcePort))).append
    (reads_unlessZero (reads_portTest .destination h.destinationPort))

/-! ## Evaluating statements -/

variable {packet : Packet} {exceeds : Limiter}

/-- Whether statements let those behind them be evaluated just if a condition holds. -/
def Guards (packet : Packet) (exceeds : Limiter) (statements : List Statement)
    (condition : Prop) : Prop :=
  ∀ rest, drops packet exceeds (statements ++ rest) = true ↔
    condition ∧ drops packet exceeds rest = true

theorem guards_nil : Guards packet exceeds [] True := by
  intro rest
  simp

theorem Guards.append {front back : List Statement} {p q : Prop}
    (hfront : Guards packet exceeds front p) (hback : Guards packet exceeds back q) :
    Guards packet exceeds (front ++ back) (p ∧ q) := by
  intro rest
  rw [List.append_assoc, hfront, hback, and_assoc]

theorem Guards.congr {statements : List Statement} {p q : Prop}
    (h : Guards packet exceeds statements p) (hpq : p ↔ q) :
    Guards packet exceeds statements q := by
  intro rest
  rw [h, hpq]

/-- A statement that never drops by itself guards by the condition it goes on under. -/
theorem guards_singleton {statement : Statement} {condition : Prop} [Decidable condition]
    (h : statement.verdict? packet exceeds = if condition then none else some false) :
    Guards packet exceeds [statement] condition := by
  intro rest
  by_cases hcondition : condition <;> simp [drops, h, hcondition]

theorem family_of_address? {direction : Program.Direction} {address : Address}
    (h : packet.address? direction = some address) : address.family = packet.family := by
  cases direction <;>
  · simp only [Packet.address?, Packet.source?, Packet.destination?, Packet.addressBehind?,
      Option.map_eq_some_iff] at h
    obtain ⟨bytes, -, rfl⟩ := h
    rfl

theorem agreesOn_width_iff (a b : Address) : a.AgreesOn a.family.width b ↔ b = a := by
  constructor
  · rintro ⟨hfamily, hbits⟩
    obtain ⟨family, bits⟩ := a
    obtain ⟨family', bits'⟩ := b
    dsimp only at hfamily
    subst hfamily
    have hsame : bits = bits' := BitVec.eq_of_getMsbD_eq hbits
    rw [hsame]
  · rintro rfl
    exact ⟨rfl, fun _ _ => rfl⟩

theorem holds_ofNetwork (network : Network) (address : Address) :
    (AddressValue.ofNetwork network).holds address = true ↔ network.Holds address := by
  unfold AddressValue.ofNetwork
  split
  · rename_i hlength
    rw [AddressValue.holds, beq_iff_eq, ← agreesOn_width_iff, Network.Holds, hlength]
    rfl
  · rw [AddressValue.holds, decide_eq_true_iff, Network.Holds]

theorem guards_ofBlock (direction : Program.Direction) (block : Option Network) :
    Guards packet exceeds (ofBlock direction block)
      (∀ network ∈ block, ∃ address ∈ packet.address? direction, network.Holds address) := by
  cases block with
  | none => exact guards_nil.congr (by simp)
  | some network =>
      refine (guards_singleton rfl).congr ?_
      simp only [Option.any_eq_true, holds_ofNetwork, Option.mem_def, Option.some.injEq,
        forall_eq']
      constructor
      · rintro ⟨-, address, haddress, hholds⟩
        exact ⟨address, haddress, hholds⟩
      · rintro ⟨address, haddress, hholds⟩
        have hfamily : network.family = address.family := hholds.family
        exact ⟨(family_of_address? haddress).symm.trans hfamily.symm, address, haddress, hholds⟩

theorem guards_unlessZero {statement : Nat → Statement} {n : Nat} {value : Option Nat}
    (h : Guards packet exceeds [statement n] (value = some n)) :
    Guards packet exceeds (unlessZero statement n) (IsValueOrAny n value) := by
  unfold unlessZero
  split
  · exact guards_nil.congr (by simp [IsValueOrAny, *])
  · exact h.congr (by simp [IsValueOrAny, *])

theorem guards_protocol (protocol : Nat) :
    Guards packet exceeds [.protocol protocol] (some packet.protocol.toNat = some protocol) :=
  (guards_singleton rfl).congr (by simp)

/-- The statements of criteria let those behind them be evaluated for packets that meet them. -/
theorem guards_ofCriteria (criteria : Criteria) :
    Guards packet exceeds (ofCriteria criteria) (criteria.IsMetBy packet) := by
  have hsource : Guards packet exceeds _ _ := guards_ofBlock .source criteria.source
  have hdestination : Guards packet exceeds _ _ := guards_ofBlock .destination criteria.destination
  have hprotocol : Guards packet exceeds _ _ :=
    guards_unlessZero (guards_protocol criteria.protocol)
  have hsourcePort : Guards packet exceeds (unlessZero (.port .source) criteria.sourcePort) _ :=
    guards_unlessZero (guards_singleton rfl)
  have hdestinationPort :
      Guards packet exceeds (unlessZero (.port .destination) criteria.destinationPort) _ :=
    guards_unlessZero (guards_singleton rfl)
  refine ((((hsource.append hdestination).append hprotocol).append hsourcePort).append
    hdestinationPort).congr ⟨?_, ?_⟩
  · rintro ⟨⟨⟨⟨hs, hd⟩, hp⟩, hsp⟩, hdp⟩
    exact ⟨hs, hd, hp, hsp, hdp⟩
  · rintro ⟨hs, hd, hp, hsp, hdp⟩
    exact ⟨⟨⟨⟨hs, hd⟩, hp⟩, hsp⟩, hdp⟩

theorem guards_countNamed (name : String) : Guards packet exceeds [.countNamed name] True :=
  guards_singleton rfl

theorem guards_limitTail (unit : LimitUnit) (rate : Nat) (counters : Bool) :
    Guards packet exceeds (limitTail unit rate counters) (rate = 0 ∨ exceeds unit rate = true) := by
  have hlimit : Guards packet exceeds [.limit unit rate true] (exceeds unit rate = true) :=
    guards_singleton rfl
  unfold limitTail
  split
  · exact guards_nil.congr (by simp [*])
  · cases counters
    · exact hlimit.congr (by simp [*])
    · exact ((guards_countNamed _).append hlimit).congr (by simp [*])

theorem drops_dropTail (counters : Bool) : drops packet exceeds (dropTail counters) = true := by
  cases counters <;> rfl

/-! ## Statements of routes -/

def ofRoute (route : Route) (unit : LimitUnit) (counters : Bool) : List Statement :=
  ofCriteria route.criteria ++ limitTail unit route.argument.toNat counters ++ dropTail counters

theorem ofProgram?_of_fitFields {route : Route} (h : route.criteria.FitFields) (unit : LimitUnit)
    (counters : Bool) :
    ofProgram? (Program.tests route.criteria ++
      Program.limitTail unit route.argument.toNat counters ++ Program.dropTail counters) =
      .ok (ofRoute route unit counters) :=
  (((reads_tests h).append (reads_limitTail _ _ counters)).append
    (reads_dropTail counters)).eq_ok

theorem ofProgram?_ofRoute {route : Route} (h : route.IsEnforceable) (unit : LimitUnit)
    (counters : Bool) :
    ofProgram? (Program.tests route.criteria ++
      Program.limitTail unit route.argument.toNat counters ++ Program.dropTail counters) =
      .ok (ofRoute route unit counters) :=
  ofProgram?_of_fitFields h.fitFields unit counters

theorem drops_ofRoute_iff {route : Route} (h : route.IsEnforceable) {unit : LimitUnit}
    (hunit : route.action.RateOf unit) (counters : Bool) :
    drops packet exceeds (ofRoute route unit counters) = true ↔
      route.AsksToDrop packet exceeds := by
  have hguards : Guards packet exceeds _ _ := (guards_ofCriteria route.criteria).append
    (guards_limitTail unit route.argument.toNat counters)
  rw [Program.asksToDrop_iff h hunit, ofRoute, hguards, drops_dropTail]
  simp

theorem address_mem_ofRoute_iff {route : Route} {unit : LimitUnit} {counters : Bool}
    {field : AddressField} {value : AddressValue} :
    .address field value ∈ ofRoute route unit counters ↔
      ∃ network ∈ route.criteria.block? field.direction,
        field.family = network.family ∧ value = .ofNetwork network := by
  have htail : .address field value ∉ limitTail unit route.argument.toNat counters := by
    unfold limitTail
    split
    · simp
    · cases counters <;> simp
  have hdrop : .address field value ∉ dropTail counters := by
    cases counters <;> simp [dropTail]
  have hnumber (statement : Nat → Statement) (n : Nat)
      (hother : .address field value ≠ statement n) :
      .address field value ∉ unlessZero statement n := by
    unfold unlessZero
    split <;> simp [hother]
  have hblock (direction : Program.Direction) (block : Option Network) :
      .address field value ∈ ofBlock direction block ↔
        ∃ network ∈ block, field = ⟨network.family, direction⟩ ∧ value = .ofNetwork network := by
    cases block <;> simp [ofBlock]
  obtain ⟨family, direction⟩ := field
  cases direction <;>
    simp [ofRoute, ofCriteria, htail, hdrop, hnumber, hblock, Criteria.block?]

theorem valueJson_ofNetwork (network : Network) :
    valueJson (.ofNetwork network) =
      if network.length = network.family.width then .text (String.ofList network.base.text)
      else .keyed "prefix" (.object
        [("addr", .text (String.ofList network.base.text)), ("len", .natural network.length)]) := by
  unfold AddressValue.ofNetwork
  split <;> rfl

end Statement

theorem Route.IsEnforceable.block {route : Route} (h : route.IsEnforceable)
    {direction : Program.Direction} {network : Network}
    (hnetwork : network ∈ route.criteria.block? direction) : network.IsBuilt := by
  cases direction with
  | source => exact h.source network hnetwork
  | destination => exact h.destination network hnetwork

end FlowFence
