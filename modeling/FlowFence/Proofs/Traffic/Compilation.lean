import FlowFence.Proofs.Network.Mask
import FlowFence.Traffic.Verdict

/-!
# What compiled programs drop

The program of a route drops exactly the packets that the route asks for. Every test of a program
lets the expressions behind it run just if a packet meets one criterion, whatever the registers
hold, so a sequence of tests stands for a conjunction.
-/

namespace FlowFence

/--
What holds of every route that a rule can enforce: its argument is a rate, its blocks are ones that
were built, and its numbers are those of the header fields.
-/
structure Route.IsEnforceable (route : Route) : Prop where
  action : ∃ unit, route.action.RateOf unit
  argument : 0 ≤ route.argument
  source : ∀ network ∈ route.criteria.source, network.IsBuilt
  destination : ∀ network ∈ route.criteria.destination, network.IsBuilt
  protocol : route.criteria.protocol < 256
  sourcePort : route.criteria.sourcePort < 65536
  destinationPort : route.criteria.destinationPort < 65536

structure Criteria.AreOf (criteria : Criteria) (family : Family) : Prop where
  source : ∀ network ∈ criteria.source, network.family = family
  destination : ∀ network ∈ criteria.destination, network.family = family

/-! ## Fields of packets -/

theorem exists_pair_of_length_two {bytes : List UInt8} (h : bytes.length = 2) :
    ∃ high low, bytes = [high, low] := by
  match bytes, h with
  | [high, low], _ => exact ⟨high, low, rfl⟩

theorem slice?_eq_pair_iff {bytes : List UInt8} {offset port : Nat} (hport : port < 65536) :
    slice? offset 2 bytes = some [UInt8.ofNat (port / 256), UInt8.ofNat (port % 256)] ↔
      (slice? offset 2 bytes).map ofBigEndian = some port := by
  cases hslice : slice? offset 2 bytes with
  | none => simp
  | some piece =>
      obtain ⟨high, low, rfl⟩ := exists_pair_of_length_two (length_of_slice? hslice)
      have hhigh : high.toNat < 256 := high.toNat_lt
      have hlow : low.toNat < 256 := low.toNat_lt
      simp only [Option.some.injEq, List.cons.injEq, and_true, Option.map_some, ofBigEndian,
        List.foldl_cons, List.foldl_nil, Nat.zero_mul, Nat.zero_add, ← UInt8.toNat_inj,
        UInt8.toNat_ofNat']
      omega

theorem bytes_ofBytes {family : Family} {bytes : List UInt8}
    (h : bytes.length = family.byteCount) : (Address.ofBytes family bytes).bytes = bytes := by
  have hwidth : 8 * bytes.length ≤ family.width := by simp [h, family.width_eq]
  have hround := bigEndian_ofBigEndian bytes hwidth
  rw [h] at hround
  exact hround

/-! ## Tests -/

namespace Program

variable {packet : Packet} {exceeds : Limiter}

/-- Whether expressions let a program behind them run just if a condition holds. -/
def Guards (packet : Packet) (exceeds : Limiter) (test : Program) (condition : Prop) : Prop :=
  ∀ registers rest, ∃ after,
    dropsFrom packet exceeds registers (test ++ rest) = true ↔
      condition ∧ dropsFrom packet exceeds after rest = true

theorem guards_nil : Guards packet exceeds [] True :=
  fun registers _ => ⟨registers, by simp⟩

theorem Guards.append {first second : Program} {p q : Prop} (hfirst : Guards packet exceeds first p)
    (hsecond : Guards packet exceeds second q) :
    Guards packet exceeds (first ++ second) (p ∧ q) := by
  intro registers rest
  obtain ⟨between, hbetween⟩ := hfirst registers (second ++ rest)
  obtain ⟨after, hafter⟩ := hsecond between rest
  exact ⟨after, by rw [List.append_assoc, hbetween, hafter, and_assoc]⟩

theorem Guards.congr {test : Program} {p q : Prop} (h : Guards packet exceeds test p)
    (hpq : p ↔ q) :
    Guards packet exceeds test q := by
  intro registers rest
  obtain ⟨after, hafter⟩ := h registers rest
  exact ⟨after, by rw [hafter, hpq]⟩

theorem guards_load_compare (header : Header) (offset length target : Nat) (data : List UInt8) :
    Guards packet exceeds [.load header offset length target, .compare target data]
      (slice? offset length (packet.header header) = some data) := by
  intro registers rest
  cases hslice : slice? offset length (packet.header header) with
  | none => exact ⟨registers, by simp [dropsFrom, Expression.step, hslice]⟩
  | some piece =>
      refine ⟨registers.set target piece, ?_⟩
      by_cases hdata : piece = data <;>
        simp [dropsFrom, Expression.step, hslice, Progress.onlyIf, hdata]

theorem guards_load_mask_compare (header : Header) (offset length target masked : Nat)
    (kept flip data : List UInt8) :
    Guards packet exceeds
      [.load header offset length target, .mask target masked length kept flip,
        .compare masked data]
      (∃ piece ∈ slice? offset length (packet.header header),
        maskedBytes kept flip piece = data) := by
  intro registers rest
  cases hslice : slice? offset length (packet.header header) with
  | none => exact ⟨registers, by simp [dropsFrom, Expression.step, hslice]⟩
  | some piece =>
      have htake : piece.take length = piece :=
        List.take_of_length_le (Nat.le_of_eq (length_of_slice? hslice))
      refine ⟨(registers.set target piece).set masked (maskedBytes kept flip piece), ?_⟩
      by_cases hdata : maskedBytes kept flip piece = data <;>
        simp [dropsFrom, Expression.step, hslice, htake, Progress.onlyIf, hdata]

theorem addressBehind?_eq_some_iff {count : Nat} {address : Address} :
    packet.addressBehind? count = some address ↔
      ∃ piece ∈ slice? count packet.family.byteCount packet.networkHeader,
        Address.ofBytes packet.family piece = address := by
  simp [Packet.addressBehind?]

theorem address?_eq_addressBehind? (direction : Direction) :
    packet.address? direction =
      packet.addressBehind? (addressOffset packet.family direction) := by
  cases direction <;> cases h : packet.family <;>
    simp [Packet.address?, Packet.source?, Packet.destination?, h, addressOffset,
      Packet.bytesBeforeAddresses, Family.byteCount]

theorem maskedBytes_eq_baseBytes_iff {network : Network} (hbuilt : network.IsBuilt)
    {piece : List UInt8} (hlength : piece.length = network.family.byteCount) :
    maskedBytes network.maskBytes (List.replicate network.family.byteCount 0) piece =
        network.baseBytes ↔
      network.Holds (Address.ofBytes network.family piece) := by
  have hlengths : (List.zipWith (· &&& ·) piece network.maskBytes).length =
      network.family.byteCount := by simp [hlength]
  have hfamily : (Address.ofBytes network.family piece).family = network.family := rfl
  have hmasked := Network.masked_bytes_eq_iff_holds hbuilt hfamily
  rw [bytes_ofBytes hlength] at hmasked
  rw [maskedBytes, ← hlengths, zipWith_xor_replicate_zero, hmasked]

theorem guards_addressTest (direction : Direction) {network : Network} (hbuilt : network.IsBuilt)
    (hfamily : network.family = packet.family) :
    Guards packet exceeds (addressTest direction network)
      (∃ address ∈ packet.address? direction, network.Holds address) := by
  refine (guards_load_mask_compare .network _ _ register register _ _ _).congr ?_
  simp only [address?_eq_addressBehind?, ← hfamily, Option.mem_def, addressBehind?_eq_some_iff,
    Packet.header]
  constructor
  · rintro ⟨piece, hpiece, hmasked⟩
    exact ⟨_, ⟨piece, hpiece, rfl⟩,
      (maskedBytes_eq_baseBytes_iff hbuilt (length_of_slice? hpiece)).mp hmasked⟩
  · rintro ⟨_, ⟨piece, hpiece, rfl⟩, hholds⟩
    exact ⟨piece, hpiece,
      (maskedBytes_eq_baseBytes_iff hbuilt (length_of_slice? hpiece)).mpr hholds⟩

theorem guards_portTest (direction : Direction) {port : Nat} (hport : port < 65536) :
    Guards packet exceeds (portTest direction port) (packet.port? direction = some port) := by
  refine (guards_load_compare .transport _ 2 register _).congr ?_
  rw [slice?_eq_pair_iff hport]
  cases direction <;> rfl

theorem guards_protocolTest {protocol : Nat} (hprotocol : protocol < 256) :
    Guards packet exceeds (protocolTest protocol)
      (some packet.protocol.toNat = some protocol) := by
  intro registers rest
  refine ⟨registers.set register [packet.protocol], ?_⟩
  have hiff : packet.protocol = UInt8.ofNat protocol ↔ packet.protocol.toNat = protocol := by
    rw [← UInt8.toNat_inj, UInt8.toNat_ofNat', Nat.mod_eq_of_lt hprotocol]
  by_cases h : packet.protocol.toNat = protocol <;>
    simp [protocolTest, dropsFrom, Expression.step, Progress.onlyIf, hiff, h]

theorem guards_addressTest? (direction : Direction) {block : Option Network}
    (hbuilt : ∀ network ∈ block, network.IsBuilt)
    (hfamily : ∀ network ∈ block, network.family = packet.family) :
    Guards packet exceeds (addressTest? direction block)
      (∀ network ∈ block, ∃ address ∈ packet.address? direction, network.Holds address) := by
  cases block with
  | none => exact guards_nil.congr (by simp)
  | some network =>
      have htest : Guards packet exceeds _ _ :=
        guards_addressTest direction (hbuilt network rfl) (hfamily network rfl)
      exact htest.congr (by simp)

theorem guards_unlessZero {test : Nat → Program} {n : Nat} {value : Option Nat}
    (h : Guards packet exceeds (test n) (value = some n)) :
    Guards packet exceeds (unlessZero test n) (IsValueOrAny n value) := by
  unfold unlessZero
  split
  · exact guards_nil.congr (by simp [IsValueOrAny, *])
  · exact h.congr (by simp [IsValueOrAny, *])

theorem guards_countIn (name : String) : Guards packet exceeds (countIn name) True :=
  fun registers _ => ⟨registers, by simp [countIn, dropsFrom, Expression.step]⟩

theorem guards_limit (unit : LimitUnit) (rate : Nat) (above : Bool) :
    Guards packet exceeds [.limit unit rate above] (exceeds unit rate = above) := by
  intro registers rest
  refine ⟨registers, ?_⟩
  by_cases h : exceeds unit rate = above <;>
    simp [dropsFrom, Expression.step, Progress.onlyIf, h]

theorem guards_limitTail (unit : LimitUnit) (rate : Nat) (counters : Bool) :
    Guards packet exceeds (limitTail unit rate counters) (rate = 0 ∨ exceeds unit rate = true) := by
  have hlimit : Guards packet exceeds _ _ := guards_limit unit rate true
  unfold limitTail
  split
  · exact guards_nil.congr (by simp [*])
  · cases counters
    · exact hlimit.congr (by simp [*])
    · exact ((guards_countIn _).append hlimit).congr (by simp [*])

theorem dropsFrom_dropTail (registers : Registers) (counters : Bool) :
    dropsFrom packet exceeds registers (dropTail counters) = true := by
  cases counters <;> rfl

/-- The tests of criteria let a program run just on the packets that meet the criteria. -/
theorem guards_tests {route : Route} (h : route.IsEnforceable)
    (hfamily : route.criteria.AreOf packet.family) :
    Guards packet exceeds (tests route.criteria) (route.criteria.IsMetBy packet) := by
  have hsource : Guards packet exceeds _ _ :=
    guards_addressTest? .source h.source hfamily.source
  have hdestination : Guards packet exceeds _ _ :=
    guards_addressTest? .destination h.destination hfamily.destination
  have hprotocol : Guards packet exceeds _ _ :=
    guards_unlessZero (guards_protocolTest h.protocol)
  have hsourcePort : Guards packet exceeds _ _ :=
    guards_unlessZero (guards_portTest .source h.sourcePort)
  have hdestinationPort : Guards packet exceeds _ _ :=
    guards_unlessZero (guards_portTest .destination h.destinationPort)
  refine ((((hsource.append hdestination).append hprotocol).append hsourcePort).append
    hdestinationPort).congr ⟨?_, ?_⟩
  · rintro ⟨⟨⟨⟨hs, hd⟩, hp⟩, hsp⟩, hdp⟩
    exact ⟨hs, hd, hp, hsp, hdp⟩
  · rintro ⟨hs, hd, hp, hsp, hdp⟩
    exact ⟨⟨⟨⟨hs, hd⟩, hp⟩, hsp⟩, hdp⟩

/-! ## Programs of routes -/

theorem unitOf?_eq_some_iff {action : Action} {unit : LimitUnit} :
    unitOf? action = some unit ↔ action.RateOf unit := by
  cases action <;> simp [unitOf?, Action.RateOf, eq_comm]

theorem ofRoute?_eq_ok_iff {route : Route} {counters : Bool} {program : Program} :
    ofRoute? route counters = .ok program ↔
      ∃ unit, route.action.RateOf unit ∧ 0 ≤ route.argument ∧
        program = tests route.criteria ++ limitTail unit route.argument.toNat counters ++
          dropTail counters := by
  simp only [← unitOf?_eq_some_iff, ofRoute?]
  cases unitOf? route.action with
  | none => simp
  | some unit =>
      by_cases hargument : route.argument < 0
      · simp [hargument, Int.not_le.mpr hargument]
      · simp [hargument, Int.not_lt.mp hargument, eq_comm]

theorem ofRoute?_of_isEnforceable {route : Route} (h : route.IsEnforceable) {unit : LimitUnit}
    (hunit : route.action.RateOf unit) (counters : Bool) :
    ofRoute? route counters = .ok (tests route.criteria ++
      limitTail unit route.argument.toNat counters ++ dropTail counters) :=
  ofRoute?_eq_ok_iff.mpr ⟨unit, hunit, h.argument, rfl⟩

/-- A rate of the route is exceeded, or it is zero and need not be. -/
theorem asksToDrop_iff {route : Route} (h : route.IsEnforceable) {unit : LimitUnit}
    (hunit : route.action.RateOf unit) :
    route.AsksToDrop packet exceeds ↔
      route.criteria.IsMetBy packet ∧
        (route.argument.toNat = 0 ∨ exceeds unit route.argument.toNat = true) := by
  have hzero : route.argument = 0 ↔ route.argument.toNat = 0 := by
    have := h.argument
    omega
  constructor
  · rintro ⟨hcriteria, unit', hunit', hrate⟩
    have hsame : unit' = unit := by
      rw [← unitOf?_eq_some_iff] at hunit hunit'
      exact Option.some.inj (hunit'.symm.trans hunit)
    subst hsame
    exact ⟨hcriteria, hrate.imp_left hzero.mp⟩
  · rintro ⟨hcriteria, hrate⟩
    exact ⟨hcriteria, unit, hunit, hrate.imp_left hzero.mpr⟩

theorem drops_iff_asksToDrop {route : Route} (h : route.IsEnforceable) {counters : Bool}
    {program : Program} (hprogram : ofRoute? route counters = .ok program)
    (hfamily : route.criteria.AreOf packet.family) :
    program.drops packet exceeds = true ↔ route.AsksToDrop packet exceeds := by
  obtain ⟨unit, hunit⟩ := h.action
  rw [ofRoute?_of_isEnforceable h hunit] at hprogram
  cases hprogram
  have htests : Guards packet exceeds _ _ := guards_tests h hfamily
  obtain ⟨after, hguards⟩ := htests.append
    (guards_limitTail unit route.argument.toNat counters) .clear (dropTail counters)
  rw [asksToDrop_iff h hunit, drops, hguards, dropsFrom_dropTail]
  simp

end Program

/--
Every enforceable route has a program, and on packets of the family of its blocks the program drops
just what the route asks for.
-/
theorem compiled_route_drops_iff (route : Route) (counters : Bool) (h : route.IsEnforceable) :
    ∃ program, Program.ofRoute? route counters = .ok program ∧
      ∀ (packet : Packet) (exceeds : Limiter), route.criteria.AreOf packet.family →
        (program.drops packet exceeds = true ↔ route.AsksToDrop packet exceeds) := by
  obtain ⟨unit, hunit⟩ := h.action
  have hprogram := Program.ofRoute?_of_isEnforceable h hunit counters
  exact ⟨_, hprogram, fun packet exceeds => Program.drops_iff_asksToDrop h hprogram⟩

/-- A route that limits what name servers of a block whose length is no multiple of eight send. -/
def nameServerLimit : Route where
  session := ⟨"upstream", .v4 0xC0000201, "2024-05-01"⟩
  criteria := { source := some ⟨.v4 0xCB007000, 20⟩, protocol := 17, sourcePort := 53 }
  action := .rateBytes
  argument := 6553600

def nameServerPacket : Packet where
  family := .ipv4
  networkHeader := List.replicate 12 0 ++ [0xCB, 0, 0x7F, 0xFF] ++ [192, 0, 2, 7]
  protocol := 17
  transportHeader := [0, 53, 0x82, 0x35]

theorem nameServerLimit_isEnforceable : nameServerLimit.IsEnforceable where
  action := ⟨.bytes, rfl⟩
  argument := by decide
  source := by
    rintro _ ⟨⟩
    exact ⟨.v4 0xCB007000, 20, rfl⟩
  destination := by rintro _ ⟨⟩
  protocol := by decide
  sourcePort := by decide
  destinationPort := by decide

theorem nameServerLimit_areOf : nameServerLimit.criteria.AreOf nameServerPacket.family where
  source := by
    rintro _ ⟨⟩
    rfl
  destination := by rintro _ ⟨⟩

theorem nameServerLimit_asksToDrop :
    nameServerLimit.AsksToDrop nameServerPacket fun _ _ => true where
  criteria := by decide
  rate := ⟨.bytes, rfl, .inr rfl⟩

theorem compiled_nameServerLimit_drops :
    nameServerLimit.IsEnforceable ∧ nameServerLimit.criteria.AreOf nameServerPacket.family ∧
      ∃ program, Program.ofRoute? nameServerLimit true = .ok program ∧
        program.drops nameServerPacket (fun _ _ => true) = true := by
  obtain ⟨program, hprogram, hdrops⟩ :=
    compiled_route_drops_iff nameServerLimit true nameServerLimit_isEnforceable
  exact ⟨nameServerLimit_isEnforceable, nameServerLimit_areOf, program, hprogram,
    (hdrops _ _ nameServerLimit_areOf).mpr nameServerLimit_asksToDrop⟩

end FlowFence
