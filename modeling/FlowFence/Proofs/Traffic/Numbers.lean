import FlowFence.Proofs.Route.Announced
import FlowFence.Proofs.Route.Enforceable

/-!
# Numbers that are enforced

What a program drops has the numbers that its route asks for, on packets of any family: a test of an
address lets nothing more through where the families differ. A number that is announced is the one
that is tested, unless it is zero.
-/

namespace FlowFence

def Packet.number? (packet : Packet) : Route.Key → Option Nat
  | .source => none
  | .destination => none
  | .sourcePort => packet.sourcePort?
  | .destinationPort => packet.destinationPort?
  | .protocol => some packet.protocol.toNat

namespace Program

variable {packet : Packet} {exceeds : Limiter}

/-- On packets of another family too, a test of an address is a condition on the packet. -/
theorem exists_guards_addressTest? (direction : Direction) (block : Option Network) :
    ∃ condition, Guards packet exceeds (addressTest? direction block) condition := by
  cases block with
  | none => exact ⟨_, guards_nil⟩
  | some network => exact ⟨_, guards_load_mask_compare .network _ _ register register _ _ _⟩

theorem numbers_of_drops {route : Route} {counters : Bool} {program : Program}
    (hbuilt : route.criteria.AreBuilt) (hprogram : ofRoute? route counters = .ok program)
    (hdrops : program.drops packet exceeds = true) :
    IsValueOrAny route.criteria.protocol (some packet.protocol.toNat) ∧
      IsValueOrAny route.criteria.sourcePort packet.sourcePort? ∧
      IsValueOrAny route.criteria.destinationPort packet.destinationPort? := by
  obtain ⟨source, hsource⟩ := @exists_guards_addressTest? packet exceeds .source route.criteria.source
  obtain ⟨destination, hdestination⟩ :=
    @exists_guards_addressTest? packet exceeds .destination route.criteria.destination
  have hprotocol : Guards packet exceeds _ _ :=
    guards_unlessZero (guards_protocolTest hbuilt.protocol)
  have hsourcePort : Guards packet exceeds _ _ :=
    guards_unlessZero (guards_portTest .source hbuilt.sourcePort)
  have hdestinationPort : Guards packet exceeds _ _ :=
    guards_unlessZero (guards_portTest .destination hbuilt.destinationPort)
  obtain ⟨unit, -, -, rfl⟩ := ofRoute?_eq_ok_iff.mp hprogram
  have htests : Guards packet exceeds (tests route.criteria) _ :=
    (((hsource.append hdestination).append hprotocol).append hsourcePort).append hdestinationPort
  obtain ⟨after, hguards⟩ := htests .clear
    (limitTail unit route.argument.toNat counters ++ dropTail counters)
  rw [drops, List.append_assoc, hguards] at hdrops
  obtain ⟨⟨⟨⟨-, hmeets⟩, hmeetsSource⟩, hmeetsDestination⟩, -⟩ := hdrops
  exact ⟨hmeets, hmeetsSource, hmeetsDestination⟩

end Program

namespace Route

open Program (ofRoute?)

def numberKeys : List Key :=
  [.protocol, .sourcePort, .destinationPort]

variable {key : Key} {group value : List Char} {criteria : Criteria} {route : Route}

theorem exists_number (hkey : key ∈ numberKeys) (criteria : Criteria) :
    ∃ n, entry criteria key = .inr n ∧ (n = 0 → entry criteria key = entry {} key) := by
  simp only [numberKeys, List.mem_cons, List.not_mem_nil, or_false] at hkey
  rcases hkey with rfl | rfl | rfl <;> exact ⟨_, rfl, fun h => by rw [entry, h]; rfl⟩

theorem number_of_drops {counters : Bool} {program : Program} {packet : Packet} {exceeds : Limiter}
    {n : Nat} (hkey : key ∈ numberKeys) (hentry : entry route.criteria key = .inr n)
    (hbuilt : route.criteria.AreBuilt) (hprogram : ofRoute? route counters = .ok program)
    (hdrops : program.drops packet exceeds = true) : IsValueOrAny n (packet.number? key) := by
  obtain ⟨hprotocol, hsource, hdestination⟩ := Program.numbers_of_drops hbuilt hprogram hdrops
  simp only [numberKeys, List.mem_cons, List.not_mem_nil, or_false] at hkey
  rcases hkey with rfl | rfl | rfl <;> cases hentry
  · exact hprotocol
  · exact hsource
  · exact hdestination

theorem exists_program_of_isRate (hrate : route.action.isRate = true) (h : 0 ≤ route.argument)
    (counters : Bool) : ∃ program, ofRoute? route counters = .ok program := by
  obtain ⟨unit, hunit⟩ := Action.isRate_iff_exists_rateOf.mp hrate
  exact ⟨_, Program.ofRoute?_eq_ok_iff.mpr ⟨unit, hunit, h, rfl⟩⟩

/--
A match group that is read gives every number that it announces to the criteria, the last one of a
key. Whatever the session and the rate are, the route has a program, and all packets that the program
drops have that number, unless it is zero. Zero stands for any number: the group is read as if the
key were not named.
-/
theorem announced_number_is_enforced (hgroup : criteria? group = .ok criteria)
    (hkey : key ∈ numberKeys) (hvalue : announced? key group = some value) :
    ∃ n, denoted? key value = some (.inr n) ∧
      (n = 0 → addParts {} (partsBesides key group) = .ok criteria) ∧
      ∀ (route : Route) (counters : Bool), route.criteria = criteria →
        route.action.isRate = true → 0 ≤ route.argument →
        ∃ program, ofRoute? route counters = .ok program ∧
          ∀ (packet : Packet) (exceeds : Limiter), program.drops packet exceeds = true →
            n ≠ 0 → packet.number? key = some n := by
  obtain ⟨n, hentry, hzero⟩ := exists_number hkey criteria
  refine ⟨n, ?_, fun h => addParts_partsBesides hgroup (hzero h), ?_⟩
  · rw [denoted?_of_announced? hgroup hvalue, hentry]
  · rintro route counters rfl hrate hargument
    obtain ⟨program, hprogram⟩ := exists_program_of_isRate hrate hargument counters
    refine ⟨program, hprogram, fun packet exceeds hdrops hne => ?_⟩
    have hnumber : IsValueOrAny n (packet.number? key) :=
      number_of_drops hkey hentry (areBuilt_of_criteria? hgroup) hprogram hdrops
    exact hnumber.resolve_left hne

def nameServerGroup : List Char :=
  "src 203.0.112.0/20; next header 0x11; sport 80; sport 53".toList

theorem nameServerGroup_is_enforced :
    criteria? nameServerGroup = .ok nameServerLimit.criteria ∧
      ∃ program, ofRoute? nameServerLimit true = .ok program ∧
        program.drops nameServerPacket (fun _ _ => true) = true ∧
        ∀ (packet : Packet) (exceeds : Limiter), program.drops packet exceeds = true →
          packet.sourcePort? = some 53 := by
  have hread : criteria? nameServerGroup = .ok nameServerLimit.criteria := by decide
  obtain ⟨n, hn, -, henforced⟩ :=
    @announced_number_is_enforced .sourcePort nameServerGroup "53".toList _ hread (by decide)
      (by decide)
  obtain ⟨program, hprogram, hdrops⟩ := henforced nameServerLimit true rfl (by decide) (by decide)
  have h53 : 53 = n := Sum.inr.inj (Option.some.inj hn)
  subst h53
  refine ⟨hread, program, hprogram, ?_, fun packet exceeds h => hdrops packet exceeds h (by decide)⟩
  exact (Program.drops_iff_asksToDrop nameServerLimit_isEnforceable hprogram
    nameServerLimit_areOf).mpr nameServerLimit_asksToDrop

/-- A route that drops all traffic to a block, to any port as its port is zero. -/
def zeroPortDrop : Route where
  session := nameServerLimit.session
  criteria := { destination := some ⟨.v4 0xCB007100, 24⟩, destinationPort := 0 }
  action := .rateBytes
  argument := 0

theorem zero_port_is_not_tested :
    ¬ ∀ (group : List Char) (key : Key) (value : List Char) (n : Nat) (route : Route)
      (counters : Bool) (program : Program) (packet : Packet) (exceeds : Limiter),
      criteria? group = .ok route.criteria → key ∈ numberKeys →
        announced? key group = some value → denoted? key value = some (.inr n) →
        route.action.isRate = true → 0 ≤ route.argument →
        ofRoute? route counters = .ok program → program.drops packet exceeds = true →
          packet.number? key = some n := by
  intro hall
  have hdrops : ∃ program, ofRoute? zeroPortDrop false = .ok program ∧
      program.drops
        { nameServerPacket with networkHeader := List.replicate 16 0 ++ [203, 0, 113, 7] }
        (fun _ _ => false) = true := ⟨_, rfl, by decide⟩
  obtain ⟨program, hprogram, hdropped⟩ := hdrops
  have hport := hall "dst 203.0.113.0/24; dport 0".toList .destinationPort ['0'] 0 zeroPortDrop
    false program _ _ (by decide) (by decide) (by decide) (by decide) (by decide) (by decide)
    hprogram hdropped
  exact absurd hport (by decide)

end Route

end FlowFence
