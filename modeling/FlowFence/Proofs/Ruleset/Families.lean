import FlowFence.Proofs.Route.Enforceable
import FlowFence.Proofs.Route.MatchGroup
import FlowFence.Proofs.Ruleset.Lifting

/-!
# Families of blocks

A block of addresses is of the family in which it is written, which shows in its text by a colon. The
header of a route names a family too, but its blocks are not held against it: they are of the
announced family just if they are written in it, and a rule has matches of two families just if its
two blocks are written in two.
-/

namespace FlowFence

def familyOfText (text : List Char) : Family :=
  if ':' ∈ text then .ipv6 else .ipv4

/-! ## Texts of addresses -/

theorem Address.family_of_parse? {text : List Char} {address : Address}
    (h : parse? text = some address) : address.family = familyOfText text := by
  unfold familyOfText
  unfold parse? at h
  split at h
  · rename_i bits hbits
    cases h
    rw [if_neg (not_colon_mem_of_parseV4? hbits)]
    rfl
  · obtain ⟨bits, hbits, rfl⟩ := Option.map_eq_some_iff.mp h
    rw [if_pos (colon_mem_of_parseV6? hbits)]
    rfl

/-! ## Texts of blocks -/

theorem Network.family_of_parse? {text : List Char} {network : Network}
    (h : parse? text = .ok network) : network.family = familyOfText text := by
  obtain ⟨addressText, lengthText, address, length, hcut, haddress, hlength, hmake⟩ :=
    parse?_eq_ok_iff.mp h
  have hnot : ':' ∉ lengthText := Text.not_mem_of_word? (by decide) (by decide) hlength
  have hcolon : ':' ∈ text ↔ ':' ∈ addressText := by
    simp [eq_append_of_cutLast? hcut, hnot]
  have hfamily : address.family = familyOfText text := by
    rw [Address.family_of_parse? haddress, familyOfText, familyOfText, if_congr hcolon rfl rfl]
  unfold make? at hmake
  split at hmake
  · cases hmake
    exact hfamily
  · cases hmake

namespace Route

variable {block group : List Char} {route : Route} {criteria : Criteria} {family : Family}

/-! ## Blocks of routes -/

def addressKey : Program.Direction → Key
  | .source => .source
  | .destination => .destination

def familyDigit : Family → Char
  | .ipv4 => '4'
  | .ipv6 => '6'

theorem entry_addressKey (criteria : Criteria) (direction : Program.Direction) :
    entry criteria (addressKey direction) = .inl (criteria.block? direction) := by
  cases direction <;> rfl

/-- The block of criteria for one side is of the family in which its last value is written. -/
theorem family_of_block? (h : criteria? group = .ok criteria) (direction : Program.Direction) :
    (criteria.block? direction).map Network.family =
      (announced? (addressKey direction) group).map familyOfText := by
  cases hvalue : announced? (addressKey direction) group with
  | none =>
      have hopen := entry_of_not_announced? h hvalue
      rw [entry_addressKey, entry_addressKey, Sum.inl.injEq] at hopen
      rw [hopen]
      cases direction <;> rfl
  | some value =>
      have hdenoted := denoted?_of_announced? h hvalue
      rw [entry_addressKey] at hdenoted
      obtain ⟨network, hblock, hparse⟩ := exists_network_of_denoted? hdenoted
      rw [hblock, Option.map_some, Option.map_some, Network.family_of_parse? hparse]

theorem areOf_iff : criteria.AreOf family ↔
    ∀ direction, ∀ found ∈ (criteria.block? direction).map Network.family, found = family := by
  constructor
  · rintro ⟨hsource, hdestination⟩ direction
    cases direction with
    | source => simpa [Criteria.block?] using hsource
    | destination => simpa [Criteria.block?] using hdestination
  · intro h
    exact ⟨by simpa [Criteria.block?] using h .source,
      by simpa [Criteria.block?] using h .destination⟩

theorem exists_familyDigit (h : parse block = .ok route) :
    ∃ family rest, header? block = .ok (familyDigit family :: rest) := by
  obtain ⟨⟨header, hheader⟩, -⟩ := parse_eq_ok_iff.mp h
  rw [hheader]
  unfold header? at hheader
  dsimp only at hheader
  split at hheader
  · rename_i rest hrest
    rw [hrest] at hheader
    cases hheader
    exact ⟨.ipv4, rest, rfl⟩
  · rename_i rest hrest
    rw [hrest] at hheader
    cases hheader
    exact ⟨.ipv6, rest, rfl⟩
  · cases hheader

end Route

/-! ## Rules -/

def Statement.MixFamilies (statements : List Statement) : Prop :=
  ∃ first second value other, .address first value ∈ statements ∧
    .address second other ∈ statements ∧ first.family ≠ second.family

theorem Statement.mixFamilies_ofRoute_iff {route : Route} {unit : LimitUnit} {counters : Bool} :
    MixFamilies (ofRoute route unit counters) ↔
      ∃ source ∈ (route.criteria.block? .source).map Network.family,
        ∃ destination ∈ (route.criteria.block? .destination).map Network.family,
          source ≠ destination := by
  have hfamily {field : AddressField} {value : AddressValue} :
      .address field value ∈ ofRoute route unit counters →
        field.family ∈ (route.criteria.block? field.direction).map Network.family := by
    intro h
    obtain ⟨network, hnetwork, hsame, -⟩ := address_mem_ofRoute_iff.mp h
    exact Option.map_eq_some_iff.mpr ⟨network, hnetwork, hsame.symm⟩
  have hfield {direction : Program.Direction} {family : Family}
      (h : family ∈ (route.criteria.block? direction).map Network.family) :
      ∃ value, .address ⟨family, direction⟩ value ∈ ofRoute route unit counters := by
    obtain ⟨network, hnetwork, rfl⟩ := Option.map_eq_some_iff.mp h
    exact ⟨_, address_mem_ofRoute_iff.mpr ⟨network, hnetwork, rfl, rfl⟩⟩
  constructor
  · rintro ⟨⟨first, here⟩, ⟨second, there⟩, value, other, hvalue, hother, hne⟩
    have hfirst := hfamily hvalue
    have hsecond := hfamily hother
    cases here with
    | source =>
        cases there with
        | source => exact (hne (Option.mem_unique hfirst hsecond)).elim
        | destination => exact ⟨first, hfirst, second, hsecond, hne⟩
    | destination =>
        cases there with
        | source => exact ⟨second, hsecond, first, hfirst, hne.symm⟩
        | destination => exact (hne (Option.mem_unique hfirst hsecond)).elim
  · rintro ⟨source, hsource, destination, hdestination, hne⟩
    obtain ⟨value, hvalue⟩ := hfield hsource
    obtain ⟨other, hother⟩ := hfield hdestination
    exact ⟨_, _, value, other, hvalue, hother, hne⟩

namespace Route

/--
The header of every block that is read names a family. All blocks of addresses of the route are of
that family just if the last value of each side is written in it; and the rule of the route matches
addresses of two families just if the last values of the two sides are written in two families.
-/
theorem blocks_are_of_written_family {block : List Char} {route : Route}
    (h : parse block = .ok route) :
    ∃ family rest, header? block = .ok (familyDigit family :: rest) ∧
      (route.criteria.AreOf family ↔ ∀ direction,
        ∀ value ∈ announced? (addressKey direction) (matchGroup (familyDigit family :: rest)),
          familyOfText value = family) ∧
      ∀ (counters : Bool) (program : Program), Program.ofRoute? route counters = .ok program →
        ∃ statements, Statement.ofProgram? program = .ok statements ∧
          (Statement.MixFamilies statements ↔
            ∃ source ∈ announced? .source (matchGroup (familyDigit family :: rest)),
              ∃ destination ∈ announced? .destination (matchGroup (familyDigit family :: rest)),
                familyOfText source ≠ familyOfText destination) := by
  obtain ⟨family, rest, hheader⟩ := exists_familyDigit h
  obtain ⟨-, -, hcriteria, -⟩ := parse_eq_ok_iff.mp h
  rw [← matchGroup_eq hheader] at hcriteria
  have hfamily := family_of_block? hcriteria
  refine ⟨family, rest, hheader, ?_, ?_⟩
  · rw [areOf_iff]
    simp [hfamily]
  · intro counters program hprogram
    obtain ⟨unit, hunit, -, rfl⟩ := Program.ofRoute?_eq_ok_iff.mp hprogram
    have henforceable : route.IsEnforceable :=
      isEnforceable_of_parse h (Action.isRate_iff_exists_rateOf.mpr ⟨unit, hunit⟩)
    refine ⟨_, Statement.ofProgram?_ofRoute henforceable unit counters, ?_⟩
    rw [Statement.mixFamilies_ofRoute_iff, hfamily, hfamily]
    simp [addressKey]

def documentationBlock : List Char :=
  ("flow6 \x7b src 2001:db8::/32; dst 2001:db8:1::/48; \x7d [flowspec1 2024-05-01 from 192.0.2.1]\n" ++
    "\tBGP.ext_community: (generic, 0x80060000, 0x0)\n").toList

def documentationCriteria : Criteria where
  source := some ⟨.v6 (0x20010db8 <<< 96), 32⟩
  destination := some ⟨.v6 (0x20010db80001 <<< 80), 48⟩

theorem parse_documentationBlock :
    parse documentationBlock = .ok (dropRoute documentationCriteria) := by
  decide +kernel

theorem documentationBlock_is_of_one_family :
    ∃ route, parse documentationBlock = .ok route ∧ route.criteria.AreOf .ipv6 ∧
      ∃ program statements, Program.ofRoute? route false = .ok program ∧
        Statement.ofProgram? program = .ok statements ∧ ¬ Statement.MixFamilies statements := by
  obtain ⟨family, rest, hheader, hfamily, hrule⟩ :=
    blocks_are_of_written_family parse_documentationBlock
  have hline : header? documentationBlock = .ok (familyDigit .ipv6 ::
      (" \x7b src 2001:db8::/32; dst 2001:db8:1::/48; \x7d " ++
        "[flowspec1 2024-05-01 from 192.0.2.1]").toList) := by
    decide +kernel
  rw [hline, Except.ok.injEq, List.cons.injEq] at hheader
  obtain ⟨hdigit, rfl⟩ := hheader
  obtain rfl : .ipv6 = family := by
    cases family
    · cases hdigit
    · rfl
  obtain ⟨statements, hstatements, hmixed⟩ := hrule false _ rfl
  refine ⟨_, parse_documentationBlock, hfamily.mpr fun direction => ?_, _, statements, rfl,
    hstatements, ?_⟩
  · cases direction <;> decide +kernel
  · rw [hmixed]
    decide +kernel

/-- A block that is announced in the first family, though one side is written in the second. -/
def mixedBlock : List Char :=
  ("flow4 \x7b src 192.0.2.0/24; dst 2001:db8::/32; \x7d [flowspec1 2024-05-01 from 192.0.2.1]\n" ++
    "\tBGP.ext_community: (generic, 0x80060000, 0x0)\n").toList

def mixedCriteria : Criteria where
  source := some ⟨.v4 0xC0000200, 24⟩
  destination := some ⟨.v6 (0x20010db8 <<< 96), 32⟩

theorem header_does_not_bind_blocks :
    ¬ ∀ (block rest : List Char) (route : Route) (family : Family), parse block = .ok route →
      header? block = .ok (familyDigit family :: rest) → route.criteria.AreOf family := by
  intro hall
  have hfamilies : mixedCriteria.AreOf .ipv4 :=
    hall mixedBlock
      (" \x7b src 192.0.2.0/24; dst 2001:db8::/32; \x7d [flowspec1 2024-05-01 from 192.0.2.1]").toList
      (dropRoute mixedCriteria) .ipv4 (by decide +kernel) (by decide +kernel)
  have hdestination := hfamilies.destination _ rfl
  cases hdestination

end Route

end FlowFence
