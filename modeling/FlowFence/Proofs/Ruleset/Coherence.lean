import FlowFence.Proofs.Ruleset.Lifting
import FlowFence.Proofs.Ruleset.Phrases

/-!
# What statements keep of their program

Statements are read off from fields, data and the number of one bits in masks. Registers, flips and
the places of the one bits are not looked at. So programs that differ in these alone have the same
statements, and only of those among them whose tests are coherent do the statements say what the
program does.
-/

namespace FlowFence

def LeadsWithOnes (bytes : List UInt8) : Prop :=
  bitList bytes =
    List.replicate (Statement.ones bytes) true ++
      List.replicate (8 * bytes.length - Statement.ones bytes) false

instance (bytes : List UInt8) : Decidable (LeadsWithOnes bytes) :=
  inferInstanceAs (Decidable (_ = _))

/-- Whether a mask keeps leading bits only, and flips clear those of the data that it does not. -/
structure MaskFits (length : Nat) (kept flip data : List UInt8) : Prop where
  kept_length : kept.length = length
  flip_length : flip.length = length
  leading : LeadsWithOnes kept
  flipped : List.zipWith (· ^^^ ·) data flip = List.zipWith (· &&& ·) data kept

instance (length : Nat) (kept flip data : List UInt8) :
    Decidable (MaskFits length kept flip data) :=
  decidable_of_iff
    (kept.length = length ∧ flip.length = length ∧ LeadsWithOnes kept ∧
      List.zipWith (· ^^^ ·) data flip = List.zipWith (· &&& ·) data kept)
    ⟨fun ⟨hkept, hflip, hleading, hflipped⟩ => ⟨hkept, hflip, hleading, hflipped⟩,
      fun h => ⟨h.kept_length, h.flip_length, h.leading, h.flipped⟩⟩

namespace Program

/--
Whether the test that a program begins with, if it begins with one, compares what was loaded for it:
the registers are those of the load and of the mask, an address is compared with as many bytes as it
has, and a mask fits.
-/
def TestFits : Program → Prop
  | .load .network _ length target :: .compare register data :: _ =>
      register = target ∧ data.length = length
  | .load .network _ length target :: .mask source masked count kept flip ::
      .compare register data :: _ =>
      source = target ∧ register = masked ∧ count = length ∧ data.length = length ∧
        MaskFits length kept flip data
  | .load .transport _ _ target :: .compare register _ :: _ => register = target
  | .loadProtocol target :: .compare register _ :: _ => register = target
  | _ => True

def IsCoherent (program : Program) : Prop :=
  ∀ rest, rest <:+ program → TestFits rest

end Program

def Expression.addressField? : Expression → Option AddressField
  | .load .network offset length _ => AddressField.at? offset length
  | _ => none

def Program.LoadsAddressesOf (program : Program) (family : Family) : Prop :=
  ∀ expression ∈ program, ∀ field ∈ expression.addressField?, field.family = family

instance (program : Program) (family : Family) : Decidable (program.LoadsAddressesOf family) :=
  inferInstanceAs
    (Decidable (∀ expression ∈ program, ∀ field ∈ expression.addressField?, field.family = family))

def AddressValue.FitsFamily (family : Family) : AddressValue → Prop
  | .host base => base.family = family
  | .block base length => base.family = family ∧ length ≤ family.width

theorem AddressValue.fitsFamily_ofNetwork {network : Network}
    (h : network.length ≤ network.family.width) :
    (ofNetwork network).FitsFamily network.family := by
  unfold ofNetwork
  split
  · rfl
  · exact ⟨rfl, h⟩

/-! ## Masked comparisons -/

section Masks

variable {family : Family}

theorem ones_le (bytes : List UInt8) : Statement.ones bytes ≤ 8 * bytes.length := by
  rw [Statement.ones_eq_count, ← length_bitList]
  exact List.count_le_length

theorem ones_bigEndian_le (bits : BitVec family.width) :
    Statement.ones (bigEndian family.byteCount bits) ≤ family.width := by
  have hle := ones_le (bigEndian family.byteCount bits)
  rwa [length_bigEndian, ← Family.width_eq] at hle

theorem leadsWithOnes_bigEndian_iff (bits : BitVec family.width) :
    LeadsWithOnes (bigEndian family.byteCount bits) ↔
      bits = Network.mask family (Statement.ones (bigEndian family.byteCount bits)) := by
  rw [LeadsWithOnes, length_bigEndian, ← Family.width_eq,
    ← Network.bitList_mask (ones_bigEndian_le bits), bitList_bigEndian_inj (Family.width_eq family)]

theorem exists_bigEndian_eq {bytes : List UInt8} (h : bytes.length = family.byteCount) :
    ∃ bits : BitVec family.width, bigEndian family.byteCount bits = bytes :=
  ⟨_, bytes_ofBytes h⟩

theorem bigEndian_inj {a b : BitVec family.width} :
    bigEndian family.byteCount a = bigEndian family.byteCount b ↔ a = b :=
  ⟨bigEndian_injective (Family.width_eq family), congrArg _⟩

theorem maskedBytes_bigEndian {width count : Nat} (kept flip bits : BitVec width) :
    maskedBytes (bigEndian count kept) (bigEndian count flip) (bigEndian count bits) =
      bigEndian count ((bits &&& kept) ^^^ flip) := by
  rw [maskedBytes, ← bigEndian_and, ← bigEndian_xor]

theorem ofBytes_bigEndian (bits : BitVec family.width) :
    Address.ofBytes family (bigEndian family.byteCount bits) = ⟨family, bits⟩ :=
  ofBytes_bytes ⟨family, bits⟩

theorem agreesOn_iff {length : Nat} {bits other : BitVec family.width} :
    Address.AgreesOn length ⟨family, bits⟩ ⟨family, other⟩ ↔
      ∀ i < length, bits.getMsbD i = other.getMsbD i :=
  ⟨fun h => h.bits, fun h => ⟨rfl, h⟩⟩

/--
Comparing masked bytes with data asks for as many leading bits of the data as the mask has one bits,
if and only if the mask fits.
-/
theorem masked_iff_agrees_iff_maskFits {kept flip data : List UInt8}
    (hkept : kept.length = family.byteCount) (hflip : flip.length = family.byteCount)
    (hdata : data.length = family.byteCount) :
    (∀ piece : List UInt8, piece.length = family.byteCount →
      (maskedBytes kept flip piece = data ↔
        (Address.ofBytes family data).AgreesOn (Statement.ones kept) (.ofBytes family piece))) ↔
      MaskFits family.byteCount kept flip data := by
  obtain ⟨kept, rfl⟩ := exists_bigEndian_eq hkept
  obtain ⟨flip, rfl⟩ := exists_bigEndian_eq hflip
  obtain ⟨data, rfl⟩ := exists_bigEndian_eq hdata
  have hbits := Network.masked_eq_iff_agrees kept flip data (ones_bigEndian_le kept)
  have hfits : MaskFits family.byteCount (bigEndian family.byteCount kept)
      (bigEndian family.byteCount flip) (bigEndian family.byteCount data) ↔
      kept = Network.mask family (Statement.ones (bigEndian family.byteCount kept)) ∧
        data ^^^ flip = data &&& kept := by
    rw [← leadsWithOnes_bigEndian_iff]
    constructor
    · intro h
      have hflipped := h.flipped
      rw [← bigEndian_xor, ← bigEndian_and] at hflipped
      exact ⟨h.leading, bigEndian_inj.mp hflipped⟩
    · rintro ⟨hleading, hflipped⟩
      refine ⟨length_bigEndian _ _, length_bigEndian _ _, hleading, ?_⟩
      rw [← bigEndian_xor, ← bigEndian_and, hflipped]
  rw [hfits, ← hbits]
  constructor
  · intro h bits
    have hpiece := h (bigEndian family.byteCount bits) (length_bigEndian _ _)
    rwa [maskedBytes_bigEndian, ofBytes_bigEndian, ofBytes_bigEndian, agreesOn_iff,
      bigEndian_inj] at hpiece
  · intro h piece hpiece
    obtain ⟨bits, rfl⟩ := exists_bigEndian_eq hpiece
    rw [maskedBytes_bigEndian, ofBytes_bigEndian, ofBytes_bigEndian, agreesOn_iff, bigEndian_inj]
    exact h bits

theorem eq_data_iff_agrees {data piece : List UInt8} (hdata : data.length = family.byteCount)
    (hpiece : piece.length = family.byteCount) :
    piece = data ↔
      (Address.ofBytes family data).AgreesOn family.width (Address.ofBytes family piece) := by
  obtain ⟨data, rfl⟩ := exists_bigEndian_eq hdata
  obtain ⟨piece, rfl⟩ := exists_bigEndian_eq hpiece
  have hwhole := Statement.agreesOn_width_iff ⟨family, data⟩ ⟨family, piece⟩
  rw [ofBytes_bigEndian, ofBytes_bigEndian, bigEndian_inj]
  refine Iff.trans ?_ hwhole.symm
  simp

end Masks

/-! ## Address fields -/

theorem AddressField.at?_eq_some_iff {offset length : Nat} {field : AddressField} :
    at? offset length = some field ↔
      offset = Program.addressOffset field.family field.direction ∧
        length = field.family.byteCount := by
  constructor
  · intro h
    unfold at? at h
    split at h <;> cases h <;> exact ⟨rfl, rfl⟩
  · rintro ⟨rfl, rfl⟩
    exact Statement.at?_addressOffset field.family field.direction

/-- Data as long as a field are read as a block of the field's family. -/
theorem Statement.value_of_field {offset length : Nat} {field : AddressField}
    {value : AddressValue} {data : List UInt8} {kept : Option (List UInt8)}
    (hfield : AddressField.at? offset length = some field) (hdata : data.length = length)
    (hvalue : addressValue? data kept = .ok value) :
    value = .ofNetwork
      ⟨.ofBytes field.family data, (kept.map ones).getD field.family.width⟩ := by
  rw [(AddressField.at?_eq_some_iff.mp hfield).2] at hdata
  rw [addressValue?_of_length hdata] at hvalue
  exact (Except.ok.inj hvalue).symm

theorem Statement.portAt?_eq_some_iff {offset : Nat} {direction : Program.Direction} :
    portAt? offset = some direction ↔ offset = Program.portOffset direction := by
  constructor
  · intro h
    unfold portAt? at h
    split at h <;> cases h <;> rfl
  · rintro rfl
    cases direction <;> rfl

/-! ## One phrase -/

section Running

open Statement

variable {packet : Packet} {exceeds : Limiter} {program rest : Program} {statement : Statement}
  {statements : List Statement}

theorem dropsFrom_dropCounter (registers : Registers) (program : Program) :
    Program.dropsFrom packet exceeds registers (dropCounter program) =
      Program.dropsFrom packet exceeds registers program := by
  unfold dropCounter
  split <;> rfl

theorem dropsFrom_eq_of_guards {test : Program} {condition : Prop}
    (htest : Program.Guards packet exceeds test condition)
    (hstatement : Statement.Guards packet exceeds [statement] condition)
    (hrest : ∀ registers, Program.dropsFrom packet exceeds registers rest =
      Statement.drops packet exceeds statements)
    (registers : Registers) :
    Program.dropsFrom packet exceeds registers (test ++ rest) =
      Statement.drops packet exceeds (statement :: statements) := by
  obtain ⟨after, hafter⟩ := htest registers rest
  rw [Bool.eq_iff_iff, hafter, hrest]
  exact (hstatement statements).symm

/-- A test of bytes does what an address statement says if it asks for the leading bits of data. -/
theorem guards_address {offset length count : Nat} {field : AddressField} {data : List UInt8}
    (hfield : AddressField.at? offset length = some field) (hfamily : field.family = packet.family)
    {test : List UInt8 → Prop}
    (htest : ∀ piece : List UInt8, piece.length = field.family.byteCount →
      (test piece ↔
        (Address.ofBytes field.family data).AgreesOn count (.ofBytes field.family piece))) :
    Statement.Guards packet exceeds
      [.address field (.ofNetwork ⟨.ofBytes field.family data, count⟩)]
      (∃ piece ∈ slice? offset length (packet.header .network), test piece) := by
  obtain ⟨rfl, rfl⟩ := AddressField.at?_eq_some_iff.mp hfield
  refine (guards_singleton rfl).congr ?_
  simp only [Program.address?_eq_addressBehind?, Packet.addressBehind?, ← hfamily, true_and,
    Option.any_map, Option.any_eq_true, holds_ofNetwork, Network.Holds]
  constructor
  · rintro ⟨piece, hpiece, hholds⟩
    exact ⟨piece, hpiece, (htest piece (length_of_slice? hpiece)).mpr hholds⟩
  · rintro ⟨piece, hpiece, htested⟩
    exact ⟨piece, hpiece, (htest piece (length_of_slice? hpiece)).mp htested⟩

theorem guards_port {offset : Nat} {direction : Program.Direction}
    (hport : portAt? offset = some direction) (high low : UInt8) :
    Statement.Guards packet exceeds [.port direction (high.toNat * 256 + low.toNat)]
      (slice? offset 2 packet.transportHeader = some [high, low]) := by
  have hhigh : high.toNat < 256 := high.toNat_lt
  have hlow : low.toNat < 256 := low.toNat_lt
  have hbytes : [UInt8.ofNat ((high.toNat * 256 + low.toNat) / 256),
      UInt8.ofNat ((high.toNat * 256 + low.toNat) % 256)] = [high, low] := by
    rw [show (high.toNat * 256 + low.toNat) / 256 = high.toNat from by omega,
      show (high.toNat * 256 + low.toNat) % 256 = low.toNat from by omega, UInt8.ofNat_toNat,
      UInt8.ofNat_toNat]
  have hpair : slice? offset 2 packet.transportHeader = some _ ↔ _ :=
    slice?_eq_pair_iff (show high.toNat * 256 + low.toNat < 65536 from by omega)
  rw [hbytes] at hpair
  obtain rfl := portAt?_eq_some_iff.mp hport
  refine (guards_singleton rfl).congr ?_
  rw [hpair]
  cases direction <;> rfl

theorem guards_loadProtocol (target : Nat) (value : UInt8) :
    Program.Guards packet exceeds [.loadProtocol target, .compare target [value]]
      (some packet.protocol.toNat = some value.toNat) := by
  intro registers rest
  refine ⟨registers.set target [packet.protocol], ?_⟩
  by_cases h : packet.protocol = value <;>
    simp [Program.dropsFrom, Expression.step, Progress.onlyIf, UInt8.toNat_inj, h]

/-- A phrase whose test fits does what its statement says, if the program behind it does. -/
theorem Statement.Phrase.dropsFrom_eq (phrase : Phrase program statement rest)
    (hfits : program.TestFits) (hfamily : program.LoadsAddressesOf packet.family)
    (hrest : ∀ registers, Program.dropsFrom packet exceeds registers rest =
      Statement.drops packet exceeds statements)
    (registers : Registers) :
    Program.dropsFrom packet exceeds registers program =
      Statement.drops packet exceeds (statement :: statements) := by
  cases phrase with
  | host hfield hvalue =>
      rename_i offset length target register data field value
      obtain ⟨rfl, hlength⟩ := hfits
      obtain rfl := value_of_field hfield hlength hvalue
      obtain rfl := (AddressField.at?_eq_some_iff.mp hfield).2
      have htest : Program.Guards packet exceeds
          [.load .network offset field.family.byteCount register, .compare register data]
          (∃ piece ∈ slice? offset field.family.byteCount (packet.header .network),
            piece = data) :=
        (Program.guards_load_compare .network offset _ register data).congr (by simp)
      have hstatement : Statement.Guards packet exceeds _ _ :=
        guards_address hfield (hfamily _ List.mem_cons_self field hfield) fun piece hpiece =>
          eq_data_iff_agrees hlength hpiece
      exact dropsFrom_eq_of_guards htest hstatement hrest registers
  | block hfield hvalue =>
      rename_i offset length target source masked count register kept flip data field value
      obtain ⟨rfl, rfl, rfl, hlength, hmask⟩ := hfits
      obtain rfl := value_of_field hfield hlength hvalue
      obtain rfl := (AddressField.at?_eq_some_iff.mp hfield).2
      have htest : Program.Guards packet exceeds _ _ :=
        Program.guards_load_mask_compare .network offset field.family.byteCount source register
          kept flip data
      have hagrees :=
        (masked_iff_agrees_iff_maskFits hmask.kept_length hmask.flip_length hlength).mpr hmask
      have hstatement : Statement.Guards packet exceeds _ _ :=
        guards_address hfield (hfamily _ List.mem_cons_self field hfield) hagrees
      exact dropsFrom_eq_of_guards htest hstatement hrest registers
  | port hport =>
      rename_i offset target register high low direction
      obtain rfl : register = target := hfits
      exact dropsFrom_eq_of_guards (Program.guards_load_compare .transport offset 2 register _)
        (guards_port hport high low) hrest registers
  | protocol =>
      rename_i target register value
      obtain rfl : register = target := hfits
      exact dropsFrom_eq_of_guards (guards_loadProtocol register value)
        (guards_protocol value.toNat) hrest registers
  | countNamed =>
      rename_i name others
      calc Program.dropsFrom packet exceeds registers (.counterRef name :: others)
          = Program.dropsFrom packet exceeds registers (dropCounter others) :=
            (dropsFrom_dropCounter registers others).symm
        _ = Statement.drops packet exceeds statements := hrest registers
  | count => exact hrest registers
  | limit =>
      rename_i unit rate above
      exact dropsFrom_eq_of_guards (Program.guards_limit unit rate above) (guards_singleton rfl)
        hrest registers
  | drop => rfl

theorem Statement.Phrase.fitsFamily (phrase : Phrase program statement rest)
    (hfits : program.TestFits) {field : AddressField} {value : AddressValue}
    (h : statement = .address field value) : value.FitsFamily field.family := by
  cases phrase with
  | host hfield hvalue =>
      cases h
      obtain rfl := value_of_field hfield hfits.2 hvalue
      exact AddressValue.fitsFamily_ofNetwork (Nat.le_refl _)
  | block hfield hvalue =>
      rename_i kept _ _ _ _
      cases h
      obtain ⟨-, -, -, hlength, hmask⟩ := hfits
      obtain rfl := value_of_field hfield hlength hvalue
      refine AddressValue.fitsFamily_ofNetwork ?_
      have hones := ones_le kept
      rwa [hmask.kept_length, (AddressField.at?_eq_some_iff.mp hfield).2, ← Family.width_eq]
        at hones
  | port => cases h
  | protocol => cases h
  | countNamed => cases h
  | count => cases h
  | limit => cases h
  | drop => cases h

/-! ## Whole programs -/

theorem Program.IsCoherent.testFits (h : program.IsCoherent) : program.TestFits :=
  h program List.suffix_rfl

theorem Program.IsCoherent.of_suffix (h : program.IsCoherent) (hsuffix : rest <:+ program) :
    rest.IsCoherent :=
  fun tail htail => h tail (htail.trans hsuffix)

theorem Program.LoadsAddressesOf.of_suffix {family : Family} (h : program.LoadsAddressesOf family)
    (hsuffix : rest <:+ program) : rest.LoadsAddressesOf family :=
  fun expression hexpression => h expression (hsuffix.subset hexpression)

theorem Statement.Phrases.dropsFrom_eq (h : Phrases program statements)
    (hcoherent : program.IsCoherent) (hfamily : program.LoadsAddressesOf packet.family)
    (registers : Registers) :
    Program.dropsFrom packet exceeds registers program =
      Statement.drops packet exceeds statements := by
  induction h generalizing registers with
  | nil => rfl
  | cons phrase tail ih =>
      have hsuffix := phrase.suffix
      exact phrase.dropsFrom_eq hcoherent.testFits hfamily
        (ih (hcoherent.of_suffix hsuffix) (hfamily.of_suffix hsuffix)) registers

theorem Statement.Phrases.fitsFamily (h : Phrases program statements)
    (hcoherent : program.IsCoherent) {field : AddressField} {value : AddressValue}
    (hmem : .address field value ∈ statements) : value.FitsFamily field.family := by
  induction h with
  | nil => cases hmem
  | cons phrase tail ih =>
      rcases List.mem_cons.mp hmem with hstatement | hmem
      · exact phrase.fitsFamily hcoherent.testFits hstatement.symm
      · exact ih (hcoherent.of_suffix phrase.suffix) hmem

/-! ## Masked tests that do not fit -/

theorem slice?_replicate_append (offset : Nat) (piece : List UInt8) :
    slice? offset piece.length (List.replicate offset 0 ++ piece) = some piece := by
  simp [slice?]

def Program.maskedTest (offset length target masked : Nat) (kept flip data : List UInt8) :
    Program :=
  [.load .network offset length target, .mask target masked length kept flip,
    .compare masked data, .drop]

section MaskedTest

variable {offset length target masked : Nat} {kept flip data : List UInt8}

theorem exists_field_of_maskedTest (hdata : data.length = length)
    (h : ofProgram? (.maskedTest offset length target masked kept flip data) = .ok statements) :
    ∃ field : AddressField, AddressField.at? offset length = some field ∧
      statements =
        [.address field (.ofNetwork ⟨.ofBytes field.family data, ones kept⟩), .drop] := by
  cases ofProgram?_eq_ok_iff.mp h with
  | cons phrase tail =>
      cases phrase with
      | block hfield hvalue =>
          rename_i field value
          have hdrop := Except.ok.inj ((ofProgram?_eq_ok_iff.mpr tail).symm.trans
            (show ofProgram? [.drop] = .ok [.drop] from rfl))
          obtain rfl := value_of_field hfield hdata hvalue
          exact ⟨field, hfield, by rw [hdrop]; rfl⟩

theorem drops_maskedTest_iff {piece : List UInt8}
    (hslice : slice? offset length (packet.header .network) = some piece) :
    (Program.maskedTest offset length target masked kept flip data).drops packet exceeds = true ↔
      maskedBytes kept flip piece = data := by
  have htest : Program.Guards packet exceeds _ _ :=
    Program.guards_load_mask_compare .network offset length target masked kept flip data
  obtain ⟨after, hafter⟩ := htest .clear [.drop]
  refine hafter.trans ?_
  simp [hslice, Program.dropsFrom, Expression.step]

theorem drops_address_iff {count : Nat} {field : AddressField} {piece : List UInt8}
    (hfield : AddressField.at? offset length = some field) (hfamily : field.family = packet.family)
    (hslice : slice? offset length (packet.header .network) = some piece) :
    Statement.drops packet exceeds
        [.address field (.ofNetwork ⟨.ofBytes field.family data, count⟩), .drop] = true ↔
      (Address.ofBytes field.family data).AgreesOn count (.ofBytes field.family piece) := by
  have hguards : Statement.Guards packet exceeds
      [.address field (.ofNetwork ⟨.ofBytes field.family data, count⟩)] _ :=
    guards_address hfield hfamily fun _ _ => Iff.rfl
  refine (hguards [.drop]).trans ?_
  simp [hslice, Statement.drops, Statement.verdict?]

/-- If a masked test does what its statement says on all packets, then its mask fits. -/
theorem maskFits_of_drops_eq (hkept : kept.length = length) (hflip : flip.length = length)
    (hdata : data.length = length)
    (h : ofProgram? (.maskedTest offset length target masked kept flip data) = .ok statements)
    (hdrops : ∀ (packet : Packet) (exceeds : Limiter),
      (Program.maskedTest offset length target masked kept flip data).LoadsAddressesOf
        packet.family →
      Statement.drops packet exceeds statements =
        (Program.maskedTest offset length target masked kept flip data).drops packet exceeds) :
    MaskFits length kept flip data := by
  obtain ⟨field, hfield, rfl⟩ := exists_field_of_maskedTest hdata h
  obtain rfl := (AddressField.at?_eq_some_iff.mp hfield).2
  refine (masked_iff_agrees_iff_maskFits hkept hflip hdata).mp fun piece hpiece => ?_
  -- a packet that has the piece as its field puts the test and the statement to it
  obtain ⟨packet, hfamily, hslice⟩ : ∃ packet : Packet, field.family = packet.family ∧
      slice? offset field.family.byteCount (packet.header .network) = some piece :=
    ⟨⟨field.family, List.replicate offset 0 ++ piece, 0, []⟩, rfl,
      hpiece ▸ slice?_replicate_append offset piece⟩
  have hloads : (Program.maskedTest offset field.family.byteCount target masked kept flip
      data).LoadsAddressesOf packet.family := by
    rw [← hfamily]
    simp [Program.LoadsAddressesOf, Program.maskedTest, Expression.addressField?, hfield]
  have hsame := hdrops packet (fun _ _ => false) hloads
  rw [Bool.eq_iff_iff, drops_maskedTest_iff hslice, drops_address_iff hfield hfamily hslice]
    at hsame
  exact hsame.symm

end MaskedTest

end Running

/-- A test of a block through two registers, with flips of what its mask clears. -/
def flippedTest : Program :=
  [.load .network 16 4 1, .mask 1 2 4 [255, 255, 255, 0] [0, 0, 0, 77],
    .compare 2 [203, 0, 113, 77], .loadProtocol 3, .compare 3 [17], .limit .packets 100 true, .drop]

def scatteredTest : Program :=
  .maskedTest 16 4 1 1 [255, 0, 255, 0] [0, 0, 0, 0] [203, 0, 113, 0]

theorem flippedTest_isCoherent : flippedTest.IsCoherent := by
  have hmask : MaskFits 4 [255, 255, 255, 0] [0, 0, 0, 77] [203, 0, 113, 77] := by decide
  simp [Program.IsCoherent, flippedTest, List.suffix_cons_iff, Program.TestFits, hmask]

def blockPacket : Packet where
  family := .ipv4
  networkHeader := List.replicate 16 0 ++ [203, 0, 113, 9]
  protocol := 17
  transportHeader := []

end FlowFence
