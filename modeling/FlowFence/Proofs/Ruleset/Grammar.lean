import FlowFence.Proofs.Ruleset.Lifting
import FlowFence.Proofs.Ruleset.Phrases
import Mathlib.Data.List.Chain

/-!
# The grammar of programs

The programs that have statements, given by a list of phrases and not by the reader. A program is
read just if it is phrases put together, and it is read as one statement for each of them, where a
counter right behind a reference belongs to the phrase of the reference. So programs put together
have the statements of both, unless that joins a reference with its counter.
-/

namespace FlowFence

namespace Statement

variable {program rest first second phrase : Program} {statement : Statement}
  {statements others : List Statement}

/-! ## Phrases by themselves -/

def addressPlaces : List (Nat × Nat × AddressField) :=
  [(12, 4, ⟨.ipv4, .source⟩), (16, 4, ⟨.ipv4, .destination⟩),
    (8, 16, ⟨.ipv6, .source⟩), (24, 16, ⟨.ipv6, .destination⟩)]

def portPlaces : List (Nat × Program.Direction) :=
  [(0, .source), (2, .destination)]

inductive IsPhrase : Program → Prop
  | address {offset length target register : Nat} {data : List UInt8}
      (place : (offset, length) ∈ [(12, 4), (16, 4), (8, 16), (24, 16)])
      (size : data.length = 4 ∨ data.length = 16) :
      IsPhrase [.load .network offset length target, .compare register data]
  | maskedAddress {offset length target source masked count register : Nat}
      {kept flip data : List UInt8}
      (place : (offset, length) ∈ [(12, 4), (16, 4), (8, 16), (24, 16)])
      (size : data.length = 4 ∨ data.length = 16) :
      IsPhrase [.load .network offset length target, .mask source masked count kept flip,
        .compare register data]
  | port {offset target register : Nat} {data : List UInt8} (place : offset = 0 ∨ offset = 2)
      (size : data.length = 2) :
      IsPhrase [.load .transport offset 2 target, .compare register data]
  | protocol {target register : Nat} {data : List UInt8} (size : data.length = 1) :
      IsPhrase [.loadProtocol target, .compare register data]
  | reference {name : String} : IsPhrase [.counterRef name]
  | referredCounter {name : String} {packets bytes : Nat} :
      IsPhrase [.counterRef name, .counter packets bytes]
  | counter {packets bytes : Nat} : IsPhrase [.counter packets bytes]
  | limit {unit : LimitUnit} {rate : Nat} {above : Bool} : IsPhrase [.limit unit rate above]
  | drop : IsPhrase [.drop]

/--
The statement of a phrase. A masked address stands for the block of as many bits as the mask has one
bits, which is the address alone if these are all.
-/
inductive IsReadAs : Program → Statement → Prop
  | address {offset length target register : Nat} {field : AddressField} {base : Address}
      (place : (offset, length, field) ∈ addressPlaces) :
      IsReadAs [.load .network offset length target, .compare register base.bytes]
        (.address field (.host base))
  | maskedAddress {offset length target source masked count register : Nat}
      {kept flip : List UInt8} {field : AddressField} {base : Address}
      (place : (offset, length, field) ∈ addressPlaces) :
      IsReadAs [.load .network offset length target, .mask source masked count kept flip,
          .compare register base.bytes]
        (.address field (.ofNetwork ⟨base, (bitList kept).count true⟩))
  | port {offset target register : Nat} {high low : UInt8} {direction : Program.Direction}
      (place : (offset, direction) ∈ portPlaces) :
      IsReadAs [.load .transport offset 2 target, .compare register [high, low]]
        (.port direction (high.toNat * 256 + low.toNat))
  | protocol {target register : Nat} {value : UInt8} :
      IsReadAs [.loadProtocol target, .compare register [value]] (.protocol value.toNat)
  | reference {name : String} : IsReadAs [.counterRef name] (.countNamed name)
  | referredCounter {name : String} {packets bytes : Nat} :
      IsReadAs [.counterRef name, .counter packets bytes] (.countNamed name)
  | counter {packets bytes : Nat} : IsReadAs [.counter packets bytes] (.count packets bytes)
  | limit {unit : LimitUnit} {rate : Nat} {above : Bool} :
      IsReadAs [.limit unit rate above] (.limit unit rate above)
  | drop : IsReadAs [.drop] .drop

/-- Whether the border between two programs parts a reference from a counter right behind it. -/
def PartsReference (first second : Program) : Prop :=
  (∃ name, Expression.counterRef name ∈ first.getLast?) ∧
    ∃ packets bytes, Expression.counter packets bytes ∈ second.head?

theorem IsReadAs.isPhrase (h : IsReadAs phrase statement) : IsPhrase phrase := by
  have hsize (base : Address) : base.bytes.length = 4 ∨ base.bytes.length = 16 := by
    rw [Address.length_bytes]
    cases base.family with
    | ipv4 => exact .inl rfl
    | ipv6 => exact .inr rfl
  have hplace {offset length : Nat} {field : AddressField}
      (h : (offset, length, field) ∈ addressPlaces) :
      (offset, length) ∈ [(12, 4), (16, 4), (8, 16), (24, 16)] := by
    have hplaces := List.mem_map_of_mem (f := fun place => (place.1, place.2.1)) h
    exact hplaces
  cases h with
  | address place => exact .address (hplace place) (hsize _)
  | maskedAddress place => exact .maskedAddress (hplace place) (hsize _)
  | port place =>
      have hoffsets := List.mem_map_of_mem (f := Prod.fst) place
      exact .port (by simpa [portPlaces] using hoffsets) rfl
  | protocol => exact .protocol rfl
  | reference => exact .reference
  | referredCounter => exact .referredCounter
  | counter => exact .counter
  | limit => exact .limit
  | drop => exact .drop

theorem IsPhrase.exists_isReadAs (h : IsPhrase phrase) :
    ∃ statement, IsReadAs phrase statement := by
  have hbase {data : List UInt8} (hsize : data.length = 4 ∨ data.length = 16) :
      ∃ base : Address, base.bytes = data := by
    rcases hsize with hsize | hsize
    · exact ⟨.ofBytes .ipv4 data, bytes_ofBytes hsize⟩
    · exact ⟨.ofBytes .ipv6 data, bytes_ofBytes hsize⟩
  have hfield {offset length : Nat}
      (hplace : (offset, length) ∈ [(12, 4), (16, 4), (8, 16), (24, 16)]) :
      ∃ field, (offset, length, field) ∈ addressPlaces := by
    have hplaces : (offset, length) ∈ addressPlaces.map fun place => (place.1, place.2.1) := hplace
    obtain ⟨⟨_, _, field⟩, hmem, heq⟩ := List.mem_map.mp hplaces
    cases heq
    exact ⟨field, hmem⟩
  cases h with
  | address place size =>
      obtain ⟨field, hmem⟩ := hfield place
      obtain ⟨base, rfl⟩ := hbase size
      exact ⟨_, .address hmem⟩
  | maskedAddress place size =>
      obtain ⟨field, hmem⟩ := hfield place
      obtain ⟨base, rfl⟩ := hbase size
      exact ⟨_, .maskedAddress hmem⟩
  | @port offset _ _ _ place size =>
      obtain ⟨high, low, rfl⟩ := List.length_eq_two.mp size
      have hplace : ∃ direction, (offset, direction) ∈ portPlaces := by
        rcases place with rfl | rfl
        · exact ⟨.source, by simp [portPlaces]⟩
        · exact ⟨.destination, by simp [portPlaces]⟩
      obtain ⟨direction, hmem⟩ := hplace
      exact ⟨_, .port hmem⟩
  | protocol size =>
      obtain ⟨value, rfl⟩ := List.length_eq_one_iff.mp size
      exact ⟨_, .protocol⟩
  | reference => exact ⟨_, .reference⟩
  | referredCounter => exact ⟨_, .referredCounter⟩
  | counter => exact ⟨_, .counter⟩
  | limit => exact ⟨_, .limit⟩
  | drop => exact ⟨_, .drop⟩

theorem IsReadAs.ne_nil (h : IsReadAs phrase statement) : phrase ≠ [] := by
  cases h <;> exact List.cons_ne_nil _ _

theorem IsReadAs.eq_of_reference_mem {name : String} (h : IsReadAs phrase statement)
    (hlast : Expression.counterRef name ∈ phrase.getLast?) :
    phrase = [.counterRef name] ∧ statement = .countNamed name := by
  cases h with
  | reference =>
      cases hlast
      exact ⟨rfl, rfl⟩
  | _ => cases hlast

/-! ## Borders -/

theorem not_partsReference_nil (first : Program) : ¬ PartsReference first [] := by
  rintro ⟨-, packets, bytes, hmem⟩
  cases hmem

theorem partsReference_append_left (hrest : rest ≠ []) :
    PartsReference (first ++ rest) second ↔ PartsReference rest second := by
  unfold PartsReference
  rw [List.getLast?_append_of_ne_nil first hrest]

theorem partsReference_append_right (hrest : rest ≠ []) :
    PartsReference first (rest ++ second) ↔ PartsReference first rest := by
  unfold PartsReference
  rw [List.head?_append_of_ne_nil rest hrest]

theorem dropCounter_of_not_parts {name : String} (h : ¬ PartsReference [.counterRef name] rest) :
    dropCounter rest = rest := by
  unfold dropCounter
  split
  · exact (h ⟨⟨name, rfl⟩, _, _, rfl⟩).elim
  · rfl

/-! ## Phrases in front of programs -/

theorem at?_eq_some_iff_mem {offset length : Nat} {field : AddressField} :
    AddressField.at? offset length = some field ↔ (offset, length, field) ∈ addressPlaces := by
  constructor
  · intro h
    unfold AddressField.at? at h
    split at h <;> cases h <;> simp [addressPlaces]
  · intro h
    simp only [addressPlaces, List.mem_cons, List.not_mem_nil, or_false, Prod.mk.injEq] at h
    rcases h with ⟨rfl, rfl, rfl⟩ | ⟨rfl, rfl, rfl⟩ | ⟨rfl, rfl, rfl⟩ | ⟨rfl, rfl, rfl⟩ <;> rfl

theorem portAt?_eq_some_iff_mem {offset : Nat} {direction : Program.Direction} :
    portAt? offset = some direction ↔ (offset, direction) ∈ portPlaces := by
  constructor
  · intro h
    unfold portAt? at h
    split at h <;> cases h <;> simp [portPlaces]
  · intro h
    simp only [portPlaces, List.mem_cons, List.not_mem_nil, or_false, Prod.mk.injEq] at h
    rcases h with ⟨rfl, rfl⟩ | ⟨rfl, rfl⟩ <;> rfl

theorem ofNetwork_whole (base : Address) :
    AddressValue.ofNetwork ⟨base, base.family.width⟩ = .host base :=
  if_pos rfl

/-- Data stand for a value just if they are the bytes of an address. -/
theorem addressValue?_eq_ok_iff {data : List UInt8} {kept : Option (List UInt8)}
    {value : AddressValue} :
    addressValue? data kept = .ok value ↔
      ∃ base : Address, base.bytes = data ∧
        value = .ofNetwork ⟨base, (kept.map ones).getD base.family.width⟩ := by
  have hvalue (base : Address) : addressValue? base.bytes kept =
      .ok (.ofNetwork ⟨base, (kept.map ones).getD base.family.width⟩) := by
    rw [addressValue?_of_length base.length_bytes, ofBytes_bytes]
  constructor
  · intro h
    obtain ⟨base, rfl⟩ : ∃ base : Address, base.bytes = data := by
      by_cases hfour : data.length = 4
      · exact ⟨.ofBytes .ipv4 data, bytes_ofBytes hfour⟩
      · by_cases hsixteen : data.length = 16
        · exact ⟨.ofBytes .ipv6 data, bytes_ofBytes hsixteen⟩
        · simp [addressValue?, Address.ofBytes?, hfour, hsixteen] at h
    rw [hvalue base] at h
    exact ⟨base, rfl, (Except.ok.inj h).symm⟩
  · rintro ⟨base, rfl, rfl⟩
    exact hvalue base

/-- What stands in front of a program, up to its rest, is a phrase by itself. -/
theorem phrase_iff_isReadAs :
    Phrase program statement rest ↔
      ∃ phrase, program = phrase ++ rest ∧ IsReadAs phrase statement ∧
        ¬ PartsReference phrase rest := by
  have hparts {phrase : Program} (h : ∀ name, Expression.counterRef name ∉ phrase.getLast?)
      (rest : Program) : ¬ PartsReference phrase rest := fun hborder =>
    hborder.1.elim h
  constructor
  · intro h
    cases h with
    | host hfield hvalue =>
        obtain ⟨base, rfl, rfl⟩ := addressValue?_eq_ok_iff.mp hvalue
        refine ⟨[_, _], rfl, ?_, hparts (by simp) rest⟩
        rw [Option.map_none, Option.getD_none, ofNetwork_whole]
        exact .address (at?_eq_some_iff_mem.mp hfield)
    | block hfield hvalue =>
        obtain ⟨base, rfl, rfl⟩ := addressValue?_eq_ok_iff.mp hvalue
        refine ⟨[_, _, _], rfl, ?_, hparts (by simp) rest⟩
        rw [Option.map_some, Option.getD_some, ones_eq_count]
        exact .maskedAddress (at?_eq_some_iff_mem.mp hfield)
    | port hport =>
        exact ⟨[_, _], rfl, .port (portAt?_eq_some_iff_mem.mp hport), hparts (by simp) rest⟩
    | protocol => exact ⟨[_, _], rfl, .protocol, hparts (by simp) rest⟩
    | @countNamed name rest =>
        cases rest with
        | nil => exact ⟨[_], rfl, .reference, not_partsReference_nil _⟩
        | cons expression rest =>
            cases expression with
            | counter => exact ⟨[_, _], rfl, .referredCounter, hparts (by simp) rest⟩
            | _ =>
                refine ⟨[_], rfl, .reference, ?_⟩
                rintro ⟨-, packets, bytes, hmem⟩
                cases hmem
    | count => exact ⟨[_], rfl, .counter, hparts (by simp) rest⟩
    | limit => exact ⟨[_], rfl, .limit, hparts (by simp) rest⟩
    | drop => exact ⟨[_], rfl, .drop, hparts (by simp) rest⟩
  · rintro ⟨phrase, rfl, hread, hwhole⟩
    cases hread with
    | @address _ _ _ _ _ base place =>
        refine .host (at?_eq_some_iff_mem.mpr place) (addressValue?_eq_ok_iff.mpr ⟨base, rfl, ?_⟩)
        rw [Option.map_none, Option.getD_none, ofNetwork_whole]
    | @maskedAddress _ _ _ _ _ _ _ kept _ _ base place =>
        refine .block (at?_eq_some_iff_mem.mpr place) (addressValue?_eq_ok_iff.mpr ⟨base, rfl, ?_⟩)
        rw [Option.map_some, Option.getD_some, ones_eq_count]
    | port place => exact .port (portAt?_eq_some_iff_mem.mpr place)
    | protocol => exact .protocol
    | @reference name =>
        have hphrase : Phrase (.counterRef name :: rest) (.countNamed name) (dropCounter rest) :=
          .countNamed
        rwa [dropCounter_of_not_parts hwhole] at hphrase
    | referredCounter => exact .countNamed
    | counter => exact .count
    | limit => exact .limit
    | drop => exact .drop

/-! ## Programs -/

/-- A border is before all the programs that follow just as it is before the first of them. -/
theorem partsReference_flatten_cons {programs : List Program} (hsecond : second ≠ []) :
    PartsReference first (second :: programs).flatten ↔ PartsReference first second := by
  rw [List.flatten_cons, partsReference_append_right hsecond]

/-- A program is read as the statements of the phrases that it is put together of. -/
theorem phrases_iff_isReadAs :
    Phrases program statements ↔
      ∃ phrases, List.Forall₂ IsReadAs phrases statements ∧
        phrases.IsChain (fun first second => ¬ PartsReference first second) ∧
          phrases.flatten = program := by
  constructor
  · intro h
    induction h with
    | nil => exact ⟨[], .nil, .nil, rfl⟩
    | @cons program rest statement statements phrase tail ih =>
        obtain ⟨first, rfl, hread, hwhole⟩ := phrase_iff_isReadAs.mp phrase
        obtain ⟨phrases, hreads, hchain, rfl⟩ := ih
        refine ⟨first :: phrases, .cons hread hreads, List.isChain_cons.mpr ⟨?_, hchain⟩, rfl⟩
        intro second hsecond
        obtain ⟨phrases, rfl⟩ := List.head?_eq_some_iff.mp hsecond
        obtain ⟨_, _, hnext, -, -⟩ := List.forall₂_cons_left_iff.mp hreads
        rwa [partsReference_flatten_cons hnext.ne_nil] at hwhole
  · rintro ⟨phrases, hreads, hchain, rfl⟩
    induction hreads with
    | nil => exact .nil
    | @cons first statement phrases statements hread hreads ih =>
        obtain ⟨hborder, hchain⟩ := List.isChain_cons.mp hchain
        refine .cons (phrase_iff_isReadAs.mpr ⟨first, rfl, hread, ?_⟩) (ih hchain)
        cases hreads with
        | nil => exact not_partsReference_nil first
        | cons hnext _ =>
            rw [partsReference_flatten_cons hnext.ne_nil]
            exact hborder _ rfl

/-- Whatever phrases are put together, with a counter in front of them left out or not, are read. -/
theorem exists_phrases_flatten {phrases : List Program} (h : ∀ phrase ∈ phrases, IsPhrase phrase) :
    (∃ statements, Phrases phrases.flatten statements) ∧
      ∃ statements, Phrases (dropCounter phrases.flatten) statements := by
  induction phrases with
  | nil => exact ⟨⟨[], .nil⟩, ⟨[], .nil⟩⟩
  | cons first phrases ih =>
      obtain ⟨⟨statements, hrest⟩, ⟨others, hdropped⟩⟩ :=
        ih fun phrase hmem => h phrase (List.mem_cons_of_mem first hmem)
      obtain ⟨statement, hread⟩ := (h first List.mem_cons_self).exists_isReadAs
      have hwhole : ∃ statements, Phrases (first :: phrases).flatten statements := by
        by_cases hborder : PartsReference first phrases.flatten
        · obtain ⟨⟨name, hlast⟩, -⟩ := hborder
          obtain ⟨rfl, rfl⟩ := hread.eq_of_reference_mem hlast
          exact ⟨_, .cons .countNamed hdropped⟩
        · exact ⟨_, .cons (phrase_iff_isReadAs.mpr ⟨first, rfl, hread, hborder⟩) hrest⟩
      refine ⟨hwhole, ?_⟩
      cases hread with
      | counter => exact ⟨statements, hrest⟩
      | _ => exact hwhole

theorem exists_ofProgram?_iff :
    (∃ statements, ofProgram? program = .ok statements) ↔
      ∃ phrases : List Program, (∀ phrase ∈ phrases, IsPhrase phrase) ∧
        phrases.flatten = program := by
  constructor
  · rintro ⟨statements, h⟩
    obtain ⟨phrases, hreads, -, rfl⟩ := phrases_iff_isReadAs.mp (ofProgram?_eq_ok_iff.mp h)
    refine ⟨phrases, fun phrase hmem => ?_, rfl⟩
    obtain ⟨i, hi, rfl⟩ := List.getElem_of_mem hmem
    exact ((List.forall₂_iff_get.mp hreads).2 i hi (by rwa [← hreads.length_eq])).isPhrase
  · rintro ⟨phrases, hphrases, rfl⟩
    obtain ⟨⟨statements, h⟩, -⟩ := exists_phrases_flatten hphrases
    exact ⟨statements, ofProgram?_eq_ok_iff.mpr h⟩

/-! ## Programs put together -/

/--
Programs put together have the statements of both. Where that joins a reference with its counter,
the statement of the counter is not among them.
-/
theorem Phrases.append (hfirst : Phrases first statements) (hsecond : Phrases second others) :
    (¬ PartsReference first second → Phrases (first ++ second) (statements ++ others)) ∧
      (PartsReference first second → Phrases (first ++ second) (statements ++ others.tail)) := by
  induction hfirst with
  | nil => exact ⟨fun _ => hsecond, fun hborder => nomatch hborder.1⟩
  | @cons program rest statement statements phrase tail ih =>
      obtain ⟨front, rfl, hread, hwhole⟩ := phrase_iff_isReadAs.mp phrase
      cases rest with
      | nil =>
          cases tail with
          | cons phrase _ => cases phrase
          | nil =>
              rw [List.append_nil]
              constructor
              · intro hborder
                exact .cons (phrase_iff_isReadAs.mpr ⟨front, rfl, hread, hborder⟩) hsecond
              · rintro ⟨⟨name, hlast⟩, packets, bytes, hhead⟩
                obtain ⟨rfl, rfl⟩ := hread.eq_of_reference_mem hlast
                obtain ⟨back, rfl⟩ := List.head?_eq_some_iff.mp hhead
                cases hsecond with
                | cons phrase tail =>
                    cases phrase
                    exact .cons .countNamed tail
      | cons expression rest =>
          have hne : expression :: rest ≠ [] := List.cons_ne_nil expression rest
          have hphrase : Phrase (front ++ expression :: rest ++ second) statement
              (expression :: rest ++ second) := by
            rw [List.append_assoc]
            refine phrase_iff_isReadAs.mpr ⟨front, rfl, hread, ?_⟩
            rwa [partsReference_append_right hne]
          rw [partsReference_append_left hne]
          exact ⟨fun hborder => .cons hphrase (ih.1 hborder),
            fun hborder => .cons hphrase (ih.2 hborder)⟩

end Statement

end FlowFence
