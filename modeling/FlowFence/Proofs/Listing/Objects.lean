import FlowFence.Proofs.Listing.Documents
import Mathlib.Data.Option.NAry

/-!
# Objects of a listing

What is read of a listing of a table: its counters and whatever else in it has a name. Each member
is read by itself, so the objects of entries that follow each other are those of the parts in turn.
-/

namespace FlowFence

namespace Listing

variable {text : List Char} {kind name : String} {body : Json} {entries others : List Entry}
  {members : List (String × Json)} {objects : List NamedObject}

/--
Whether the body of a counter gives its name and its counts: an object that has all three, or a list
of them in this order.
-/
inductive IsCounterBody : Json → String → Nat → Nat → Prop where
  | object {members : List (String × Json)} {name : String} {packets bytes : Nat}
      (named : ("name", Json.text name) ∈ members)
      (handled : ("packets", Json.natural packets) ∈ members)
      (size : ("bytes", Json.natural bytes) ∈ members) (small : packets < 2 ^ 64 ∧ bytes < 2 ^ 64) :
      IsCounterBody (.object members) name packets bytes
  | list {name : String} {packets bytes : Nat} (small : packets < 2 ^ 64 ∧ bytes < 2 ^ 64) :
      IsCounterBody (.list [.text name, .natural packets, .natural bytes]) name packets bytes

def HasName (body : Json) (name : String) : Prop :=
  ∃ members, body = .object members ∧ ("name", Json.text name) ∈ members

/-- Whether a member of an entry describes just these objects: one, or none of those left out. -/
inductive Describes : String × Json → List NamedObject → Prop where
  | structural {kind : String} {body : Json} (h : kind ∈ structuralKinds) :
      Describes (kind, body) []
  | counter {body : Json} {name : String} {packets bytes : Nat}
      (given : IsCounterBody body name packets bytes) :
      Describes ("counter", body) [.counter name packets bytes]
  | other {kind name : String} {body : Json} (h : kind ∉ "counter" :: structuralKinds)
      (named : HasName body name) : Describes (kind, body) [.other kind name]
  | nameless {kind : String} {body : Json} (h : kind ∉ "counter" :: structuralKinds)
      (unnamed : ¬∃ name, HasName body name) : Describes (kind, body) []

/-! ## One member -/

theorem asText?_eq_some_iff : body.asText? = some name ↔ body = .text name := by
  cases body <;> simp [Json.asText?]

theorem counterOfFields?_eq_some_iff {nameField packetField byteField : Json}
    {object : NamedObject} :
    counterOfFields? nameField packetField byteField = some object ↔
      ∃ name packets bytes, nameField = .text name ∧ packetField = Json.natural packets ∧
        byteField = Json.natural bytes ∧ (packets < 2 ^ 64 ∧ bytes < 2 ^ 64) ∧
          object = .counter name packets bytes := by
  constructor
  · intro h
    unfold counterOfFields? at h
    split at h
    · rename_i name packets bytes hname hpackets hbytes
      cases h
      obtain ⟨rfl, hsmall⟩ := asNatural?_eq_some_iff.mp hpackets
      obtain ⟨rfl, hsmall'⟩ := asNatural?_eq_some_iff.mp hbytes
      exact ⟨name, packets, bytes, asText?_eq_some_iff.mp hname, rfl, rfl, ⟨hsmall, hsmall'⟩, rfl⟩
    · cases h
  · rintro ⟨name, packets, bytes, rfl, rfl, rfl, ⟨hpackets, hbytes⟩, rfl⟩
    rw [counterOfFields?, asText?_eq_some_iff.mpr rfl, asNatural?_eq_some_iff.mpr ⟨rfl, hpackets⟩,
      asNatural?_eq_some_iff.mpr ⟨rfl, hbytes⟩]

theorem counterOf?_eq_some_iff (h : body.IsDenoted) {object : NamedObject} :
    counterOf? body = some object ↔
      ∃ name packets bytes, IsCounterBody body name packets bytes ∧
        object = .counter name packets bytes := by
  constructor
  · intro hread
    unfold counterOf? at hread
    split at hread
    · obtain ⟨name, packets, bytes, rfl, rfl, rfl, hsmall, rfl⟩ :=
        counterOfFields?_eq_some_iff.mp hread
      exact ⟨name, packets, bytes, .list hsmall, rfl⟩
    · split at hread
      · rename_i hname hpackets hbytes
        obtain ⟨name, packets, bytes, rfl, rfl, rfl, hsmall, rfl⟩ :=
          counterOfFields?_eq_some_iff.mp hread
        rw [Json.lookup_eq_some_iff_mem h.ordered] at hname hpackets hbytes
        exact ⟨name, packets, bytes, .object hname hpackets hbytes hsmall, rfl⟩
      · cases hread
    · cases hread
  · rintro ⟨name, packets, bytes, hbody, rfl⟩
    have hfields (hsmall : packets < 2 ^ 64 ∧ bytes < 2 ^ 64) :=
      counterOfFields?_eq_some_iff.mpr ⟨name, packets, bytes, rfl, rfl, rfl, hsmall, rfl⟩
    cases hbody with
    | object named handled size small =>
        rw [← Json.lookup_eq_some_iff_mem h.ordered] at named handled size
        rw [counterOf?, named, handled, size]
        exact hfields small
    | list small => exact hfields small

theorem hasName_iff (h : body.IsDenoted) :
    (body.member? "name").bind Json.asText? = some name ↔ HasName body name := by
  rw [Option.bind_eq_some_iff]
  constructor
  · rintro ⟨field, hfield, htext⟩
    obtain rfl := asText?_eq_some_iff.mp htext
    cases body with
    | object members => exact ⟨members, rfl, (Json.member?_eq_some_iff_mem h.ordered).mp hfield⟩
    | _ => cases hfield
  · rintro ⟨members, rfl, hmem⟩
    exact ⟨_, (Json.member?_eq_some_iff_mem h.ordered).mpr hmem, rfl⟩

theorem objectsOfMember?_eq_some_iff (h : body.IsDenoted) :
    objectsOfMember? kind body = some objects ↔ Describes (kind, body) objects := by
  constructor
  · intro hread
    unfold objectsOfMember? at hread
    split_ifs at hread with hstructural hcounter
    · cases hread
      exact .structural hstructural
    · subst hcounter
      obtain ⟨counter, hcounter, rfl⟩ := Option.map_eq_some_iff.mp hread
      obtain ⟨name, packets, bytes, hbody, rfl⟩ := (counterOf?_eq_some_iff h).mp hcounter
      exact .counter hbody
    · have hkind : kind ∉ "counter" :: structuralKinds :=
        List.not_mem_cons_of_ne_of_not_mem hcounter hstructural
      split at hread
      · cases hread
        exact .other hkind ((hasName_iff h).mp ‹_›)
      · rename_i hnone
        cases hread
        refine .nameless hkind ?_
        rintro ⟨name, hname⟩
        rw [(hasName_iff h).mpr hname] at hnone
        cases hnone
  · intro hdescribes
    cases hdescribes with
    | structural hstructural => exact if_pos hstructural
    | counter given =>
        have hread := (counterOf?_eq_some_iff h).mpr ⟨_, _, _, given, rfl⟩
        rw [objectsOfMember?, if_neg (by decide), if_pos rfl, hread, Option.map_some]
    | other hkind named =>
        obtain ⟨hcounter, hstructural⟩ := List.ne_and_not_mem_of_not_mem_cons hkind
        rw [objectsOfMember?, if_neg hstructural, if_neg hcounter, (hasName_iff h).mpr named]
    | nameless hkind unnamed =>
        obtain ⟨hcounter, hstructural⟩ := List.ne_and_not_mem_of_not_mem_cons hkind
        have hnone : (body.member? "name").bind Json.asText? = none :=
          Option.eq_none_iff_forall_ne_some.mpr fun name hname =>
            unnamed ⟨name, (hasName_iff h).mp hname⟩
        rw [objectsOfMember?, if_neg hstructural, if_neg hcounter, hnone]

/-- Only a counter can be malformed. -/
theorem exists_describes_iff :
    (∃ objects, Describes (kind, body) objects) ↔
      (kind = "counter" → ∃ name packets bytes, IsCounterBody body name packets bytes) := by
  constructor
  · rintro ⟨objects, hdescribes⟩ rfl
    cases hdescribes with
    | structural h => exact absurd h (by decide)
    | counter given => exact ⟨_, _, _, given⟩
    | other h named => exact absurd List.mem_cons_self h
    | nameless h unnamed => exact absurd List.mem_cons_self h
  · intro hcounter
    by_cases hkind : kind ∈ "counter" :: structuralKinds
    · rcases List.mem_cons.mp hkind with rfl | hstructural
      · obtain ⟨name, packets, bytes, hbody⟩ := hcounter rfl
        exact ⟨_, .counter hbody⟩
      · exact ⟨_, .structural hstructural⟩
    · by_cases hname : ∃ name, HasName body name
      · obtain ⟨name, hname⟩ := hname
        exact ⟨_, .other hkind hname⟩
      · exact ⟨_, .nameless hkind hname⟩

/-! ## All members -/

theorem objectsOfMembers?_eq_some_iff (h : ∀ member ∈ members, member.2.IsDenoted) :
    objectsOfMembers? members = some objects ↔
      ∃ parts, List.Forall₂ Describes members parts ∧ objects = parts.flatten := by
  induction members generalizing objects with
  | nil => simp [objectsOfMembers?, eq_comm]
  | cons member members ih =>
      obtain ⟨hmember, hmembers⟩ := List.forall_mem_cons.mp h
      obtain ⟨kind, body⟩ := member
      rw [objectsOfMembers?]
      constructor
      · intro hread
        split at hread
        · rename_i hfirst hrest
          cases hread
          obtain ⟨parts, hparts, rfl⟩ := (ih hmembers).mp hrest
          exact ⟨_, .cons ((objectsOfMember?_eq_some_iff hmember).mp hfirst) hparts, rfl⟩
        · cases hread
      · rintro ⟨_, hparts, rfl⟩
        cases hparts with
        | cons first rest =>
            rw [(objectsOfMember?_eq_some_iff hmember).mpr first, (ih hmembers).mpr ⟨_, rest, rfl⟩,
              List.flatten_cons]

theorem objectsOfMembers?_append (front back : List (String × Json)) :
    objectsOfMembers? (front ++ back) =
      Option.map₂ (· ++ ·) (objectsOfMembers? front) (objectsOfMembers? back) := by
  induction front with
  | nil => cases h : objectsOfMembers? back <;> simp [objectsOfMembers?, h]
  | cons member front ih =>
      obtain ⟨kind, body⟩ := member
      rw [List.cons_append, objectsOfMembers?, ih, objectsOfMembers?]
      cases objectsOfMember? kind body <;> cases objectsOfMembers? front <;>
        cases objectsOfMembers? back <;> simp

theorem objects?_of_isListing (h : IsListing text entries) :
    objects? text = objectsOfMembers? entries.flatten := by
  rw [objects?, entries?_of_isListing h, Option.bind_some, objectsOf?]

/-- Objects for each member, and no malformed counter. -/
theorem exists_parts_iff :
    (∃ parts, List.Forall₂ Describes entries.flatten parts) ↔
      ∀ entry ∈ entries, ∀ body, ("counter", body) ∈ entry →
        ∃ name packets bytes, IsCounterBody body name packets bytes := by
  rw [exists_forall₂_iff]
  constructor
  · intro hparts entry hentry body hbody
    exact exists_describes_iff.mp (hparts _ (List.mem_flatten_of_mem hentry hbody)) rfl
  · intro hcounters member hmember
    obtain ⟨entry, hentry, hmem⟩ := List.mem_flatten.mp hmember
    refine exists_describes_iff.mpr fun hkind => hcounters entry hentry member.2 ?_
    rw [← hkind]
    exact hmem

/--
A listing gives its objects just when each counter in it has a name and two counts of 64 bits: for
each member of each entry, the keys of an entry in byte order, a counter with its counts or another
object with its name. The objects of entries put together are those of the parts put together.
-/
theorem objects_are_the_named_members :
    (∀ text entries, IsListing text entries →
      (∀ entry ∈ entries, entry.Pairwise Json.KeyBefore) ∧
      ((objects? text).isSome ↔
        ∀ entry ∈ entries, ∀ body, ("counter", body) ∈ entry →
          ∃ name packets bytes, IsCounterBody body name packets bytes) ∧
      ∀ objects, objects? text = some objects ↔
        ∃ parts, List.Forall₂ Describes entries.flatten parts ∧ objects = parts.flatten) ∧
    ∀ text entries other others, IsListing text entries → IsListing other others →
      (∃ whole, IsListing whole (entries ++ others)) ∧
      ∀ whole, IsListing whole (entries ++ others) →
        objects? whole = Option.map₂ (· ++ ·) (objects? text) (objects? other) := by
  have hread {text : List Char} {entries : List Entry} (h : IsListing text entries)
      {objects : List NamedObject} : objects? text = some objects ↔
        ∃ parts, List.Forall₂ Describes entries.flatten parts ∧ objects = parts.flatten := by
    rw [objects?_of_isListing h]
    refine objectsOfMembers?_eq_some_iff fun member hmember => ?_
    obtain ⟨entry, hentry, hmem⟩ := List.mem_flatten.mp hmember
    exact (isDenoted_of_isListing h hentry).member hmem
  refine ⟨fun text entries h => ⟨?_, ?_, fun objects => hread h⟩, ?_⟩
  · exact fun entry hentry => (isDenoted_of_isListing h hentry).ordered
  · rw [Option.isSome_iff_exists, ← exists_parts_iff]
    constructor
    · rintro ⟨objects, hobjects⟩
      obtain ⟨parts, hparts, -⟩ := (hread h).mp hobjects
      exact ⟨parts, hparts⟩
    · exact fun ⟨parts, hparts⟩ => ⟨_, (hread h).mpr ⟨parts, hparts, rfl⟩⟩
  · intro text entries other others h hother
    refine ⟨exists_isListing_append h hother, fun whole hwhole => ?_⟩
    rw [objects?_of_isListing hwhole, objects?_of_isListing h, objects?_of_isListing hother,
      List.flatten_append, objectsOfMembers?_append]

def mixedTable : List Char :=
  "[[\x7b\"quota\":\x7b\"name\":\"q\"\x7d,\"counter\":\x7b\"name\":\"in\",\"packets\":1,\"bytes\":2\x7d\x7d,
    \x7b\"counter\":[\"out\",3,18446744073709551615],\"set\":[\"name\"]\x7d]]".toList

def brokenTable : List Char :=
  "[[\x7b\"counter\":\x7b\"name\":\"in\"\x7d\x7d]]".toList

theorem mixedTable_gives_named_members :
    let found : List NamedObject :=
      [.counter "in" 1 2, .other "quota" "q", .counter "out" 3 (2 ^ 64 - 1)]
    objects? mixedTable = some found ∧
      ∃ whole entries others, IsListing mixedTable entries ∧ IsListing brokenTable others ∧
        IsListing whole (entries ++ others) ∧ (∀ entry ∈ entries, entry.Pairwise Json.KeyBefore) ∧
        (∃ parts, List.Forall₂ Describes entries.flatten parts ∧ found = parts.flatten) ∧
        (¬∀ entry ∈ others, ∀ body, ("counter", body) ∈ entry →
          ∃ name packets bytes, IsCounterBody body name packets bytes) ∧
        objects? whole = none := by
  intro found
  obtain ⟨hread, happend⟩ := objects_are_the_named_members
  have hobjects : objects? mixedTable = some found := by decide +kernel
  have hbroken : objects? brokenTable = none := by decide +kernel
  obtain ⟨entries, hentries, -⟩ := Option.bind_eq_some_iff.mp hobjects
  obtain ⟨others, hothers⟩ : ∃ others, entries? brokenTable = some others :=
    Option.isSome_iff_exists.mp (by decide +kernel)
  have hlisting := (entries?_eq_some_iff (by decide +kernel)).mp hentries
  have hmore := (entries?_eq_some_iff (by decide +kernel)).mp hothers
  obtain ⟨hordered, -, hexact⟩ := hread _ _ hlisting
  obtain ⟨-, hcomplete, -⟩ := hread _ _ hmore
  have hincomplete := mt hcomplete.mpr (by rw [hbroken]; exact Bool.false_ne_true)
  obtain ⟨⟨whole, hwhole⟩, hparts⟩ := happend _ _ _ _ hlisting hmore
  refine ⟨hobjects, whole, entries, others, hlisting, hmore, hwhole, hordered,
    (hexact _).mp hobjects, hincomplete, ?_⟩
  rw [hparts whole hwhole, hbroken, Option.map₂_none_right]

end Listing

end FlowFence
