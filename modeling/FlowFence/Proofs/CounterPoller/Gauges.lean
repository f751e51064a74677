import FlowFence.CounterPoller
import FlowFence.Proofs.Binary64.Whole
import FlowFence.Proofs.Telemetry.Series

/-!
# Gauges of the counter poller

What a number of polls leave in the gauges depends on the counters that the daemon keeps among the
listed objects alone, and of those with one name on the last one alone. A count is shown as the
double-precision number nearest to it, which is the count itself up to fifty-three bits.
-/

namespace FlowFence

namespace CounterPoller

open Telemetry (packetGauge byteGauge counterLabel)

variable {telemetry : Telemetry} {object : NamedObject} {objects : List NamedObject}
  {listings : List (Except GatewayError (List NamedObject))} {value : CounterValue}
  {name : String} {packets bytes : Nat}

/-- Whether an object is a counter with one of the names that the daemon provides. -/
def IsKept (object : NamedObject) : Prop :=
  ∃ name ∈ NamedCounter.all, ∃ packets bytes, object = .counter name packets bytes

/-- The objects of a listing; one that fails has none. -/
def listedObjects : Except GatewayError (List NamedObject) → List NamedObject
  | .ok objects => objects
  | .error _ => []

def seen (listings : List (Except GatewayError (List NamedObject))) : List NamedObject :=
  listings.flatMap listedObjects

def pollAll (telemetry : Telemetry) (listings : List (Except GatewayError (List NamedObject))) :
    Telemetry :=
  listings.foldl (fun telemetry listed => (poll telemetry listed).1) telemetry

/-! ## Exported objects -/

theorem exported?_eq_some_iff : exported? object = some value ↔
    value.name ∈ NamedCounter.all ∧ object = .counter value.name value.packets value.bytes := by
  cases object with
  | counter name packets bytes =>
      cases value
      simp only [exported?, Option.ite_none_right_eq_some, Option.some.injEq,
        CounterValue.mk.injEq, NamedObject.counter.injEq]
      constructor
      · rintro ⟨hname, rfl, rfl, rfl⟩
        exact ⟨hname, rfl, rfl, rfl⟩
      · rintro ⟨hname, rfl, rfl, rfl⟩
        exact ⟨hname, rfl, rfl, rfl⟩
  | other kind name => simp [exported?]

theorem isSome_exported?_iff : (exported? object).isSome = true ↔ IsKept object := by
  rw [Option.isSome_iff_exists]
  constructor
  · rintro ⟨value, hvalue⟩
    obtain ⟨hname, hobject⟩ := exported?_eq_some_iff.mp hvalue
    exact ⟨value.name, hname, value.packets, value.bytes, hobject⟩
  · rintro ⟨name, hname, packets, bytes, hobject⟩
    exact ⟨⟨name, packets, bytes⟩, exported?_eq_some_iff.mpr ⟨hname, hobject⟩⟩

instance : DecidablePred IsKept :=
  fun _ => decidable_of_iff _ isSome_exported?_iff

theorem mem_exported_iff : value ∈ exported objects ↔
    value.name ∈ NamedCounter.all ∧
      .counter value.name value.packets value.bytes ∈ objects := by
  unfold exported
  rw [List.mem_filterMap]
  constructor
  · rintro ⟨object, hobject, hvalue⟩
    obtain ⟨hname, rfl⟩ := exported?_eq_some_iff.mp hvalue
    exact ⟨hname, hobject⟩
  · rintro ⟨hname, hobject⟩
    exact ⟨_, hobject, exported?_eq_some_iff.mpr ⟨hname, rfl⟩⟩

theorem exported_append (first second : List NamedObject) :
    exported (first ++ second) = exported first ++ exported second :=
  List.filterMap_append

/-- Objects that the daemon does not keep are not exported. -/
theorem exported_filter (objects : List NamedObject) :
    exported (objects.filter fun object => IsKept object) = exported objects := by
  unfold exported
  induction objects with
  | nil => rfl
  | cons object objects ih =>
      rw [List.filter_cons]
      split
      · rw [List.filterMap_cons, List.filterMap_cons, ih]
      · rename_i hother
        have hnone : exported? object = none := by
          rw [← Option.not_isSome_iff_eq_none, isSome_exported?_iff]
          simpa using hother
        rw [List.filterMap_cons_none hnone, ih]

/-- Every object that the daemon keeps is exported. -/
theorem length_exported (objects : List NamedObject) :
    (exported objects).length = objects.countP fun object => IsKept object := by
  unfold exported
  rw [List.length_filterMap_eq_countP]
  apply List.countP_congr
  intro object _
  rw [isSome_exported?_iff, decide_eq_true_eq]

/-! ## Polls -/

theorem exportAll_append (telemetry : Telemetry) (first second : List NamedObject) :
    exportAll telemetry (first ++ second) = exportAll (exportAll telemetry first) second := by
  rw [exportAll, exported_append, List.foldl_append]
  rfl

/-- Polls export what was listed as one poll does that lists it all; failed ones add nothing. -/
theorem pollAll_eq (telemetry : Telemetry)
    (listings : List (Except GatewayError (List NamedObject))) :
    pollAll telemetry listings = exportAll telemetry (seen listings) := by
  induction listings generalizing telemetry with
  | nil => rfl
  | cons listed listings ih =>
      have hpoll : (poll telemetry listed).1 = exportAll telemetry (listedObjects listed) := by
        cases listed <;> rfl
      unfold seen at ih ⊢
      rw [List.flatMap_cons, exportAll_append, ← hpoll, ← ih]
      rfl

/-- Of the counters with one name the one that was exported last is left. -/
theorem filter_counters_pollAll (listings : List (Except GatewayError (List NamedObject)))
    (name : String) :
    (pollAll .initial listings).counters.filter (fun counter => counter.name = name) =
      ((exported (seen listings)).filter fun value => value.name = name).getLast?.toList := by
  rw [pollAll_eq]
  exact Telemetry.filter_foldl_setCounter rfl _ name

theorem mem_seen_iff : object ∈ seen listings ↔
    ∃ objects, .ok objects ∈ listings ∧ object ∈ objects := by
  unfold seen
  rw [List.mem_flatMap]
  constructor
  · rintro ⟨listed, hlisted, hobject⟩
    cases listed with
    | error cause => cases hobject
    | ok objects => exact ⟨objects, hlisted, hobject⟩
  · rintro ⟨objects, hlisted, hobject⟩
    exact ⟨.ok objects, hlisted, hobject⟩

/-- A counter has a value just if it is kept and was listed. -/
theorem exists_counter_pollAll_iff :
    (∃ counter ∈ (pollAll .initial listings).counters, counter.name = name) ↔
      name ∈ NamedCounter.all ∧ ∃ packets bytes, .counter name packets bytes ∈ seen listings := by
  have hlast := filter_counters_pollAll listings name
  constructor
  · rintro ⟨counter, hcounter, rfl⟩
    have hfound : counter ∈ (pollAll .initial listings).counters.filter
        (fun other => other.name = counter.name) := List.mem_filter.mpr ⟨hcounter, by simp⟩
    rw [hlast, Option.mem_toList] at hfound
    have hexported := (List.mem_filter.mp (List.mem_of_getLast? hfound)).1
    obtain ⟨hname, hobject⟩ := mem_exported_iff.mp hexported
    exact ⟨hname, counter.packets, counter.bytes, hobject⟩
  · rintro ⟨hname, packets, bytes, hobject⟩
    have hexported : (⟨name, packets, bytes⟩ : CounterValue) ∈ exported (seen listings) :=
      mem_exported_iff.mpr ⟨hname, hobject⟩
    have hfiltered : (exported (seen listings)).filter (fun value => value.name = name) ≠ [] :=
      List.ne_nil_of_mem (List.mem_filter.mpr ⟨hexported, decide_eq_true rfl⟩)
    rw [List.getLast?_eq_some_getLast hfiltered, Option.toList_some] at hlast
    have hfound := List.mem_filter.mp (hlast ▸ List.mem_singleton_self _)
    exact ⟨_, hfound.1, of_decide_eq_true hfound.2⟩

/-- The last counter of a name is what is left of that name. -/
theorem filter_counters_of_last {before after : List NamedObject} (hname : name ∈ NamedCounter.all)
    (hseen : seen listings = before ++ .counter name packets bytes :: after)
    (hlast : ∀ otherPackets otherBytes, .counter name otherPackets otherBytes ∉ after) :
    (pollAll .initial listings).counters.filter (fun counter => counter.name = name) =
      [⟨name, packets, bytes⟩] := by
  have hlater : (exported after).filter (fun value => value.name = name) = [] := by
    rw [List.filter_eq_nil_iff]
    intro value hvalue hother
    obtain rfl := of_decide_eq_true hother
    exact hlast _ _ (mem_exported_iff.mp hvalue).2
  have hexported : exported? (.counter name packets bytes) = some ⟨name, packets, bytes⟩ :=
    exported?_eq_some_iff.mpr ⟨hname, rfl⟩
  rw [filter_counters_pollAll, hseen, exported_append, List.filter_append]
  unfold exported at hlater ⊢
  rw [List.filterMap_cons_some hexported, List.filter_cons_of_pos (by simp), hlater,
    List.getLast?_concat]
  rfl

/-- In either gauge the series are those of the counters that were listed and kept. -/
theorem series_ne_nil_iff {gauge : String} {count : CounterValue → Nat}
    (h : Telemetry.IsGaugeOf gauge count) {label : Option (String × String)} :
    (pollAll .initial listings).series gauge label ≠ [] ↔
      ∃ name ∈ NamedCounter.all, label = counterLabel name ∧
        ∃ objects, .ok objects ∈ listings ∧
          ∃ packets bytes, .counter name packets bytes ∈ objects := by
  rw [h.series_ne_nil_iff]
  constructor
  · rintro ⟨counter, hcounter, rfl⟩
    obtain ⟨hname, packets, bytes, hseen⟩ := exists_counter_pollAll_iff.mp ⟨counter, hcounter, rfl⟩
    obtain ⟨objects, hlisted, hobject⟩ := mem_seen_iff.mp hseen
    exact ⟨counter.name, hname, rfl, objects, hlisted, packets, bytes, hobject⟩
  · rintro ⟨name, hname, rfl, objects, hlisted, packets, bytes, hobject⟩
    obtain ⟨counter, hcounter, rfl⟩ := exists_counter_pollAll_iff.mpr
      ⟨hname, packets, bytes, mem_seen_iff.mpr ⟨objects, hlisted, hobject⟩⟩
    exact ⟨counter, hcounter, rfl⟩

/--
After every sequence of polls, of which any may fail: a label has a series in the gauge of packets
just if it has one in the gauge of bytes, and just if it names a counter that the daemon keeps and
that was listed. Its two values are those of the last such counter: up to fifty-three bits they are
written as they were listed, and a longer count that fits in a machine word is shown as a
double-precision number that no other is nearer than. A poll counts the listed objects that the
daemon keeps, and does what it would do if nothing else had been listed; one that fails leaves the
telemetry as it was.
-/
theorem gauges_show_last_counters :
    (∀ listings : List (Except GatewayError (List NamedObject)),
      let telemetry := pollAll .initial listings
      (∀ label,
        (telemetry.series packetGauge label ≠ [] ↔ telemetry.series byteGauge label ≠ []) ∧
        (telemetry.series packetGauge label ≠ [] ↔
          ∃ name ∈ NamedCounter.all, label = counterLabel name ∧
            ∃ objects, .ok objects ∈ listings ∧
              ∃ packets bytes, .counter name packets bytes ∈ objects)) ∧
      ∀ earlier before name packets bytes after later, name ∈ NamedCounter.all →
        listings = earlier ++ .ok (before ++ .counter name packets bytes :: after) :: later →
        (∀ otherPackets otherBytes, .counter name otherPackets otherBytes ∉ after) →
        (∀ objects, .ok objects ∈ later →
          ∀ otherPackets otherBytes, .counter name otherPackets otherBytes ∉ objects) →
        telemetry.series packetGauge (counterLabel name) = [(Binary64.ofNat packets).text] ∧
          telemetry.series byteGauge (counterLabel name) = [(Binary64.ofNat bytes).text]) ∧
    (∀ count : Nat,
      (count ≤ 2 ^ 53 → (Binary64.ofNat count).text = Text.decimal count) ∧
      (count < 2 ^ 64 → (Binary64.ofNat count).IsNearest count)) ∧
    ∀ telemetry : Telemetry,
      (∀ objects,
        (poll telemetry (.ok objects)).2 = .ok (objects.countP fun object => IsKept object) ∧
        poll telemetry (.ok objects) =
          poll telemetry (.ok (objects.filter fun object => IsKept object))) ∧
      ∀ cause, poll telemetry (.error cause) = (telemetry, .error cause) := by
  refine ⟨?_, ?_, ?_⟩
  · intro listings telemetry
    have hpackets : Telemetry.IsGaugeOf packetGauge CounterValue.packets :=
      Telemetry.isGaugeOf_packetGauge
    have hbytes : Telemetry.IsGaugeOf byteGauge CounterValue.bytes :=
      Telemetry.isGaugeOf_byteGauge
    refine ⟨fun label => ⟨?_, series_ne_nil_iff hpackets⟩, ?_⟩
    · exact (series_ne_nil_iff hpackets).trans (series_ne_nil_iff hbytes).symm
    · intro earlier before name packets bytes after later hname hlistings hafter hlater
      have hseen : seen listings =
          (seen earlier ++ before) ++ .counter name packets bytes :: (after ++ seen later) := by
        rw [hlistings, seen, List.flatMap_append, List.flatMap_cons]
        simp [seen, listedObjects]
      have hlast : ∀ otherPackets otherBytes,
          .counter name otherPackets otherBytes ∉ after ++ seen later := by
        intro otherPackets otherBytes hother
        rcases List.mem_append.mp hother with hother | hother
        · exact hafter _ _ hother
        · obtain ⟨objects, hlisted, hobject⟩ := mem_seen_iff.mp hother
          exact hlater objects hlisted _ _ hobject
      have hkept := filter_counters_of_last hname hseen hlast
      refine ⟨?_, ?_⟩
      · rw [hpackets.series_counterLabel, hkept]
        rfl
      · rw [hbytes.series_counterLabel, hkept]
        rfl
  · intro count
    refine ⟨Binary64.text_ofNat, fun hcount => Binary64.isNearest_ofNat ?_⟩
    by_cases hzero : count = 0
    · rw [hzero]
      decide
    · have hbits : count.log2 < 64 := (Nat.log2_lt hzero).mpr hcount
      omega
  · intro telemetry
    refine ⟨fun objects => ⟨congrArg Except.ok (length_exported objects), ?_⟩, fun cause => rfl⟩
    unfold poll exportAll
    dsimp only
    rw [exported_filter]

/-- A count of fifty-four bits can be shown as another number than itself. -/
theorem long_count_is_rounded :
    let telemetry := pollAll .initial [.ok [.counter NamedCounter.dropped 9007199254740993 1]]
    telemetry.series packetGauge (counterLabel NamedCounter.dropped) =
        ["9007199254740992".toList] ∧
      telemetry.series packetGauge (counterLabel NamedCounter.dropped) ≠
        [Text.decimal 9007199254740993] ∧
      (Binary64.ofNat 9007199254740993).value? ≠ some 9007199254740993 := by
  intro telemetry
  have hkept : telemetry.counters.filter (fun counter => counter.name = NamedCounter.dropped) =
      [⟨NamedCounter.dropped, 9007199254740993, 1⟩] := by
    decide
  have hnumber : Binary64.ofNat 9007199254740993 = .finite false 4503599627370496 1 := by
    decide +kernel
  have htext : (Binary64.finite false 4503599627370496 1).text = "9007199254740992".toList := by
    decide +kernel
  have hshown : telemetry.series packetGauge (counterLabel NamedCounter.dropped) =
      ["9007199254740992".toList] := by
    rw [Telemetry.isGaugeOf_packetGauge.series_counterLabel, hkept, List.map_singleton, hnumber,
      htext]
  refine ⟨hshown, ?_, ?_⟩
  · rw [hshown]
    decide
  · rw [hnumber]
    norm_num [Binary64.value?]

/-- Listings with values that are replaced, other objects of the same name, and a failure. -/
def mixedListings : List (Except GatewayError (List NamedObject)) := [
  .ok [.counter NamedCounter.dropped 3 30, .other "quota" NamedCounter.dropped,
    .counter "ssh_in" 9 90, .counter NamedCounter.dropped 5 50],
  .error .listing,
  .ok [.counter NamedCounter.handled 1 2]]

theorem mixedListings_are_shown :
    let telemetry := pollAll .initial mixedListings
    telemetry.series packetGauge (counterLabel NamedCounter.dropped) = ["5".toList] ∧
      telemetry.series byteGauge (counterLabel NamedCounter.dropped) = ["50".toList] ∧
      telemetry.series byteGauge (counterLabel "ssh_in") = [] ∧
      (Binary64.ofNat (2 ^ 53 + 1)).IsNearest (2 ^ 53 + 1) := by
  intro telemetry
  obtain ⟨hruns, hcounts, -⟩ := gauges_show_last_counters
  obtain ⟨hseries, hlast⟩ := hruns mixedListings
  obtain ⟨hpackets, hbytes⟩ := hlast [] [.counter NamedCounter.dropped 3 30,
      .other "quota" NamedCounter.dropped, .counter "ssh_in" 9 90] NamedCounter.dropped 5 50 []
    [.error .listing, .ok [.counter NamedCounter.handled 1 2]] (by decide) rfl (by simp)
    (by simp [NamedCounter.handled, NamedCounter.dropped])
  refine ⟨?_, ?_, ?_, (hcounts _).2 (by decide)⟩
  · rw [hpackets, (hcounts 5).1 (by decide)]
    decide
  · rw [hbytes, (hcounts 50).1 (by decide)]
    decide
  · by_contra hshown
    obtain ⟨hsame, hkept⟩ := hseries (counterLabel "ssh_in")
    obtain ⟨name, hname, hlabel, -⟩ := hkept.mp (hsame.mpr hshown)
    obtain rfl : "ssh_in" = name := by simpa [counterLabel] using hlabel
    exact absurd hname (by decide)

end CounterPoller

end FlowFence
