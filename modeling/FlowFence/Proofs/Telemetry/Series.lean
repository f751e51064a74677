import FlowFence.Telemetry.Page
import Mathlib.Data.List.Induction

/-!
# Series of counters

What the telemetry page shows of a series. A counter has a series in each of two gauges as soon as a
value is set for its name, and each of them shows the value that was set last.
-/

namespace FlowFence

namespace Telemetry

variable {telemetry : Telemetry} {name : String} {value : CounterValue}
  {counters : List CounterValue}

def Family.valuesAt (label : Option (String × String)) (family : Family) : List (List Char) :=
  (family.samples.filter fun sample => sample.label = label).map Sample.value

def series (telemetry : Telemetry) (family : String) (label : Option (String × String)) :
    List (List Char) :=
  (telemetry.families.filter fun shown => shown.name = family).flatMap (Family.valuesAt label)

def packetGauge : String := "nftables_counter_packets"

def byteGauge : String := "nftables_counter_bytes"

def counterLabel (name : String) : Option (String × String) :=
  some ("name", name)

/-! ## Counters by name -/

def Ordered (counters : List CounterValue) : Prop :=
  counters.Pairwise fun first second => first.name < second.name

theorem mem_setValue {found : CounterValue} (h : found ∈ setValue value counters) :
    found = value ∨ found ∈ counters := by
  induction counters with
  | nil => simpa [setValue] using h
  | cons old others ih =>
      unfold setValue at h
      split at h
      · simpa using h
      split at h
      · rcases List.mem_cons.mp h with rfl | hothers
        · exact .inl rfl
        · exact .inr (List.mem_cons_of_mem old hothers)
      · rcases List.mem_cons.mp h with rfl | hrest
        · exact .inr List.mem_cons_self
        · exact (ih hrest).imp_right (List.mem_cons_of_mem old)

/-- Values that are set stay ordered by name. -/
theorem Ordered.setValue (h : Ordered counters) (value : CounterValue) :
    Ordered (setValue value counters) := by
  induction counters with
  | nil => exact List.pairwise_singleton _ _
  | cons old others ih =>
      obtain ⟨hfirst, hothers⟩ := List.pairwise_cons.mp h
      unfold Telemetry.setValue
      split
      · rename_i hbefore
        refine List.pairwise_cons.mpr ⟨fun found hfound => ?_, h⟩
        rcases List.mem_cons.mp hfound with rfl | hlater
        · exact hbefore
        · exact String.lt_trans hbefore (hfirst found hlater)
      split
      · rename_i hsame
        exact List.pairwise_cons.mpr ⟨fun found hfound => hsame ▸ hfirst found hfound, hothers⟩
      · rename_i hnotBefore hother
        have hafter : old.name < value.name := by
          rw [← String.not_le]
          exact fun hle => hother (String.le_antisymm (String.not_lt.mp hnotBefore) hle).symm
        refine List.pairwise_cons.mpr ⟨fun found hfound => ?_, ih hothers⟩
        rcases mem_setValue hfound with rfl | hlater
        · exact hafter
        · exact hfirst found hlater

theorem filter_eq_nil_of_lt (h : ∀ found ∈ counters, name < found.name) :
    counters.filter (fun counter => counter.name = name) = [] := by
  rw [List.filter_eq_nil_iff]
  intro found hfound hname
  rw [decide_eq_true_eq] at hname
  exact String.lt_irrefl _ (hname ▸ h found hfound)

/-- A value that is set is the only one of its name, and those of other names are left. -/
theorem filter_setValue (h : Ordered counters) (value : CounterValue) (name : String) :
    (setValue value counters).filter (fun counter => counter.name = name) =
      if value.name = name then [value]
      else counters.filter (fun counter => counter.name = name) := by
  induction counters with
  | nil => by_cases hname : value.name = name <;> simp [setValue, hname]
  | cons old others ih =>
      obtain ⟨hfirst, hothers⟩ := List.pairwise_cons.mp h
      unfold setValue
      split
      · rename_i hbefore
        have hlater : ∀ found ∈ old :: others, value.name < found.name := by
          intro found hfound
          rcases List.mem_cons.mp hfound with rfl | hfound
          · exact hbefore
          · exact String.lt_trans hbefore (hfirst found hfound)
        by_cases hname : value.name = name
        · subst hname
          rw [List.filter_cons_of_pos (by simp), filter_eq_nil_of_lt hlater, if_pos rfl]
        · rw [List.filter_cons_of_neg (by simpa using hname), if_neg hname]
      split
      · rename_i hsame
        by_cases hname : value.name = name
        · subst hname
          rw [List.filter_cons_of_pos (by simp), filter_eq_nil_of_lt fun found hfound =>
            hsame ▸ hfirst found hfound, if_pos rfl]
        · rw [List.filter_cons_of_neg (by simpa using hname), if_neg hname,
            List.filter_cons_of_neg (by simpa [← hsame] using hname)]
      · rename_i hother
        by_cases hname : value.name = name
        · subst hname
          rw [List.filter_cons_of_neg (by simpa using Ne.symm hother), ih hothers, if_pos rfl,
            if_pos rfl]
        · rw [List.filter_cons, ih hothers, if_neg hname, if_neg hname, List.filter_cons]

theorem ordered_foldl_setCounter (h : Ordered telemetry.counters) (values : List CounterValue) :
    Ordered (values.foldl setCounter telemetry).counters := by
  induction values generalizing telemetry with
  | nil => exact h
  | cons value values ih => exact ih (h.setValue value)

/-- Of values that are set one after the other the last one of a name is left. -/
theorem filter_foldl_setCounter (h : telemetry.counters = []) (values : List CounterValue)
    (name : String) :
    (values.foldl setCounter telemetry).counters.filter (fun counter => counter.name = name) =
      (values.filter fun value => value.name = name).getLast?.toList := by
  have hordered : Ordered telemetry.counters := by
    rw [h]
    exact List.Pairwise.nil
  induction values using List.reverseRecOn with
  | nil =>
      rw [List.foldl_nil, h]
      rfl
  | append_singleton values last ih =>
      rw [List.foldl_append, List.foldl_cons, List.foldl_nil, List.filter_append]
      change (setValue last _).filter _ = _
      rw [filter_setValue (ordered_foldl_setCounter hordered values), ih]
      by_cases hname : last.name = name
      · rw [if_pos hname, List.filter_cons_of_pos (by simpa using hname), List.filter_nil,
          List.getLast?_concat]
        rfl
      · rw [if_neg hname, List.filter_cons_of_neg (by simpa using hname), List.filter_nil,
          List.append_nil]

/-! ## The page -/

/-- A family that is left out has no values. -/
theorem flatMap_valuesAt_filter (label : Option (String × String)) (families : List Family) :
    (families.filter fun family => !family.samples.isEmpty).flatMap (Family.valuesAt label) =
      families.flatMap (Family.valuesAt label) := by
  induction families with
  | nil => rfl
  | cons family families ih =>
      rw [List.filter_cons]
      split
      · rw [List.flatMap_cons, List.flatMap_cons, ih]
      · rename_i hempty
        have hsamples : family.samples = [] := by simpa using hempty
        rw [List.flatMap_cons, ih, Family.valuesAt, hsamples]
        rfl

/-- Whether a family is left out or not, its series are those of its samples. -/
theorem series_eq (telemetry : Telemetry) (family : String) (label : Option (String × String)) :
    telemetry.series family label =
      (telemetry.allFamilies.filter fun shown => shown.name = family).flatMap
        (Family.valuesAt label) := by
  unfold series families
  refine Eq.trans ?_ (flatMap_valuesAt_filter label _)
  rw [List.filter_filter, List.filter_filter]
  exact congrArg _ (List.filter_congr fun _ _ => Bool.and_comm _ _)

def IsGaugeOf (family : String) (count : CounterValue → Nat) : Prop :=
  ∀ telemetry : Telemetry, ∃ help,
    (telemetry.allFamilies.filter fun shown => shown.name = family) =
      [⟨family, help, .gauge, telemetry.counterSamples count⟩]

theorem isGaugeOf_packetGauge : IsGaugeOf packetGauge CounterValue.packets := by
  intro telemetry
  refine ⟨"Packets seen by a named nftables counter", ?_⟩
  simp [allFamilies, packetGauge]

theorem isGaugeOf_byteGauge : IsGaugeOf byteGauge CounterValue.bytes := by
  intro telemetry
  refine ⟨"Bytes seen by a named nftables counter", ?_⟩
  simp [allFamilies, byteGauge]

namespace IsGaugeOf

variable {family : String} {count : CounterValue → Nat}

/-- The series of a gauge with a label shows the counters whose name the label is made of. -/
theorem series_eq_map (h : IsGaugeOf family count) (telemetry : Telemetry)
    (label : Option (String × String)) :
    telemetry.series family label =
      (telemetry.counters.filter fun counter => counterLabel counter.name = label).map
        fun counter => (Binary64.ofNat (count counter)).text := by
  obtain ⟨help, hfamily⟩ := h telemetry
  rw [series_eq, hfamily, List.flatMap_singleton, Family.valuesAt, counterSamples, List.filter_map,
    List.map_map]
  rfl

theorem series_ne_nil_iff (h : IsGaugeOf family count) {label : Option (String × String)} :
    telemetry.series family label ≠ [] ↔
      ∃ counter ∈ telemetry.counters, counterLabel counter.name = label := by
  rw [h.series_eq_map, Ne, List.map_eq_nil_iff, List.filter_eq_nil_iff]
  simp

theorem series_counterLabel (h : IsGaugeOf family count) (telemetry : Telemetry) (name : String) :
    telemetry.series family (counterLabel name) =
      (telemetry.counters.filter fun counter => counter.name = name).map
        fun counter => (Binary64.ofNat (count counter)).text := by
  rw [h.series_eq_map]
  simp [counterLabel]

end IsGaugeOf

end Telemetry

end FlowFence
