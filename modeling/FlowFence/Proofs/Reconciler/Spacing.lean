import FlowFence.Proofs.Reconciler.Runs

/-!
# The spacing of ticks

However long queries, listings and commits take, the ticks of a run do not overlap, and their
queries are an interval apart but for the tolerance of the schedule. If only queries take time, each
of them starts at its multiple of the interval, since none goes on for longer than that.
-/

namespace FlowFence

namespace Reconciler

variable {plan : Plan} {position : Position}

/-! ## Two ticks -/

/-- A due time follows the start of the tick before by the interval but for the tolerance. -/
theorem start_add_interval_le_nextDue {interval due start : Nat} :
    start + interval ≤ nextDue interval due start + tolerance := by
  unfold nextDue
  split <;> omega

theorem finish_le_start_next (plan : Plan) (position : Position) :
    (position.record plan).finish ≤ (position.next plan).start :=
  Nat.le_max_left _ _

theorem start_add_interval_le_start_next (plan : Plan) (position : Position) :
    (position.record plan).start + plan.interval ≤ (position.next plan).start + tolerance := by
  have hdue : (position.next plan).due ≤ (position.next plan).start := Nat.le_max_right _ _
  have hdistance : (position.record plan).start + plan.interval ≤
      (position.next plan).due + tolerance := start_add_interval_le_nextDue
  omega

/-- What lies between two ticks of a run that follow each other. -/
theorem spacing_of_getElem? {fuel i : Nat} {earlier later : Record}
    (hearlier : (runFrom plan fuel position).records[i]? = some earlier)
    (hlater : (runFrom plan fuel position).records[i + 1]? = some later) :
    earlier.finish ≤ later.start ∧ earlier.start + plan.interval ≤ later.start + tolerance := by
  have hnext := eq_record_of_getElem? hlater
  rw [Function.iterate_succ_apply'] at hnext
  have hstart : later.start =
      (((Position.next plan)^[i] position).next plan).start := congrArg Record.start hnext
  rw [hstart, eq_record_of_getElem? hearlier]
  exact ⟨finish_le_start_next plan _, start_add_interval_le_start_next plan _⟩

/-! ## Ticks on schedule -/

/-- Whether the next tick is due at its multiple of the interval and nothing keeps it. -/
structure Position.OnSchedule (plan : Plan) (position : Position) : Prop where
  due : position.due = position.index * plan.interval
  now : position.now ≤ position.due

theorem Position.OnSchedule.start (h : position.OnSchedule plan) :
    position.start = position.index * plan.interval := by
  have hnow := h.now
  have hdue := h.due
  rw [Ticker.start]
  omega

/-- A tick that spends time on its query only has ended by the time the next one is due. -/
theorem Position.OnSchedule.next (h : position.OnSchedule plan)
    (hlist : (plan.circumstances position.index).listTime = 0)
    (hcommit : (plan.circumstances position.index).commitTime = 0) :
    (position.next plan).OnSchedule plan := by
  have hkeeps := position.record_keepsTime plan
  have hstart : (position.record plan).start = position.due := by
    have hstart := h.start
    rwa [← h.due] at hstart
  have hfetched : (position.record plan).fetched ≤ position.due + plan.interval :=
    hstart ▸ fetch_le_add_interval
  have hlisted : (position.record plan).listed = (position.record plan).fetched := by
    have hasked := hkeeps.listed_le
    have hbegin := hkeeps.fetched_le_listed
    omega
  have hfinish : (position.record plan).finish = (position.record plan).listed := by
    cases hattempted : (position.record plan).tick.attempted with
    | none => exact hkeeps.idle hattempted
    | some batch =>
        have hended := (hkeeps.commit (by simp [hattempted])).2
        omega
  have hdue : (position.next plan).due = position.due + plan.interval := by
    show nextDue plan.interval position.due (position.record plan).start = _
    rw [hstart, nextDue, if_neg (by omega)]
  refine ⟨?_, ?_⟩
  · rw [hdue, h.due]
    exact (Nat.succ_mul _ _).symm
  · rw [hdue]
    show (position.record plan).finish ≤ _
    omega

theorem Position.OnSchedule.iterate (h : position.OnSchedule plan)
    (htimes : ∀ i, (plan.circumstances i).listTime = 0 ∧ (plan.circumstances i).commitTime = 0)
    (i : Nat) : ((Position.next plan)^[i] position).OnSchedule plan := by
  induction i with
  | zero => exact h
  | succ i ih =>
      rw [Function.iterate_succ_apply']
      exact ih.next (htimes _).1 (htimes _).2

theorem start_of_getElem? (h : position.OnSchedule plan)
    (htimes : ∀ i, (plan.circumstances i).listTime = 0 ∧ (plan.circumstances i).commitTime = 0)
    {fuel i : Nat} {record : Record}
    (hrecord : (runFrom plan fuel position).records[i]? = some record) :
    record.start = (position.index + i) * plan.interval := by
  have hstart := (h.iterate htimes i).start
  rw [index_iterate_next] at hstart
  rw [eq_record_of_getElem? hrecord]
  exact hstart

/-! ## Runs that go on -/

/-- A run goes on as long as nobody stops it and its rule sets can be put in place. -/
theorem length_records (hcancel : plan.cancelAt = none)
    (hcommit : ∀ i, (plan.circumstances i).commitFailure = none)
    (hreply : ∀ i, (plan.circumstances i).reply ≠ .error .cancelled) (fuel : Nat) :
    (runFrom plan fuel position).records.length = fuel := by
  induction fuel generalizing position with
  | zero => rfl
  | succ fuel ih =>
      have hkeeps := position.record_keepsTime plan
      have hadvance := advance_runFrom plan fuel position
      generalize runFrom plan (fuel + 1) position = run at hadvance
      cases hadvance with
      | stopped stops => simp [stopsBefore, hcancel] at stops
      | failed cause starts result =>
          have hrefused := ((position.exit_record plan).cause_of_failed result).2
          cases (hcommit position.index).symm.trans hrefused
      | cancelled starts result =>
          rcases (hkeeps.cancelled result).2 with hquery | hstopped
          · exact (hreply _ hquery).elim
          · simp [cancelledBy, hcancel] at hstopped
      | continued outcome rest starts result goesOn hrest =>
          subst hrest
          exact congrArg (· + 1) ih

/--
However long the queries, listings and commits of a run take and however they end. No tick starts
before the one before it has ended, the queries of two ticks that follow each other start at least
an interval less five milliseconds apart, and none goes on for longer than an interval. If listings
and commits take no time, the query of every number starts at just that multiple of the interval. A
run that is not told to stop, and whose rule sets can be put in place, has one tick after another.
-/
theorem ticks_keep_their_distance (plan : Plan) (world : World) (fuel : Nat) :
    let run := run plan fuel world
    (∀ i earlier later, run.records[i]? = some earlier → run.records[i + 1]? = some later →
      earlier.finish ≤ later.start ∧ earlier.start + plan.interval ≤ later.start + 5) ∧
    (∀ record ∈ run.records, record.fetched ≤ record.start + plan.interval) ∧
    ((∀ i, (plan.circumstances i).listTime = 0 ∧ (plan.circumstances i).commitTime = 0) →
      ∀ k start, run.fetches[k]? = some start → start = k * plan.interval) ∧
    (plan.cancelAt = none → (∀ i, (plan.circumstances i).commitFailure = none) →
      (∀ i, (plan.circumstances i).reply ≠ .error .cancelled) → run.fetches.length = fuel) := by
  intro run
  refine ⟨?_, ?_, ?_, ?_⟩
  · intro i earlier later hearlier hlater
    exact spacing_of_getElem? hearlier hlater
  · intro record hrecord
    obtain ⟨i, hi⟩ := List.getElem?_of_mem hrecord
    rw [eq_record_of_getElem? hi]
    exact fetch_le_add_interval
  · intro htimes k start hstart
    have honSchedule : Position.OnSchedule plan ⟨.initial, world⟩ :=
      ⟨(Nat.zero_mul _).symm, Nat.le_refl 0⟩
    rw [Run.fetches, List.getElem?_map, Option.map_eq_some_iff] at hstart
    obtain ⟨record, hrecord, rfl⟩ := hstart
    rw [start_of_getElem? honSchedule htimes hrecord]
    exact congrArg (· * plan.interval) (Nat.zero_add k)
  · intro hcancel hcommit hreply
    rw [Run.fetches, List.length_map]
    exact length_records hcancel hcommit hreply fuel

/-- A run whose queries take longer and longer, and the first commit of which takes its time. -/
def laggingPlan (commitTime : Nat) : Plan where
  setup := ⟨⟨"filter", "flowspec"⟩, false⟩
  interval := 1000
  cancelAt := none
  circumstances i := {
    reply := .ok []
    fetchTime := 100 + 450 * i
    listFailure := none
    listTime := 0
    commitFailure := none
    commitTime := if i = 0 then commitTime else 0
    startsAnyway := true
    fetchesAnyway := true }

theorem laggingPlan_fetches :
    (run (laggingPlan 904) 3 .initial).fetches = [0, 1004, 2000] := by
  decide +kernel

/-- A tick that is four milliseconds late leaves the schedule, and so the next tick, in its place. -/
theorem laggingPlan_keeps_its_distance :
    (run (laggingPlan 904) 3 .initial).fetches = [0, 1004, 2000] ∧
      (∀ i earlier later, (run (laggingPlan 904) 3 .initial).records[i]? = some earlier →
        (run (laggingPlan 904) 3 .initial).records[i + 1]? = some later →
          earlier.finish ≤ later.start ∧ earlier.start + 1000 ≤ later.start + 5) ∧
      (∀ k start, (run (laggingPlan 0) 7 .initial).fetches[k]? = some start → start = k * 1000) ∧
      (run (laggingPlan 0) 7 .initial).fetches.length = 7 := by
  obtain ⟨hspacing, -, -, -⟩ := ticks_keep_their_distance (laggingPlan 904) .initial 3
  obtain ⟨-, -, hpunctual, hlength⟩ := ticks_keep_their_distance (laggingPlan 0) .initial 7
  have htimes (i : Nat) : ((laggingPlan 0).circumstances i).listTime = 0 ∧
      ((laggingPlan 0).circumstances i).commitTime = 0 := ⟨rfl, ite_self 0⟩
  have hreply (i : Nat) : ((laggingPlan 0).circumstances i).reply ≠ .error .cancelled :=
    fun h => nomatch h
  exact ⟨laggingPlan_fetches, hspacing, hpunctual htimes, hlength rfl (fun _ => rfl) hreply⟩

end Reconciler

end FlowFence
