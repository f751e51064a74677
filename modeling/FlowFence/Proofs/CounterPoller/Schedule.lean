import FlowFence.Proofs.CounterPoller.Gauges

/-!
# The schedule of the counter poller

Each due time follows the one before by the interval, so a poll is due at its multiple of that; it
starts then, or as soon as the one before has ended. What the listings return has no part in that, so
a failed one is followed by the next poll like any other, and a late poll delays the next ones only
until their due times have caught up.
-/

namespace FlowFence

namespace CounterPoller

variable {plan : Plan} {position : Position} {fuel k : Nat}

/-- When a poll starts, as long as the daemon is not told to stop. -/
def startAt (plan : Plan) : Nat → Nat
  | 0 => 0
  | k + 1 => max ((k + 1) * plan.interval) (startAt plan k + (plan.circumstances k).listTime)

def idleFrom (plan : Plan) : Nat → Nat
  | 0 => 0
  | k + 1 => startAt plan k + (plan.circumstances k).listTime

def listingsFrom (plan : Plan) (index count : Nat) : List (Except GatewayError (List NamedObject)) :=
  (List.range' index count).map fun k => (plan.circumstances k).listed

theorem startAt_eq_max (plan : Plan) (k : Nat) :
    startAt plan k = max (idleFrom plan k) (k * plan.interval) := by
  cases k with
  | zero => rw [startAt, idleFrom, Nat.zero_mul, Nat.max_self]
  | succ k => rw [startAt, idleFrom, Nat.max_comm]

theorem finish_le_startAt_succ (plan : Plan) (k : Nat) :
    startAt plan k + (plan.circumstances k).listTime ≤ startAt plan (k + 1) :=
  Nat.le_max_right _ _

theorem startAt_mono (plan : Plan) {earlier later : Nat} (h : earlier ≤ later) :
    startAt plan earlier ≤ startAt plan later := by
  induction h with
  | refl => exact Nat.le_refl _
  | step _ ih => exact ih.trans ((Nat.le_add_right _ _).trans (finish_le_startAt_succ plan _))

/-! ## Positions -/

/-- Whether the next poll is due at its multiple of the interval and the one before has ended. -/
structure Position.OnSchedule (plan : Plan) (position : Position) : Prop where
  due : position.due = position.index * plan.interval
  now : position.now = idleFrom plan position.index

namespace Position.OnSchedule

theorem initial (plan : Plan) (telemetry : Telemetry) :
    Position.OnSchedule plan ⟨.initial, telemetry⟩ :=
  ⟨(Nat.zero_mul _).symm, rfl⟩

theorem start (h : position.OnSchedule plan) : position.start = startAt plan position.index := by
  rw [Ticker.start, h.due, h.now, startAt_eq_max]

/-- A due time that is moved by the interval stays a multiple of it. -/
theorem next (h : position.OnSchedule plan) : (position.next plan).OnSchedule plan := by
  have hdue : position.due + plan.interval = (position.index + 1) * plan.interval := by
    rw [h.due, Nat.succ_mul]
  have hfinish : position.start + (plan.circumstances position.index).listTime =
      idleFrom plan (position.index + 1) := by
    rw [h.start, idleFrom]
  exact ⟨hdue, hfinish⟩

end Position.OnSchedule

/-! ## Runs -/

/--
A run has some of the polls that it may have, one after the other on schedule, and leaves the
telemetry of just these polls. If it has fewer than it may have, it was told to stop by the time at
which the next one would have started.
-/
structure Run.Follows (run : Run) (plan : Plan) (position : Position) (fuel : Nat) : Prop where
  le_fuel : run.polls.length ≤ fuel
  polls : run.polls = (List.range' position.index run.polls.length).map (startAt plan)
  telemetry : run.telemetry =
    pollAll position.telemetry (listingsFrom plan position.index run.polls.length)
  stopped : run.polls.length < fuel →
    ∃ cancel, plan.cancelAt = some cancel ∧
      cancel ≤ startAt plan (position.index + run.polls.length)

theorem Run.Follows.cons {rest : Run} (h : rest.Follows plan (position.next plan) fuel) :
    Run.Follows { rest with polls := startAt plan position.index :: rest.polls } plan position
      (fuel + 1) := by
  refine ⟨Nat.succ_le_succ h.le_fuel, ?_, h.telemetry, ?_⟩
  · exact congrArg (startAt plan position.index :: ·) h.polls
  · intro hfewer
    obtain ⟨cancel, hcancel, hstopped⟩ := h.stopped (Nat.lt_of_succ_lt_succ hfewer)
    refine ⟨cancel, hcancel, hstopped.trans (Nat.le_of_eq (congrArg (startAt plan) ?_))⟩
    exact (Nat.add_assoc position.index 1 _).trans (congrArg _ (Nat.add_comm 1 _))

theorem follows_runFrom (h : position.OnSchedule plan) (fuel : Nat) :
    (runFrom plan fuel position).Follows plan position fuel := by
  induction fuel generalizing position with
  | zero => exact ⟨Nat.le_refl 0, rfl, rfl, fun h => (Nat.lt_irrefl 0 h).elim⟩
  | succ fuel ih =>
      rw [runFrom]
      cases hstops : stopsBefore plan position with
      | true =>
          rw [if_pos rfl]
          have hstopped := Ticker.cancel_le_start hstops
          rw [h.start] at hstopped
          exact ⟨Nat.zero_le _, rfl, rfl, fun _ => hstopped⟩
      | false =>
          rw [if_neg Bool.false_ne_true, h.start]
          exact (ih h.next).cons

namespace Run.Follows

variable {run : Run}

theorem getElem?_eq (h : run.Follows plan position fuel) (hk : k < run.polls.length) :
    run.polls[k]? = some (startAt plan (position.index + k)) := by
  rw [h.polls, List.getElem?_map, List.getElem?_range' hk, Nat.one_mul]
  rfl

theorem eq_startAt (h : run.Follows plan position fuel) {start : Nat}
    (hk : run.polls[k]? = some start) : start = startAt plan (position.index + k) := by
  have hstart := h.getElem?_eq (List.getElem?_eq_some_iff.mp hk).choose
  exact Option.some.inj (hk.symm.trans hstart)

/-- A poll that would start before the daemon is told to stop does start. -/
theorem length_gt (h : run.Follows plan position fuel) (hk : k < fuel)
    (hcancel : ∀ cancel, plan.cancelAt = some cancel →
      startAt plan (position.index + k) < cancel) : k < run.polls.length := by
  by_contra hmissing
  have hfewer := Nat.not_lt.mp hmissing
  obtain ⟨cancel, htold, hstopped⟩ := h.stopped (Nat.lt_of_le_of_lt hfewer hk)
  have hlater := startAt_mono plan (Nat.add_le_add_left hfewer position.index)
  exact Nat.lt_irrefl _ (Nat.lt_of_lt_of_le (hcancel cancel htold) (hstopped.trans hlater))

end Run.Follows

/-! ## What is listed -/

def Plan.withListings (plan : Plan) (listed : Nat → Except GatewayError (List NamedObject)) : Plan :=
  { plan with circumstances := fun k => { plan.circumstances k with listed := listed k } }

/-- Neither the starts of polls nor the end of a run depend on what is listed. -/
theorem times_withListings (plan : Plan) (listed : Nat → Except GatewayError (List NamedObject))
    (fuel : Nat) (ticker : Ticker) (telemetry other : Telemetry) :
    (runFrom (plan.withListings listed) fuel ⟨ticker, telemetry⟩).polls =
        (runFrom plan fuel ⟨ticker, other⟩).polls ∧
      (runFrom (plan.withListings listed) fuel ⟨ticker, telemetry⟩).endedAt =
        (runFrom plan fuel ⟨ticker, other⟩).endedAt := by
  induction fuel generalizing ticker telemetry other with
  | zero => exact ⟨rfl, rfl⟩
  | succ fuel ih =>
      have hstops : stopsBefore (plan.withListings listed) ⟨ticker, telemetry⟩ =
          stopsBefore plan ⟨ticker, other⟩ := rfl
      unfold runFrom
      rw [hstops]
      split
      · exact ⟨rfl, rfl⟩
      · obtain ⟨hpolls, hended⟩ := ih (Position.next plan ⟨ticker, other⟩).toTicker
          (poll telemetry (listed ticker.index)).1
          (poll other (plan.circumstances ticker.index).listed).1
        exact ⟨congrArg (ticker.start :: ·) hpolls, hended⟩

/--
However long the listings take and whichever of them fail: as long as the daemon is not told to stop
before, each poll starts at its multiple of the interval or when the poll before has ended, whichever
is later, and no poll starts at another time. So no poll overlaps the next one. Other answers to the
listings change neither a start nor the end of the run, and the telemetry that a run leaves is that of
its polls made one after the other.
-/
theorem polls_keep_the_schedule (plan : Plan) (fuel : Nat) (telemetry : Telemetry) :
    let run := run plan fuel telemetry
    (∀ k < fuel, (∀ cancel, plan.cancelAt = some cancel → startAt plan k < cancel) →
      run.polls[k]? = some (startAt plan k)) ∧
    (∀ start, run.polls[0]? = some start → start = 0) ∧
    (∀ k start next, run.polls[k]? = some start → run.polls[k + 1]? = some next →
      let finish := start + (plan.circumstances k).listTime
      next = max ((k + 1) * plan.interval) finish ∧ finish ≤ next) ∧
    (∀ listed, let other := CounterPoller.run (plan.withListings listed) fuel telemetry
      other.polls = run.polls ∧ other.endedAt = run.endedAt) ∧
    run.telemetry = pollAll telemetry
      ((List.range run.polls.length).map fun k => (plan.circumstances k).listed) := by
  intro run
  have hfollows : run.Follows plan ⟨.initial, telemetry⟩ fuel :=
    follows_runFrom (.initial plan telemetry) fuel
  have hzero (k : Nat) : Ticker.initial.index + k = k := Nat.zero_add k
  have hstart {k start : Nat} (h : run.polls[k]? = some start) : start = startAt plan k := by
    have heq := hfollows.eq_startAt h
    rwa [hzero] at heq
  refine ⟨?_, ?_, ?_, ?_, ?_⟩
  · intro k hk hcancel
    rw [← hzero k] at hcancel
    rw [hfollows.getElem?_eq (hfollows.length_gt hk hcancel), hzero]
  · intro start h
    exact hstart h
  · intro k start next h hnext finish
    obtain rfl := hstart h
    obtain rfl := hstart hnext
    exact ⟨rfl, finish_le_startAt_succ plan k⟩
  · intro listed
    exact times_withListings plan listed fuel .initial telemetry telemetry
  · rw [List.range_eq_range']
    exact hfollows.telemetry

/-- A slow listing, a failed one and quick ones, with a word to stop between two polls. -/
def overrunPlan : Plan where
  interval := 1000
  cancelAt := some 4500
  circumstances k := {
    listed := if k = 1 then .error .listing else .ok [.counter NamedCounter.handled k k]
    listTime := if k = 0 then 2500 else 100
    startsAnyway := false }

theorem overrunPlan_catches_up :
    let finished := run overrunPlan 7 .initial
    finished.polls = [0, 2500, 2600, 3000, 4000] ∧ startAt overrunPlan 4 < 4500 ∧
      finished.polls[4]? = some (startAt overrunPlan 4) ∧
      3000 = max (3 * 1000) (2600 + 100) ∧
      finished.telemetry = pollAll .initial
        ((List.range 5).map fun k => (overrunPlan.circumstances k).listed) := by
  intro finished
  obtain ⟨hstarts, -, hnext, -, htelemetry⟩ := polls_keep_the_schedule overrunPlan 7 .initial
  have hpolls : finished.polls = [0, 2500, 2600, 3000, 4000] := by decide +kernel
  have hfourth : startAt overrunPlan 4 < 4500 := by decide
  refine ⟨hpolls, hfourth, hstarts 4 (by decide) ?_, ?_, ?_⟩
  · intro cancel hcancel
    obtain rfl : 4500 = cancel := Option.some.inj hcancel
    exact hfourth
  · exact (hnext 2 2600 3000 (by rw [hpolls]; rfl) (by rw [hpolls]; rfl)).1
  · rwa [hpolls] at htelemetry

end CounterPoller

end FlowFence
