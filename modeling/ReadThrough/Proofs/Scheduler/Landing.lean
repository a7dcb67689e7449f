import ReadThrough.Proofs.Scheduler.Boarding
import ReadThrough.Proofs.Scheduler.SingleFlight

/-!
# How a flight lands

A flight lands in the turn of a task that leads it, and only there.  Its outcome
is what the task finds in the store in that turn, or what its fetch gives in
that turn: `landing_of_after`.  No outcome is older than the turn.
-/

namespace ReadThrough

/-- What the leader of a flight gets from a cache: what it finds when it looks
again, or else what its fetch gives. -/
inductive Cache.Yields {Value : Type} [Keyed Value]
    (settings : Settings) (call : SingleCall Value) (cache : Cache Value)
    (outcome : Except Failure Value) : Prop
  | found {lookup : Lookup Value}
      (looked : result? (peek call.name) cache = some lookup)
      (given : lookup.outcome? call.name = some outcome)
  | fetched
      (absent : result? (peek call.name) cache = some .absent)
      (concluded : result?
        (concludeFlight settings call.storing call.name call.plan)
        (final (peek call.name) cache) = some outcome)

namespace Scheduler

variable {Value : Type} [Keyed Value] (settings : Settings)
  {scheduler : Scheduler Value} {reported : List FetchCall}
  {task : TaskId} {flight : FlightId} {joined changed : Flight Value}
  {call : SingleCall Value} {outcome : Except Failure Value}

section Lead

variable (there : (scheduler.crew reported).flights[flight]? = some joined)

include there

omit [Keyed Value] in
/-- A flight that its leader has left has not landed. -/
theorem not_landed_of_leave {next : Scheduler Value}
    {verdict : Verdict Value} (unlanded : joined.outcome = none)
    (left : next.crew reported =
      (scheduler.crew reported).leave task flight joined verdict)
    (changedThere : next.flights[flight]? = some changed) :
    changed.outcome = none := by
  have seated :=
    Crew.getElem?_setIfInBounds_self_of_found there joined.handedOver
  have same : (next.crew reported).flights[flight]? =
      some joined.handedOver := by
    rw [left]
    exact seated
  cases changedThere.symm.trans same
  exact unlanded

omit [Keyed Value] in
theorem outcome_of_land {next : Scheduler Value}
    {given : Except Failure Value}
    (landing : next.crew reported =
      (scheduler.crew reported).land task flight joined given)
    (changedThere : next.flights[flight]? = some changed) :
    changed.outcome = some given := by
  have seated :=
    Crew.getElem?_setIfInBounds_self_of_found there (joined.landedWith given)
  have same : (next.crew reported).flights[flight]? =
      some (joined.landedWith given) := by
    rw [landing]
    exact seated
  cases changedThere.symm.trans same
  rfl

variable
  (listed : (scheduler.crew reported).inFlight[joined.name]? = some flight)
  (sameName : joined.name = call.name)
  (leads : joined.leader = some task) (unlanded : joined.outcome = none)
  (landed : changed.outcome = some outcome)

include listed sameName leads unlanded landed

variable (scheduler reported) in
theorem concluded_of_lands
    (changedThere : (conclude settings scheduler task
      (.complete flight call)).flights[flight]? = some changed) :
    Cache.result? (Cache.concludeFlight settings call.storing call.name
      call.plan) scheduler.cache = some outcome := by
  cases concluded : Cache.result? (Cache.concludeFlight settings
      call.storing call.name call.plan) scheduler.cache with
  | none =>
      obtain ⟨fault, next, attempted, _⟩ := attempt_of_fault concluded
      rw [conclude, attempted] at changedThere
      rw [crew_of_attempt attempted] at there
      have left := crew_leaveFlight there leads (.broken fault)
      have open' := not_landed_of_leave there unlanded left changedThere
      cases open'.symm.trans landed
  | some given =>
      obtain ⟨next, attempted, _⟩ := attempt_of_result? concluded
      rw [conclude, attempted] at changedThere
      rw [crew_of_attempt attempted] at there listed
      have landing : (next.land task flight joined.name given).crew reported =
          _ := crew_land there listed given
      rw [sameName] at landing
      have same := outcome_of_land there landing changedThere
      exact same.symm.trans landed

variable (scheduler reported) in
theorem yields_of_lands
    (changedThere :
      (lead settings scheduler task flight call).flights[flight]? =
        some changed) :
    Cache.Yields settings call scheduler.cache outcome := by
  cases looked : Cache.result? (Cache.peek call.name) scheduler.cache with
  | none =>
      obtain ⟨fault, next, attempted, _⟩ := attempt_of_fault looked
      rw [lead, attempted] at changedThere
      rw [crew_of_attempt attempted] at there
      have left := crew_leaveFlight there leads (.broken fault)
      have open' := not_landed_of_leave there unlanded left changedThere
      cases open'.symm.trans landed
  | some lookup =>
      cases lookup with
      | found value refresh =>
          have landing : (lead settings scheduler task flight call).crew
              reported = _ :=
            crew_lead_of_found settings there listed sameName looked
          have same := outcome_of_land there landing changedThere
          exact .found looked (same.symm.trans landed)
      | missing refresh =>
          have landing : (lead settings scheduler task flight call).crew
              reported = _ :=
            crew_lead_of_missing settings there listed sameName looked
          have same := outcome_of_land there landing changedThere
          exact .found looked (same.symm.trans landed)
      | absent =>
          obtain ⟨next, attempted, sameCache⟩ := attempt_of_result? looked
          rw [lead, attempted] at changedThere
          rw [crew_of_attempt attempted] at there listed
          dsimp only at changedThere
          rw [await] at changedThere
          split at changedThere
          · have concluded := concluded_of_lands settings
              (next.noteCall (.one task call.name)) reported there listed
              sameName leads unlanded landed changedThere
            exact .fetched looked (sameCache ▸ concluded)
          · cases there.symm.trans changedThere
            cases unlanded.symm.trans landed

end Lead

/-! ## Departures -/

section Departures

omit [Keyed Value]

@[simp]
theorem inFlight_leaveFlight :
    (scheduler.leaveFlight task flight).inFlight = scheduler.inFlight := by
  have handedOver :
      (scheduler.handOver flight).inFlight = scheduler.inFlight := by
    rw [handOver]
    split
    · rfl
    · split
      · rfl
      · rfl
  rw [leaveFlight]
  split
  · rfl
  · split
    · exact handedOver
    · rfl

theorem outcome_leaveFlight (place : FlightId) :
    (scheduler.leaveFlight task flight).flights[place]?.map Flight.outcome =
      scheduler.flights[place]?.map Flight.outcome := by
  have seated : ∀ {old new : Flight Value},
      scheduler.flights[flight]? = some old → new.outcome = old.outcome →
        (scheduler.flights.setIfInBounds flight new)[place]?.map
            Flight.outcome =
          scheduler.flights[place]?.map Flight.outcome := by
    intro old new there same
    rw [Crew.getElem?_setIfInBounds_of_found there]
    split
    next here =>
      rw [here, there]
      exact congrArg some same
    next => rfl
  rw [leaveFlight]
  split
  · rfl
  next left there =>
    split
    · rw [handOver, there]
      dsimp only
      split
      · exact seated there rfl
      · exact seated there rfl
    · rw [adjustFlight, Crew.modify_eq_setIfInBounds there]
      exact seated there rfl

@[simp]
theorem inFlight_abort : (scheduler.abort task).inFlight =
    scheduler.inFlight := by
  rw [abort]
  split
  · rfl
  · split
    · rfl
    · split
      · exact inFlight_leaveFlight
      · rfl

/-- An abort lands no flight. -/
theorem outcome_abort (place : FlightId) :
    (scheduler.abort task).flights[place]?.map Flight.outcome =
      scheduler.flights[place]?.map Flight.outcome := by
  rw [abort]
  split
  · rfl
  · split
    · rfl
    · split
      · exact outcome_leaveFlight place
      · rfl

end Departures

end Scheduler

namespace Crew

variable {Value : Type} {crew next : Crew Value} {task : TaskId}
  {flight : FlightId} {joined : Flight Value} {call : SingleCall Value}

theorem Concluded.flights_other
    (concluded : Concluded task flight joined crew next) {place : FlightId}
    (apart : place ≠ flight) :
    next.flights[place]? = crew.flights[place]? := by
  cases concluded with
  | lands outcome => exact Array.getElem?_setIfInBounds_ne (Ne.symm apart)
  | leaves fault => exact Array.getElem?_setIfInBounds_ne (Ne.symm apart)

/-- Whoever leads a flight leaves the others alone. -/
theorem Led.flights_other
    (led : Led task flight joined call crew next) {place : FlightId}
    (apart : place ≠ flight) :
    next.flights[place]? = crew.flights[place]? := by
  rcases led.sleeps_or_concludes with ⟨wakeAt, rfl⟩ | ⟨calls, concluded⟩
  · rfl
  · exact concluded.flights_other apart

end Crew

theorem Scheduler.Joined.yields
    {Value : Type} [Keyed Value] (settings : Settings)
    {scheduler next : Scheduler Value} {task : TaskId}
    {call : SingleCall Value} {flight : FlightId} {changed : Flight Value}
    {outcome : Except Failure Value}
    (joins : Joined settings scheduler task call next)
    (before : ∀ joined, scheduler.flights[flight]? = some joined →
      joined.outcome = none)
    (changedThere : next.flights[flight]? = some changed)
    (landed : changed.outcome = some outcome) :
    Cache.Yields settings call scheduler.cache outcome := by
  have changes : next.flights[flight]? ≠ scheduler.flights[flight]? := by
    intro same
    cases (before changed (same.symm.trans changedThere)).symm.trans landed
  cases joins with
  | @waits place joined leader listed there led =>
      have seated := Crew.getElem?_setIfInBounds_of_found there
        { joined with waiting := joined.waiting ++ [task] } flight
      split at seated
      next here =>
        cases changedThere.symm.trans seated
        cases (before joined (here ▸ there)).symm.trans landed
      next => exact absurd seated changes
  | @leads place boarded boards =>
      by_cases here : flight = place
      · subst here
        rw [← boards.cache]
        exact yields_of_lands settings boarded [] boards.seat boards.listed
          rfl rfl rfl landed changedThere
      · have led : Crew.Led task place _ call (boarded.crew [])
            ((lead settings boarded task place call).crew []) :=
          led_lead boards.seat boards.listed rfl rfl settings
        exact absurd ((led.flights_other here).trans (boards.others flight here))
          changes

namespace Logbook

variable {Value : Type} [Keyed Value] (settings : Settings)

/-- How a call lands its flight in the turn of its task. -/
inductive Landing (logbook : Logbook Value) (task : TaskId)
    (call : SingleCall Value) (outcome : Except Failure Value) : Prop
  /-- It begins, finds nothing, and leads. -/
  | begins
      (unbegun : logbook.crew.tasks[task]? = some (.single call))
      (absent : Cache.result? (Cache.lookup settings call.name)
        logbook.scheduler.cache = some .absent)
      (yields : Cache.Yields settings call
        (Cache.final (Cache.lookup settings call.name)
          logbook.scheduler.cache) outcome)
  /-- It was told to lead. -/
  | resumes {flight : FlightId}
      (waits : logbook.crew.tasks[task]? = some (.waiting flight call))
      (yields : Cache.Yields settings call logbook.scheduler.cache outcome)
  /-- Its fetch has ended. -/
  | wakes {flight : FlightId} {wakeAt : Nat}
      (asleep : logbook.crew.tasks[task]? =
        some (.asleep (.complete flight call) wakeAt))
      (concluded : Cache.result?
        (Cache.concludeFlight settings call.storing call.name call.plan)
        logbook.scheduler.cache = some outcome)

variable {logbook : Logbook Value} {move : Move Value} {task : TaskId}
  {flight : FlightId} {joined changed : Flight Value}
  {call : SingleCall Value} {outcome : Except Failure Value}
  (manned : logbook.crew.Manned)
  (landed : changed.outcome = some outcome)

include manned landed

theorem landing_of_single
    (unbegun : logbook.crew.tasks[task]? = some (.single call))
    (before : ∀ joined, logbook.crew.flights[flight]? = some joined →
      joined.outcome = none)
    (changedThere : (after settings logbook
      (.turn task)).crew.flights[flight]? = some changed) :
    Landing settings logbook task call outcome := by
  have changes : (after settings logbook
      (.turn task)).crew.flights[flight]? ≠
        logbook.crew.flights[flight]? := by
    intro same
    cases (before changed (same.symm.trans changedThere)).symm.trans landed
  cases begun_after settings manned unbegun with
  | breaks fault broken flights =>
      exact absurd (congrArg (·[flight]?) flights) changes
  | hits looked found flights =>
      exact absurd (congrArg (·[flight]?) flights) changes
  | misses absent joins =>
      exact .begins unbegun absent
        (joins.yields settings before changedThere landed)

variable (there : logbook.crew.flights[flight]? = some joined)
  (leads : joined.leader = some task)
  (changedThere : (after settings logbook
    (.turn task)).crew.flights[flight]? = some changed)

include there leads changedThere

theorem landing_of_waiting
    (waits : logbook.crew.tasks[task]? = some (.waiting flight call)) :
    Landing settings logbook task call outcome := by
  have unlanded := manned.open_of_leader there leads
  obtain ⟨again, againThere, sameName, _⟩ := manned.aboard waits rfl
  cases there.symm.trans againThere
  have listed := manned.listed.mpr ⟨joined, there, rfl, unlanded⟩
  have isThere : logbook.scheduler.flights[flight]? = some joined := there
  rw [crew, scheduler_turn settings waits] at changedThere
  simp only [Scheduler.resume, isThere, unlanded, if_pos leads]
    at changedThere
  refine .resumes waits ?_
  exact Scheduler.yields_of_lands settings
    { logbook.scheduler with
      ready := logbook.scheduler.ready.erase task }
    logbook.reported there listed sameName leads unlanded landed changedThere

theorem landing_of_asleep {wakeAt : Nat}
    (asleep : logbook.crew.tasks[task]? =
      some (.asleep (.complete flight call) wakeAt)) :
    Landing settings logbook task call outcome := by
  have unlanded := manned.open_of_leader there leads
  obtain ⟨again, againThere, sameName, _⟩ := manned.aboard asleep rfl
  cases there.symm.trans againThere
  have listed := manned.listed.mpr ⟨joined, there, rfl, unlanded⟩
  have found : logbook.scheduler.tasks[task]? =
      some (.asleep (.complete flight call) wakeAt) := asleep
  simp only [crew, after, Scheduler.step, found] at changedThere
  split at changedThere
  · refine .wakes asleep ?_
    exact Scheduler.concluded_of_lands settings
      { logbook.scheduler with
        ready := logbook.scheduler.ready.erase task }
      logbook.reported there listed sameName leads unlanded landed changedThere
  · cases there.symm.trans changedThere
    cases unlanded.symm.trans landed

theorem landing_of_leads :
    ∃ call : SingleCall Value, call.name = joined.name ∧
      Landing settings logbook task call outcome := by
  have member : task ∈ joined.members :=
    Flight.mem_members.mpr (Or.inl leads)
  obtain ⟨stage, found, aboard⟩ := manned.members there member
  cases stage with
  | single call => cases aboard
  | batch call => cases aboard
  | called errand =>
      have free := manned.awaited found
      rw [Stage.aboard?_called_eq_none_iff.mpr free] at aboard
      cases aboard
  | asleep errand wakeAt =>
      cases errand with
      | complete place call =>
          obtain ⟨rfl, named⟩ := Prod.mk.inj (Option.some.inj aboard)
          exact ⟨call, named, landing_of_asleep settings manned landed there
            leads changedThere found⟩
      | refresh call => cases aboard
      | collect labels misses storing plan => cases aboard
      | refreshMany requests storing plan => cases aboard
  | waiting place call =>
      obtain ⟨rfl, named⟩ := Prod.mk.inj (Option.some.inj aboard)
      exact ⟨call, named, landing_of_waiting settings manned landed there
        leads changedThere found⟩
  | «over» verdict => cases aboard

omit there leads changedThere

/-- A flight lands in the turn of a call of its name that leads it. -/
theorem landing_of_after
    (before : ∀ joined, logbook.crew.flights[flight]? = some joined →
      joined.outcome = none)
    (changedThere : (after settings logbook move).crew.flights[flight]? =
      some changed) :
    ∃ task call, move = .turn task ∧ call.name = changed.name ∧
      Landing settings logbook task call outcome := by
  have changes : (after settings logbook move).crew.flights[flight]?.map
      Flight.outcome ≠ logbook.crew.flights[flight]?.map Flight.outcome := by
    intro same
    rw [changedThere, Option.map_some, landed] at same
    obtain ⟨joined, there, isLanded⟩ := Option.map_eq_some_iff.mp same.symm
    cases (before joined there).symm.trans isLanded
  cases stirred_after settings manned move with
  | byNobody flights inFlight stages =>
      exact absurd (by rw [flights]) changes
  | @bySomebody task ready own turn =>
      obtain rfl : move = .turn task := by
        refine own.resolve_right ?_
        rintro rfl
        exact changes (Scheduler.outcome_abort flight)
      have mannedThen := manned.noting ready logbook.crew.calls
      refine ⟨task, ?_⟩
      rcases Crew.led_or_unled logbook.crew flight with
        ⟨joined, leader, there, leads⟩ | unled
      · obtain ⟨renamed, renamedThere, sameName⟩ :=
          (moved_after settings manned (.turn task)).named manned there
        cases changedThere.symm.trans renamedThere
        by_cases same : leader = task
        · subst same
          rw [sameName]
          obtain ⟨call, named, landing⟩ := landing_of_leads settings manned
            landed there leads changedThere
          exact ⟨call, rfl, named, landing⟩
        · obtain ⟨other, otherThere, spared⟩ :=
            turn.spared mannedThen there leads same
          refine absurd ?_ changes
          rw [otherThere, there]
          exact congrArg some spared.outcome
      · cases turn.vacancy mannedThen unled with
        | stays same => exact absurd (congrArg _ same) changes
        | @fills call joined unbegun sole sameName leads captaincy =>
            have landing := landing_of_single settings manned landed unbegun
              before changedThere
            refine ⟨call, rfl, ?_, landing⟩
            rw [← sameName]
            exact (captaincy.named changedThere).symm

end Logbook

end ReadThrough
