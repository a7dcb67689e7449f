import ReadThrough.Proofs.Scheduler.Landing

/-!
# No old outcome is handed out

A landed flight gives its outcome to those who waited for it, and is never
joined again: between two moves no flight to join has landed.  So a call that
begins after a flight has landed gets nothing from it.  It finds its name in the
store, or it gets the outcome of a flight that lands later: `no_stale_outcome`.

Whoever learns the outcome of a landed flight, or quits it, leaves the flights
to join alone, even if its name has a new one.
-/

namespace ReadThrough

namespace Crew

variable {Value : Type} {crew next : Crew Value} {task other : TaskId}
  {flight : FlightId} {joined : Flight Value} {name : String}
  {call : SingleCall Value}

/-- The task gets what the flight of the name gives, or no result. -/
inductive Committed (crew : Crew Value) (task : TaskId) (flight : FlightId)
    (name : String) : Prop
  | aboard {stage : Stage Value}
      (found : crew.tasks[task]? = some stage)
      (aboard : stage.aboard? = some (flight, name))
  | ended {verdict : Verdict Value}
      (finished : crew.tasks[task]? = some (.over verdict))
      (served : ∀ result, verdict = .returned result →
        ∃ landed outcome, crew.flights[flight]? = some landed ∧
          landed.name = name ∧ landed.outcome = some outcome ∧
            result = outcome.map .one)

theorem Committed.cancelled {verdict : Verdict Value}
    (finished : crew.tasks[task]? = some (.over verdict))
    (unanswered : ∀ result, verdict ≠ .returned result) :
    crew.Committed task flight name :=
  .ended finished fun result same => absurd same (unanswered result)

theorem Stroke.committed_self
    (manned : crew.Manned) (stroke : Stroke task crew next)
    {stage : Stage Value} (found : crew.tasks[task]? = some stage)
    (aboard : stage.aboard? = some (flight, name)) :
    next.Committed task flight name := by
  have placed := getElem?_setIfInBounds_self_of_found found
  obtain ⟨joined, there, sameName, _⟩ := manned.aboard found aboard
  cases stroke with
  | notes labels => exact .aboard found aboard
  | settles again running ashore =>
      cases found.symm.trans again
      cases aboard.symm.trans ashore
  | delegates again unbegun =>
      cases found.symm.trans again
      cases aboard.symm.trans (Stage.ashore_of_isUnbegun unbegun)
  | opens again =>
      cases found.symm.trans again
      cases aboard
  | takes again =>
      cases found.symm.trans again
      cases aboard
  | joins again =>
      cases found.symm.trans again
      cases aboard
  | fetches again =>
      cases found.symm.trans again
      exact .aboard (placed _) aboard
  | @lands stage place _ left outcome again takesPart leftThere leads =>
      cases found.symm.trans again
      cases aboard.symm.trans takesPart
      cases there.symm.trans leftThere
      refine .ended (placed _) ?_
      rintro result ⟨⟩
      have seated := getElem?_setIfInBounds_self_of_found there
        (joined.landedWith outcome)
      exact ⟨_, outcome, seated, sameName, rfl, rfl⟩
  | leaves verdict unanswered => exact .cancelled (placed _) unanswered
  | quits again =>
      refine .cancelled (placed _) ?_
      rintro result ⟨⟩
  | @learns call place landed outcome again landedThere isLanded =>
      cases found.symm.trans again
      cases aboard
      cases there.symm.trans landedThere
      refine .ended (placed _) ?_
      rintro result ⟨⟩
      exact ⟨joined, outcome, there, sameName, isLanded, rfl⟩

theorem Stroke.committed
    (manned : crew.Manned) (stroke : Stroke other crew next)
    (committed : crew.Committed task flight name) :
    next.Committed task flight name := by
  cases committed with
  | aboard found aboard =>
      by_cases same : task = other
      · subst same
        exact stroke.committed_self manned found aboard
      · exact .aboard (stroke.stage_other same found) aboard
  | ended finished served =>
      refine .ended (stroke.over finished) ?_
      intro result same
      obtain ⟨landed, outcome, there, sameName, isLanded, given⟩ :=
        served result same
      have stillThere := stroke.landed manned there (by simp [isLanded])
      exact ⟨landed, outcome, stillThere, sameName, isLanded, given⟩

theorem Committed.noting
    (committed : crew.Committed task flight name) (ready : List TaskId)
    (calls : List FetchCall) :
    Committed { crew with ready := ready, calls := calls }
      task flight name := by
  cases committed with
  | aboard found aboard => exact .aboard found aboard
  | ended finished served => exact .ended finished served

/-- Nothing releases a task from the flight that it has boarded. -/
theorem Moved.committed
    (moved : Moved crew next) (manned : crew.Manned)
    (committed : crew.Committed task flight name) :
    next.Committed task flight name := by
  cases moved with
  | spawns =>
      cases committed with
      | aboard found aboard =>
          exact .aboard (getElem?_push_of_found found _) aboard
      | ended finished served =>
          exact .ended (getElem?_push_of_found finished _) served
  | wakes => exact committed.noting _ _
  | turns turn =>
      exact (manned.noting _ _).keeps
        (fun manned stroke => stroke.committed manned) turn.strokes
        (committed.noting _ _)
  | aborts turn =>
      exact manned.keeps (fun manned stroke => stroke.committed manned)
        turn.strokes committed

theorem Concluded.committed
    (there : crew.flights[flight]? = some joined)
    (inside : task < crew.tasks.size)
    (concluded : Concluded task flight joined crew next) :
    next.Committed task flight joined.name := by
  have placed : ∀ rest : Stage Value,
      (crew.tasks.setIfInBounds task rest)[task]? = some rest :=
    fun _ => Array.getElem?_setIfInBounds_self_of_lt inside
  cases concluded with
  | lands outcome =>
      refine .ended (placed _) ?_
      rintro result ⟨⟩
      have seated := getElem?_setIfInBounds_self_of_found there
        (joined.landedWith outcome)
      exact ⟨_, outcome, seated, rfl, rfl, rfl⟩
  | leaves fault =>
      refine .cancelled (placed _) ?_
      rintro result ⟨⟩

theorem Led.committed
    (there : crew.flights[flight]? = some joined)
    (sameName : joined.name = call.name)
    (inside : task < crew.tasks.size)
    (led : Led task flight joined call crew next) :
    next.Committed task flight call.name := by
  rcases led.sleeps_or_concludes with ⟨wakeAt, rfl⟩ | ⟨calls, concluded⟩
  · exact .aboard (Array.getElem?_setIfInBounds_self_of_lt inside) rfl
  · rw [← sameName]
    have stillThere : ({ crew with calls := calls } : Crew
        Value).flights[flight]? = some joined := there
    exact concluded.committed stillThere inside

end Crew

/-- A call that joins is bound to a flight that has not landed. -/
theorem Scheduler.Joined.committed
    {Value : Type} [Keyed Value] (settings : Settings)
    {scheduler next : Scheduler Value} {reported : List FetchCall}
    {task : TaskId} {call : SingleCall Value}
    (joins : Joined settings scheduler task call next)
    (inside : task < scheduler.tasks.size) :
    ∃ flight, (∀ joined, scheduler.flights[flight]? = some joined →
        joined.outcome = none) ∧
      (next.crew reported).Committed task flight call.name := by
  cases joins with
  | @waits flight joined leader listed there led unlanded =>
      refine ⟨flight, ?_, ?_⟩
      · intro again againThere
        cases there.symm.trans againThere
        exact unlanded
      · exact .aboard (Array.getElem?_setIfInBounds_self_of_lt inside) rfl
  | @leads flight boarded boards =>
      have aboard : task < boarded.tasks.size := boards.tasks ▸ inside
      have led : Crew.Led task flight _ call (boarded.crew reported)
          ((lead settings boarded task flight call).crew reported) :=
        led_lead boards.seat boards.listed rfl rfl settings
      refine ⟨flight, boards.unlanded, ?_⟩
      exact led.committed boards.seat rfl aboard

namespace Logbook

variable {Value : Type} [Keyed Value] (settings : Settings)
  {logbook : Logbook Value} {task : TaskId} {flight : FlightId}
  {joined landed : Flight Value} {call : SingleCall Value}
  {outcome : Except Failure Value} (orderly : logbook.crew.Orderly)

section Landing

include orderly

theorem landed_follow
    (there : logbook.crew.flights[flight]? = some joined)
    (isLanded : joined.outcome ≠ none) (moves : List (Move Value)) :
    (follow settings logbook moves).crew.flights[flight]? = some joined := by
  induction moves generalizing logbook with
  | nil => exact there
  | cons move moves inductionHypothesis =>
      have moved := moved_after settings orderly.manned move
      exact inductionHypothesis (moved.orderly orderly)
        (moved.landed orderly.manned there isLanded)

/-- A flight that lands in the course of moves lands in one of them. -/
theorem exists_landing (moves : List (Move Value))
    (before : ∀ joined, logbook.crew.flights[flight]? = some joined →
      joined.outcome = none)
    (there : (follow settings logbook moves).crew.flights[flight]? =
      some landed)
    (isLanded : landed.outcome = some outcome) :
    ∃ early leader leading late, moves = early ++ .turn leader :: late ∧
      (∀ joined,
        (follow settings logbook early).crew.flights[flight]? =
            some joined → joined.outcome = none) ∧
      (after settings (follow settings logbook early)
        (.turn leader)).crew.flights[flight]? = some landed ∧
      leading.name = landed.name ∧
        Landing settings (follow settings logbook early) leader leading
          outcome := by
  induction moves generalizing logbook with
  | nil => cases (before landed there).symm.trans isLanded
  | cons move moves inductionHypothesis =>
      have moved := moved_after settings orderly.manned move
      have orderlyAfter := moved.orderly orderly
      by_cases lands : ∃ joined,
          (after settings logbook move).crew.flights[flight]? =
            some joined ∧ joined.outcome ≠ none
      · obtain ⟨joined, joinedThere, hasLanded⟩ := lands
        have still :=
          landed_follow settings orderlyAfter joinedThere hasLanded moves
        cases still.symm.trans there
        obtain ⟨leader, leading, rfl, sameName, landing⟩ :=
          landing_of_after settings orderly.manned isLanded before joinedThere
        exact ⟨[], leader, leading, moves, rfl, before, joinedThere, sameName,
          landing⟩
      · have beforeThen : ∀ joined,
            (after settings logbook move).crew.flights[flight]? =
              some joined → joined.outcome = none := by
          intro joined joinedThere
          by_contra hasLanded
          exact lands ⟨joined, joinedThere, hasLanded⟩
        obtain ⟨early, leader, leading, late, split, lands⟩ :=
          inductionHypothesis orderlyAfter beforeThen there
        refine ⟨move :: early, leader, leading, late, ?_, lands⟩
        rw [split]
        rfl

end Landing

/-- How far a call that had not begun has come after moves. -/
inductive Course (before : Logbook Value) (task : TaskId)
    (call : SingleCall Value) (moves : List (Move Value)) : Prop
  | unbegun
      (found : (follow settings before moves).crew.tasks[task]? =
        some (.single call))
  /-- It has ended without a result. -/
  | unanswered (verdict : Verdict Value)
      (finished : (follow settings before moves).crew.tasks[task]? =
        some (.over verdict))
      (unanswered : ∀ result, verdict ≠ .returned result)
  /-- It has found its name in the store. -/
  | hits (early late : List (Move Value)) {lookup : Lookup Value}
      {outcome : Except Failure Value}
      (split : moves = early ++ .turn task :: late)
      (looked : Cache.result? (Cache.lookup settings call.name)
        (follow settings before early).scheduler.cache = some lookup)
      (given : lookup.outcome? call.name = some outcome)
      (finished : (follow settings before moves).crew.tasks[task]? =
        some (.over (.returned (outcome.map .one))))
  /-- It has boarded a flight that had not landed before. -/
  | boards (flight : FlightId)
      (fresh : ∀ joined, before.crew.flights[flight]? = some joined →
        joined.outcome = none)
      (committed : (follow settings before moves).crew.Committed
        task flight call.name)

section Course

include orderly

theorem course_of_turn (moves : List (Move Value))
    (unbegun : (follow settings logbook moves).crew.tasks[task]? =
      some (.single call)) :
    Course settings logbook task call (moves ++ [.turn task]) := by
  have orderlyThen := orderly_follow settings orderly moves
  have inside := (Array.getElem?_eq_some_iff.mp unbegun).1
  have reached :=
    follow_append_singleton settings logbook moves (.turn task)
  cases begun_after settings orderlyThen.manned unbegun with
  | breaks fault broken flights finished =>
      refine .unanswered (.broken fault) ?_ ?_
      · rw [reached]
        exact finished
      · rintro result ⟨⟩
  | hits looked given flights finished =>
      refine .hits moves [] rfl looked given ?_
      rw [reached]
      exact finished
  | misses absent joins =>
      obtain ⟨flight, fresh, committed⟩ :=
        Scheduler.Joined.committed settings joins inside
      refine .boards flight (fun joined there => ?_) ?_
      · -- Had it landed, it would not have been open to join.
        by_contra isLanded
        exact isLanded
          (fresh joined (landed_follow settings orderly there isLanded moves))
      · rw [reached]
        exact committed

theorem course_follow
    (unbegun : logbook.crew.tasks[task]? = some (.single call))
    (moves : List (Move Value)) :
    Course settings logbook task call moves := by
  induction moves using List.reverseRecOn with
  | nil => exact .unbegun unbegun
  | append_singleton moves move inductionHypothesis =>
      have manned := (orderly_follow settings orderly moves).manned
      have moved := moved_after settings manned move
      have reached := follow_append_singleton settings logbook moves move
      cases inductionHypothesis with
      | unbegun found =>
          by_cases turns : move = .turn task
          · subst turns
            exact course_of_turn settings orderly moves found
          by_cases aborts : move = .abort task
          · subst aborts
            refine .unanswered .cancelled ?_ ?_
            · rw [reached]
              exact cancelled_of_abort settings found rfl
            · rintro result ⟨⟩
          · refine .unbegun ?_
            rw [reached]
            exact stage_after settings manned found turns aborts
      | unanswered verdict finished unanswered =>
          refine .unanswered verdict ?_ unanswered
          rw [reached]
          exact (moved.over manned finished).1
      | hits early late split looked given finished =>
          refine .hits early (late ++ [move]) ?_ looked given ?_
          · rw [split, List.append_assoc]
            rfl
          · rw [reached]
            exact (moved.over manned finished).1
      | boards flight fresh committed =>
          refine .boards flight fresh ?_
          rw [reached]
          exact moved.committed manned committed

end Course

/-- Where the result of a call comes from that had not begun before the
moves. -/
inductive Served (before : Logbook Value) (moves : List (Move Value))
    (task : TaskId) (call : SingleCall Value)
    (result : Except Failure (Reply Value)) : Prop
  /-- It has found its name in the store when it began. -/
  | hits (early late : List (Move Value)) {lookup : Lookup Value}
      {outcome : Except Failure Value}
      (split : moves = early ++ .turn task :: late)
      (looked : Cache.result? (Cache.lookup settings call.name)
        (follow settings before early).scheduler.cache = some lookup)
      (given : lookup.outcome? call.name = some outcome)
      (same : result = outcome.map .one)
  /-- It was given the outcome of a flight of its name that landed in the turn
  of one of the moves. -/
  | lands (early late : List (Move Value)) {flight : FlightId}
      {landed : Flight Value} {leader : TaskId}
      {leading : SingleCall Value} {outcome : Except Failure Value}
      (split : moves = early ++ .turn leader :: late)
      (unlanded : ∀ joined,
        (follow settings before early).crew.flights[flight]? =
            some joined → joined.outcome = none)
      (there : (after settings (follow settings before early)
        (.turn leader)).crew.flights[flight]? = some landed)
      (isLanded : landed.outcome = some outcome)
      (named : landed.name = call.name)
      (sameName : leading.name = call.name)
      (landing : Landing settings (follow settings before early) leader
        leading outcome)
      (same : result = outcome.map .one)

/-- What holds between two moves, and what the next move does. -/
structure Current (logbook : Logbook Value) : Prop where
  /-- No flight to join has landed. -/
  unlanded : ∀ {name : String} {flight : FlightId},
    logbook.crew.inFlight[name]? = some flight →
      ∃ joined, logbook.crew.flights[flight]? = some joined ∧
        joined.name = name ∧ joined.outcome = none
  -- A name gets out of flight by the landing of the very flight to join.
  removal : ∀ {name : String} {flight : FlightId} (move : Move Value),
    logbook.crew.inFlight[name]? = some flight →
      (after settings logbook move).crew.inFlight[name]? ≠ some flight →
        ∃ task call changed outcome, move = .turn task ∧ call.name = name ∧
          (after settings logbook move).crew.flights[flight]? =
            some changed ∧ changed.outcome = some outcome ∧
              Landing settings logbook task call outcome
  /-- Whoever waits for a landed flight removes no flight to join. -/
  harmless : ∀ {task : TaskId} {flight : FlightId}
      {call : SingleCall Value} {joined : Flight Value},
    logbook.crew.tasks[task]? = some (.waiting flight call) →
      logbook.crew.flights[flight]? = some joined →
        joined.outcome ≠ none →
          (after settings logbook (.turn task)).crew.inFlight =
              logbook.crew.inFlight ∧
            (after settings logbook (.abort task)).crew.inFlight =
              logbook.crew.inFlight

section Current

include orderly

theorem current_of_orderly : Current settings logbook := by
  have manned := orderly.manned
  refine { unlanded := manned.listed.mp, removal := ?_, harmless := ?_ }
  · intro name flight move listed removed
    obtain ⟨joined, there, sameName, unlanded⟩ := manned.listed.mp listed
    have moved := moved_after settings manned move
    have mannedAfter := (moved.orderly orderly).manned
    obtain ⟨changed, changedThere, named⟩ := moved.named manned there
    cases landed : changed.outcome with
    | none =>
        have still := mannedAfter.listed.mpr
          ⟨changed, changedThere, named.trans sameName, landed⟩
        exact absurd still removed
    | some outcome =>
        have before : ∀ again, logbook.crew.flights[flight]? = some again →
            again.outcome = none := by
          intro again againThere
          cases there.symm.trans againThere
          exact unlanded
        obtain ⟨task, call, isTurn, calls, landing⟩ :=
          landing_of_after settings manned landed before changedThere
        exact ⟨task, call, changed, outcome, isTurn,
          calls.trans (named.trans sameName), changedThere, landed, landing⟩
  · intro task flight call joined waits there landed
    constructor
    · obtain ⟨again, againThere, sameName, _⟩ := manned.aboard waits rfl
      cases there.symm.trans againThere
      have unlisted : logbook.scheduler.inFlight[call.name]? ≠
          some flight := by
        intro listed
        obtain ⟨other, otherThere, _, unlanded⟩ := manned.listed.mp listed
        cases there.symm.trans otherThere
        exact landed unlanded
      obtain ⟨outcome, isLanded⟩ := Option.ne_none_iff_exists'.mp landed
      have isThere : logbook.scheduler.flights[flight]? = some joined := there
      have turned := scheduler_turn settings waits
      simp only [Scheduler.resume, isThere, isLanded, Scheduler.closeFlight,
        if_neg unlisted] at turned
      rw [crew, turned]
      rfl
    · exact Scheduler.inFlight_abort

theorem served_of_returned {result : Except Failure (Reply Value)}
    (unbegun : logbook.crew.tasks[task]? = some (.single call))
    (moves : List (Move Value))
    (finished : (follow settings logbook moves).crew.tasks[task]? =
      some (.over (.returned result))) :
    Served settings logbook moves task call result := by
  cases course_follow settings orderly unbegun moves with
  | unbegun found => cases finished.symm.trans found
  | unanswered verdict ended unanswered =>
      cases finished.symm.trans ended
      exact absurd rfl (unanswered result)
  | hits early late split looked given ended =>
      cases finished.symm.trans ended
      exact .hits early late split looked given rfl
  | boards flight fresh committed =>
      cases committed with
      | aboard found aboard =>
          cases finished.symm.trans found
          cases aboard
      | ended endedSo served =>
          cases finished.symm.trans endedSo
          obtain ⟨landed, outcome, there, sameName, isLanded, same⟩ :=
            served result rfl
          obtain ⟨early, leader, leading, late, split, unlanded, landedThere,
            calls, landing⟩ :=
            exists_landing settings orderly moves fresh there isLanded
          exact .lands early late split unlanded landedThere isLanded
            sameName (calls.trans sameName) landing same

end Current

/-- Whatever happened from the start, no flight to join has landed, and a call
that begins from now on gets no outcome from before. -/
theorem no_stale_outcome
    (settings : Settings) (paddings : Nat → List Nat)
    (early late : List (Move Value)) :
    Current settings (follow settings (start settings paddings) early) ∧
      ∀ {task : TaskId} {call : SingleCall Value}
        {result : Except Failure (Reply Value)},
        (follow settings (start settings paddings) early).crew.tasks[task]? =
            some (.single call) →
          (follow settings (start settings paddings)
              (early ++ late)).crew.tasks[task]? =
              some (.over (.returned result)) →
            Served settings (follow settings (start settings paddings) early)
              late task call result := by
  have orderly :=
    orderly_follow settings (orderly_start settings paddings) early
  refine ⟨current_of_orderly settings orderly, ?_⟩
  intro task call result unbegun finished
  rw [follow_append] at finished
  exact served_of_returned settings orderly unbegun late finished

/-- A call whose fetch fails at once. -/
def failing : SingleCall NameTag :=
  { name := "a", storing := .byName,
    plan := { delay := 0, advance := 0, ending := .fails (.notFound "a") } }

/-- One call fails, and another of the same name has not begun. -/
def failed : List (Move NameTag) :=
  [.call failing, .turn 0, .call patient]

theorem no_stale_outcome_failed :
    let before := follow Settings.twoShards
      (start Settings.twoShards fun _ => []) failed
    let late := [.turn 1, .pass 5, .wake, .turn 1]
    Current Settings.twoShards before ∧
      before.crew.tasks[0]? =
          some (.over (.returned (.error (.notFound "a")))) ∧
        Served Settings.twoShards before late 1 patient
          (.ok (.one ⟨"a", []⟩)) := by
  have stated := no_stale_outcome Settings.twoShards (fun _ => []) failed
    [.turn 1, .pass 5, .wake, .turn 1]
  have unbegun : (follow Settings.twoShards
      (start Settings.twoShards fun _ => []) failed).crew.tasks[1]? =
        some (.single patient) := by
    rfl
  have finished : (follow Settings.twoShards
      (start Settings.twoShards fun _ => [])
      (failed ++ [.turn 1, .pass 5, .wake, .turn 1])).crew.tasks[1]? =
        some (.over (.returned (.ok (.one ⟨"a", []⟩)))) := by
    rfl
  exact ⟨stated.1, by rfl, stated.2 unbegun finished⟩

end Logbook

end ReadThrough
