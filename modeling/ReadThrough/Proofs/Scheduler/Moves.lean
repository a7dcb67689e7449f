import ReadThrough.Proofs.Scheduler.Flights

/-!
# Moves

A move is the least that happens to a scheduler without anybody else doing
something in between: a caller starts or aborts a call, a task takes its turn,
something else happens to the cache, or time passes.  Tasks take their turns in
any order, ready or not; a turn out of turn is a wasted one.

A logbook is a scheduler together with the calls of fetch functions that were
taken out of it.  `orderly_follow` says what holds after any moves from the
start.
-/

namespace ReadThrough

open Relation (ReflTransGen)

namespace Crew

variable {Value : Type} {crew next : Crew Value} {task other : TaskId}
  {flight : FlightId} {joined : Flight Value}

/-- What holds of a crew between two moves. -/
structure Orderly (crew : Crew Value) : Prop where
  manned : crew.Manned
  sparing : crew.Sparing
  attends : ∀ task, crew.Attends task

/-- What a move does to a crew. -/
inductive Moved (crew : Crew Value) : Crew Value → Prop
  /-- A call is started. -/
  | spawns {stage : Stage Value} (unbegun : stage.isUnbegun = true) :
      Moved crew (crew.spawn stage)
  /-- Tasks become ready, if any. -/
  | wakes (woken : List TaskId) :
      Moved crew { crew with ready := crew.ready ++ woken }
  /-- A task takes its turn. -/
  | turns {task : TaskId} {next : Crew Value}
      (turn : Turn task { crew with ready := crew.ready.erase task } next) :
      Moved crew next
  /-- A task is aborted. -/
  | aborts {task : TaskId} {next : Crew Value}
      (turn : Turn task crew next) : Moved crew next

/-- After its turn a task is ready if it can go on, because it cannot. -/
theorem Rested.attends
    (rested : crew.Rested task) (manned : crew.Manned) :
    crew.Attends task := by
  intro flight call joined waits there goesOn
  obtain ⟨again, againThere, isWaiting⟩ := rested flight call waits
  cases there.symm.trans againThere
  rcases goesOn with leads | landed
  · have distinct := manned.nodup there
    simp [Flight.members, leads, isWaiting] at distinct
  · have nobody := manned.members_eq_nil_of_landed there landed
    have member : task ∈ joined.members :=
      Flight.mem_members.mpr (Or.inr isWaiting)
    rw [nobody] at member
    cases member

/-- What holds of a crew but for one of its tasks holds of all of them after its
turn. -/
theorem Turn.orderly
    (turn : Turn task crew next) (manned : crew.Manned)
    (sparing : crew.Sparing)
    (attends : ∀ other, other ≠ task → crew.Attends other) :
    next.Orderly := by
  have mannedAfter := manned.strokes turn.strokes
  refine ⟨mannedAfter, ?_, ?_⟩
  · exact manned.keeps (fun _ stroke => stroke.sparing) turn.strokes sparing
  · intro other
    by_cases same : other = task
    · subst same
      exact turn.rested.attends mannedAfter
    · exact manned.keeps (fun manned stroke => stroke.attends manned same)
        turn.strokes (attends other same)

theorem Moved.orderly (moved : Moved crew next) (orderly : crew.Orderly) :
    next.Orderly := by
  cases moved with
  | spawns unbegun =>
      refine ⟨orderly.manned.spawn (Stage.ashore_of_isUnbegun unbegun), ?_, ?_⟩
      · exact orderly.sparing.of_same (fun _ => rfl)
          fun _ => pending_of_spawn
      · intro other flight call joined waits there goesOn
        apply List.mem_append_left
        simp only [spawn, Array.getElem?_push] at waits
        split at waits
        · cases waits
          cases unbegun
        · exact orderly.attends other flight call joined waits there goesOn
  | wakes woken =>
      refine ⟨orderly.manned.noting _ _, orderly.sparing.of_same
        (fun _ => rfl) (fun _ => id), ?_⟩
      intro other flight call joined waits there goesOn
      exact List.mem_append_left _
        (orderly.attends other flight call joined waits there goesOn)
  | turns turn =>
      refine turn.orderly (orderly.manned.noting _ _)
        (orderly.sparing.of_same (fun _ => rfl) (fun _ => id)) ?_
      -- The task itself is ready no more, but it is about to rest.
      intro other apart flight call joined waits there goesOn
      exact (List.mem_erase_of_ne apart).mpr
        (orderly.attends other flight call joined waits there goesOn)
  | aborts turn =>
      exact turn.orderly orderly.manned orderly.sparing
        fun other _ => orderly.attends other

/-! ## What a turn leaves alone -/

section Turn

variable (turn : Turn task crew next) (manned : crew.Manned)

include turn manned

/-- The turn of one task leaves the flights that others lead to them. -/
theorem Turn.spared {leader : TaskId}
    (there : crew.flights[flight]? = some joined)
    (leads : joined.leader = some leader) (apart : leader ≠ task) :
    ∃ changed, next.flights[flight]? = some changed ∧
      Flight.Spared task joined changed := by
  have base : ∃ changed, crew.flights[flight]? = some changed ∧
      Flight.Spared task joined changed :=
    ⟨joined, there, .refl joined⟩
  have step : ∀ {before after : Crew Value}, before.Manned →
      Stroke task before after →
        (∃ changed, before.flights[flight]? = some changed ∧
          Flight.Spared task joined changed) →
          ∃ changed, after.flights[flight]? = some changed ∧
            Flight.Spared task joined changed := by
    rintro before after manned stroke ⟨middle, middleThere, spared⟩
    have stillLed := spared.leader.trans leads
    obtain ⟨found, foundThere, further⟩ :=
      stroke.spared manned middleThere stillLed apart
    exact ⟨found, foundThere, spared.trans further⟩
  exact manned.keeps step turn.strokes base

/-- A flight that has a leader goes on to be led by it, unless the turn is the
leader's own. -/
theorem Turn.captaincy {leader : TaskId}
    (there : crew.flights[flight]? = some joined)
    (leads : joined.leader = some leader) :
    Captaincy leader flight joined next ∨
      (leader ≠ task ∧ ∃ changed, next.flights[flight]? = some changed ∧
        Flight.Spared task joined changed) := by
  by_cases own : leader = task
  · subst own
    left
    exact manned.keeps
      (fun manned stroke => stroke.captaincy manned leads)
      turn.strokes (.leads there)
  · exact Or.inr ⟨own, turn.spared manned there leads own⟩

theorem Turn.landed
    (there : crew.flights[flight]? = some joined)
    (landed : joined.outcome ≠ none) : next.flights[flight]? = some joined :=
  manned.keeps (fun manned stroke there => stroke.landed manned there landed)
    turn.strokes there

theorem Turn.stage_other {stage : Stage Value} (apart : other ≠ task)
    (found : crew.tasks[other]? = some stage) :
    next.tasks[other]? = some stage :=
  manned.keeps (fun _ stroke found => stroke.stage_other apart found)
    turn.strokes found

theorem Turn.guarded {name : String} (fetches : crew.Fetches other name) :
    Guarded task other name crew next :=
  manned.keeps (fun manned stroke => stroke.guarded manned)
    turn.strokes ⟨Nat.le_refl _, fun _ => rfl, Or.inl fetches⟩

theorem Turn.over {verdict : Verdict Value}
    (finished : crew.tasks[other]? = some (.over verdict)) :
    next.tasks[other]? = some (.over verdict) ∧
      next.callsBy other = crew.callsBy other := by
  have base : crew.tasks[other]? = some (.over verdict) ∧
      crew.callsBy other = crew.callsBy other := ⟨finished, rfl⟩
  have step : ∀ {before after : Crew Value}, before.Manned →
      Stroke task before after →
        before.tasks[other]? = some (.over verdict) ∧
            before.callsBy other = crew.callsBy other →
          after.tasks[other]? = some (.over verdict) ∧
            after.callsBy other = crew.callsBy other := by
    rintro before after _ stroke ⟨still, same⟩
    exact ⟨stroke.over still, (stroke.callsBy_of_over still).trans same⟩
  exact manned.keeps step turn.strokes base

end Turn

/-! ## What a move leaves alone -/

section Moved

variable (moved : Moved crew next) (manned : crew.Manned)

include moved manned

theorem Moved.landed
    (there : crew.flights[flight]? = some joined)
    (landed : joined.outcome ≠ none) :
    next.flights[flight]? = some joined := by
  cases moved with
  | spawns => exact there
  | wakes => exact there
  | turns turn => exact turn.landed (manned.noting _ _) there landed
  | aborts turn => exact turn.landed manned there landed

theorem Moved.over {verdict : Verdict Value}
    (finished : crew.tasks[task]? = some (.over verdict)) :
    next.tasks[task]? = some (.over verdict) ∧
      next.callsBy task = crew.callsBy task := by
  cases moved with
  | spawns => exact ⟨getElem?_push_of_found finished _, rfl⟩
  | wakes => exact ⟨finished, rfl⟩
  | turns turn => exact turn.over (manned.noting _ _) finished
  | aborts turn => exact turn.over manned finished

theorem Moved.callsOf_eq {name : String}
    (fetches : crew.Fetches task name)
    (sameSize : next.tasks.size = crew.tasks.size) :
    next.callsOf name = crew.callsOf name := by
  cases moved with
  | spawns => simp [spawn] at sameSize
  | wakes => rfl
  | turns turn =>
      exact (turn.guarded (manned.noting _ _) fetches).calls sameSize
  | aborts turn => exact (turn.guarded manned fetches).calls sameSize

/-- Unless its leader comes to an end, a flight goes on to be led by it. -/
theorem Moved.captaincy {leader : TaskId}
    (there : crew.flights[flight]? = some joined)
    (leads : joined.leader = some leader) :
    Captaincy leader flight joined next ∨
      ∃ changed stage, next.flights[flight]? = some changed ∧
        changed.outcome = none ∧ next.tasks[leader]? = some stage ∧
          stage.isOver = false := by
  have unlanded := manned.open_of_leader there leads
  have member : leader ∈ joined.members :=
    Flight.mem_members.mpr (Or.inl leads)
  obtain ⟨stage, found, aboard⟩ := manned.members there member
  have running : stage.isOver = false := by
    cases stage with
    | «over» verdict => cases aboard
    | _ => rfl
  -- A turn begins by taking the task out of the ready ones, an abort does not.
  have byTurn : ∀ {task : TaskId} {before : Crew Value},
      before.Manned → before.flights[flight]? = some joined →
        before.tasks[leader]? = some stage → Turn task before next →
          Captaincy leader flight joined next ∨
            ∃ changed stage, next.flights[flight]? = some changed ∧
              changed.outcome = none ∧ next.tasks[leader]? = some stage ∧
                stage.isOver = false := by
    intro task before mannedBefore thereBefore foundBefore turn
    rcases turn.captaincy mannedBefore thereBefore leads with
      own | ⟨apart, changed, changedThere, spared⟩
    · exact Or.inl own
    · have still := turn.stage_other mannedBefore apart foundBefore
      exact Or.inr ⟨changed, stage, changedThere,
        spared.outcome.trans unlanded, still, running⟩
  cases moved with
  | spawns => exact Or.inl (.leads there)
  | wakes => exact Or.inl (.leads there)
  | @turns task _ turn =>
      have mannedBefore :=
        manned.noting (crew.ready.erase task) crew.calls
      exact byTurn mannedBefore there found turn
  | aborts turn => exact byTurn manned there found turn

end Moved

/-- Whoever waits for a flight that has not landed leads it or waits for its
leader, and the leader fetches or is ready. -/
theorem Orderly.led {call : SingleCall Value}
    (orderly : crew.Orderly)
    (waits : crew.tasks[task]? = some (.waiting flight call))
    (there : crew.flights[flight]? = some joined)
    (unlanded : joined.outcome = none) :
    ∃ leader, joined.leader = some leader ∧
      (task = leader ∨ task ∈ joined.waiting) ∧
        (crew.Fetches leader joined.name ∨
          leader ∈ crew.ready) := by
  have manned := orderly.manned
  obtain ⟨again, againThere, sameName, rank⟩ := manned.aboard waits rfl
  cases there.symm.trans againThere
  have place : joined.leader = some task ∨ task ∈ joined.waiting := by
    rcases rank with leads | ⟨_, isWaiting | landed⟩
    · exact Or.inl leads
    · exact Or.inr isWaiting
    · exact absurd unlanded landed
  obtain ⟨leader, leads⟩ : ∃ leader, joined.leader = some leader := by
    cases leads : joined.leader with
    | some leader => exact ⟨leader, rfl⟩
    | none =>
        have nobody := manned.led there leads
        rcases place with isLeader | isWaiting
        · cases leads.symm.trans isLeader
        · rw [nobody] at isWaiting
          cases isWaiting
  refine ⟨leader, leads, ?_, ?_⟩
  · refine place.imp (fun isLeader => ?_) id
    exact Option.some.inj (isLeader.symm.trans leads)
  · have member : leader ∈ joined.members :=
      Flight.mem_members.mpr (Or.inl leads)
    obtain ⟨stage, found, aboard⟩ := manned.members there member
    cases stage with
    | single call => cases aboard
    | batch call => cases aboard
    | called errand =>
        have free := manned.awaited found
        rw [Stage.aboard?_called_eq_none_iff.mpr free] at aboard
        cases aboard
    | asleep errand wakeAt =>
        cases errand with
        | complete place call =>
            obtain ⟨_, named⟩ := Prod.mk.inj (Option.some.inj aboard)
            exact Or.inl ⟨place, call, wakeAt, found, named⟩
        | refresh call => cases aboard
        | collect labels misses storing plan => cases aboard
        | refreshMany requests storing plan => cases aboard
    | waiting place call =>
        obtain ⟨rfl, _⟩ := Prod.mk.inj (Option.some.inj aboard)
        exact Or.inr
          (orderly.attends leader _ _ _ found there (Or.inl leads))
    | «over» verdict => cases aboard

end Crew

/-! ## Moves of a scheduler -/

/-- What can happen to a scheduler at once. -/
inductive Move (Value : Type) where
  /-- A caller starts a call of one name. -/
  | call (call : SingleCall Value)
  /-- A caller starts the call of a batch. -/
  | callMany (call : BatchCall Value)
  /-- A task takes its turn. -/
  | turn (task : TaskId)
  /-- A task is aborted. -/
  | abort (task : TaskId)
  /-- Something else happens to the cache. -/
  | act (act : Act Value)
  /-- Time passes. -/
  | pass (milliseconds : Nat)
  /-- The tasks whose fetch has ended become ready. -/
  | wake
  /-- The sweeper ticks. -/
  | tick
  /-- Callers hold a number of handles. -/
  | hold (handles : Nat)
  /-- The calls of fetch functions are taken out. -/
  | report

/-- A scheduler and the calls of fetch functions that were taken out of it. -/
structure Logbook (Value : Type) where
  scheduler : Scheduler Value
  reported : List FetchCall

namespace Logbook

variable {Value : Type}

/-- A new scheduler whose sweeper waits by a timer. -/
def startOn
    (timer : Timer) (settings : Settings) (paddings : Nat → List Nat) :
    Logbook Value :=
  { scheduler := .startOn timer settings paddings, reported := [] }

/-- A new scheduler. -/
def start (settings : Settings) (paddings : Nat → List Nat) :
    Logbook Value :=
  startOn Sweeper.periodOf settings paddings

/-- The crew of the scheduler, with all calls there ever were. -/
def crew (logbook : Logbook Value) : Crew Value :=
  logbook.scheduler.crew logbook.reported

theorem orderly_start (settings : Settings) (paddings : Nat → List Nat) :
    (start settings paddings : Logbook Value).crew.Orderly := by
  have noTask : ∀ {task : TaskId} {stage : Stage Value},
      (start settings paddings : Logbook Value).crew.tasks[task]? ≠
        some stage := by
    intro task stage found
    cases found
  have noFlight : ∀ {flight : FlightId} {joined : Flight Value},
      (start settings paddings : Logbook Value).crew.flights[flight]? ≠
        some joined := by
    intro flight joined there
    cases there
  have listed : ∀ {name : String} {flight : FlightId},
      (start settings paddings : Logbook Value).crew.inFlight[name]? =
          some flight ↔
        ∃ joined,
          (start settings paddings : Logbook Value).crew.flights[flight]? =
              some joined ∧ joined.name = name ∧ joined.outcome = none := by
    intro name flight
    constructor
    · intro found
      simp [start, startOn, crew, Scheduler.crew, Scheduler.startOn] at found
    · rintro ⟨joined, there, _⟩
      exact absurd there noFlight
  refine ⟨?_, ⟨fun _ => Nat.zero_le 1, fun _ _ => rfl⟩, ?_⟩
  · exact
      { listed := listed
        led := fun there => absurd there noFlight
        landed := fun there => absurd there noFlight
        nodup := fun there => absurd there noFlight
        members := fun there => absurd there noFlight
        waiters := fun there => absurd there noFlight
        awaited := fun found => absurd found noTask
        aboard := fun found => absurd found noTask }
  · intro task flight call joined found
    exact absurd found noTask

variable [Keyed Value]

/-- What a move does. -/
def after (settings : Settings) (logbook : Logbook Value) :
    Move Value → Logbook Value
  | .call call =>
      { logbook with scheduler := logbook.scheduler.spawn (.single call) }
  | .callMany call =>
      { logbook with scheduler := logbook.scheduler.spawn (.batch call) }
  | .turn task =>
      { logbook with
        scheduler := Scheduler.step settings
          { logbook.scheduler with
            ready := logbook.scheduler.ready.erase task } task }
  | .abort task =>
      { logbook with scheduler := logbook.scheduler.abort task }
  | .act act =>
      { logbook with
        scheduler := { logbook.scheduler with
          cache := Cache.after settings logbook.scheduler.cache act } }
  | .pass milliseconds =>
      { logbook with
        scheduler := { logbook.scheduler with
          time := logbook.scheduler.time + milliseconds } }
  | .wake => { logbook with scheduler := logbook.scheduler.wake }
  | .tick => { logbook with scheduler := logbook.scheduler.tick }
  | .hold handles =>
      { logbook with scheduler := { logbook.scheduler with handles } }
  | .report =>
      { scheduler := { logbook.scheduler with fetchCalls := #[] }
        reported :=
          logbook.reported ++ logbook.scheduler.fetchCalls.toList }

/-- The logbook after moves that are made one after the other. -/
def follow
    (settings : Settings) (logbook : Logbook Value)
    (moves : List (Move Value)) : Logbook Value :=
  moves.foldl (after settings) logbook

@[simp]
theorem follow_nil (settings : Settings) (logbook : Logbook Value) :
    follow settings logbook [] = logbook := rfl

@[simp]
theorem follow_cons
    (settings : Settings) (logbook : Logbook Value)
    (move : Move Value) (moves : List (Move Value)) :
    follow settings logbook (move :: moves) =
      follow settings (after settings logbook move) moves := rfl

theorem follow_append
    (settings : Settings) (logbook : Logbook Value)
    (early late : List (Move Value)) :
    follow settings logbook (early ++ late) =
      follow settings (follow settings logbook early) late :=
  List.foldl_append

/-- Whose doing a move is. -/
inductive Stirred (settings : Settings) (logbook : Logbook Value)
    (move : Move Value) : Prop
  /-- It concerns no task that there is. -/
  | byNobody
      (flights : (after settings logbook move).crew.flights =
        logbook.crew.flights)
      (inFlight : (after settings logbook move).crew.inFlight =
        logbook.crew.inFlight)
      (stages : ∀ {task : TaskId} {stage : Stage Value},
        logbook.crew.tasks[task]? = some stage →
          (after settings logbook move).crew.tasks[task]? = some stage)
  /-- It is the turn or the abort of a task. -/
  | bySomebody {task : TaskId} {ready : List TaskId}
      (own : move = .turn task ∨ move = .abort task)
      (turn : Crew.Turn task { logbook.crew with ready := ready }
        (after settings logbook move).crew)

theorem follow_append_singleton
    (settings : Settings) (logbook : Logbook Value)
    (moves : List (Move Value)) (move : Move Value) :
    follow settings logbook (moves ++ [move]) =
      after settings (follow settings logbook moves) move := by
  rw [follow_append, follow_cons, follow_nil]

section Crews

variable (settings : Settings) {logbook : Logbook Value}

theorem crew_tick : (after settings logbook .tick).crew = logbook.crew := by
  simp only [after, crew]
  rw [Scheduler.tick]
  split
  · rfl
  · split
    next fault next attempted =>
      exact (Scheduler.crew_of_attempt attempted).symm
    next next attempted =>
      exact (Scheduler.crew_of_attempt attempted).symm

theorem crew_report :
    (after settings logbook .report).crew = logbook.crew := by
  simp [after, crew, Scheduler.crew]

theorem cancelled_of_abort {task : TaskId} {stage : Stage Value}
    (found : logbook.crew.tasks[task]? = some stage)
    (running : stage.isOver = false) :
    (after settings logbook (.abort task)).crew.tasks[task]? =
      some (.over .cancelled) := by
  have isThere : logbook.scheduler.tasks[task]? = some stage := found
  have inside := (Array.getElem?_eq_some_iff.mp isThere).1
  simp only [after, crew, Scheduler.abort, isThere, running]
  split
  next finished => cases finished
  next =>
    split
    · apply Array.getElem?_setIfInBounds_self_of_lt
      rw [Scheduler.tasks_leaveFlight]
      exact inside
    · exact Array.getElem?_setIfInBounds_self_of_lt inside

variable (manned : logbook.crew.Manned)

include manned

theorem turn_after (task : TaskId) :
    Crew.Turn task
      { logbook.crew with ready := logbook.crew.ready.erase task }
      (after settings logbook (.turn task)).crew := by
  have erased : (Scheduler.crew
      { logbook.scheduler with
        ready := logbook.scheduler.ready.erase task }
      logbook.reported).Manned := manned.noting _ _
  exact Scheduler.turn_step settings erased

theorem abort_after (task : TaskId) :
    Crew.Turn task logbook.crew
      (after settings logbook (.abort task)).crew :=
  Scheduler.turn_abort manned

theorem moved_after (move : Move Value) :
    logbook.crew.Moved (after settings logbook move).crew := by
  have same : logbook.crew.Moved logbook.crew := by
    have nobody : logbook.crew.Moved
        { logbook.crew with ready := logbook.crew.ready ++ [] } := .wakes []
    rw [List.append_nil] at nobody
    exact nobody
  cases move with
  | call call => exact .spawns rfl
  | callMany call => exact .spawns rfl
  | turn task => exact .turns (turn_after settings manned task)
  | abort task => exact .aborts (abort_after settings manned task)
  | act act => exact same
  | pass milliseconds => exact same
  | wake => exact .wakes _
  | tick =>
      rw [crew_tick]
      exact same
  | hold handles => exact same
  | report =>
      rw [crew_report]
      exact same

theorem stirred_after (move : Move Value) :
    Stirred settings logbook move := by
  cases move with
  | call call =>
      exact .byNobody rfl rfl fun found => Crew.getElem?_push_of_found found _
  | callMany call =>
      exact .byNobody rfl rfl fun found => Crew.getElem?_push_of_found found _
  | turn task =>
      exact .bySomebody (Or.inl rfl) (turn_after settings manned task)
  | abort task =>
      exact .bySomebody (Or.inr rfl) (abort_after settings manned task)
  | act act => exact .byNobody rfl rfl id
  | pass milliseconds => exact .byNobody rfl rfl id
  | wake => exact .byNobody rfl rfl id
  | tick =>
      have same : (after settings logbook .tick).crew = logbook.crew :=
        crew_tick settings
      exact .byNobody (by rw [same]) (by rw [same]) (by rw [same]; exact id)
  | hold handles => exact .byNobody rfl rfl id
  | report =>
      have same : (after settings logbook .report).crew = logbook.crew :=
        crew_report settings
      exact .byNobody (by rw [same]) (by rw [same]) (by rw [same]; exact id)

/-- A task goes on as it is unless it takes its turn or is aborted. -/
theorem stage_after {move : Move Value} {task : TaskId}
    {stage : Stage Value}
    (found : logbook.crew.tasks[task]? = some stage)
    (notTurn : move ≠ .turn task) (notAbort : move ≠ .abort task) :
    (after settings logbook move).crew.tasks[task]? = some stage := by
  cases stirred_after settings manned move with
  | byNobody flights inFlight stages => exact stages found
  | @bySomebody other ready own turn =>
      have apart : task ≠ other := by
        rintro rfl
        exact own.elim notTurn notAbort
      exact turn.stage_other (manned.noting _ _) apart found

end Crews

/-- Whatever happened from the start, the crew is in order. -/
theorem orderly_follow
    (settings : Settings) {logbook : Logbook Value}
    (orderly : logbook.crew.Orderly) (moves : List (Move Value)) :
    (follow settings logbook moves).crew.Orderly := by
  induction moves generalizing logbook with
  | nil => exact orderly
  | cons move moves inductionHypothesis =>
      have moved := moved_after settings orderly.manned move
      exact inductionHypothesis (moved.orderly orderly)

end Logbook

end ReadThrough
