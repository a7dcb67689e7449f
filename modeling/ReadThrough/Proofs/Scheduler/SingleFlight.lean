import Mathlib.Data.List.Induction
import ReadThrough.Proofs.Cache.Places
import ReadThrough.Proofs.Scheduler.Moves

/-!
# One fetch for all callers of a name

Calls of one name that miss share a flight.  Whatever the order of their
arrival, and whatever moves come between them, one of them fetches and the
others learn what it learned.  When the leader ends without a result, the first
who waits takes over and looks the name up again before it fetches.

`SingleFlight` says what holds between two moves and what the next move does;
`Fate` says what can become of a task that waits.
-/

namespace ReadThrough

open Relation (ReflTransGen)

/-! ## What holds between two moves -/

namespace Logbook

variable {Value : Type} [Keyed Value]

/-- What a task does that was told to lead a flight and takes its turn: it looks
the name up without taking part in an election, and only if nothing is live
under the name it calls its fetch. -/
structure Rechecks (name : String) (task : TaskId)
    (before after : Logbook Value) : Prop where
  /-- The lookup changes no entry. -/
  shards : (Cache.final (Cache.peek name) before.scheduler.cache).shards =
    before.scheduler.cache.shards
  /-- The fetch is called if nothing is live under the name, … -/
  fetches : before.scheduler.cache.glimpse name = .ok none →
    after.crew.calls = before.crew.calls ++ [.one task name]
  /-- … and only then.  Otherwise the lookup is all that happens to the
  cache. -/
  refrains : before.scheduler.cache.glimpse name ≠ .ok none →
    after.crew.calls = before.crew.calls ∧
      after.scheduler.cache =
        Cache.final (Cache.peek name) before.scheduler.cache
  /-- A live value or missing record ends the task. -/
  found : ∀ {value : Value},
    before.scheduler.cache.glimpse name = .ok (some (some value)) →
      after.crew.tasks[task]? = some (.over (.returned (.ok (.one value))))
  missing : before.scheduler.cache.glimpse name = .ok (some none) →
    after.crew.tasks[task]? =
      some (.over (.returned (.error (.missingRecord name))))
  /-- So does a clock that cannot be read. -/
  broken : ∀ {fault : Fault},
    before.scheduler.cache.glimpse name = .error fault →
      after.crew.tasks[task]? = some (.over (.broken fault))

/-- What holds of a logbook, whichever move comes next. -/
structure SingleFlight (settings : Settings) (logbook : Logbook Value) :
    Prop where
  /-- No two tasks fetch the same name for themselves and their waiters. -/
  alone : ∀ {task other : TaskId} {name : String},
    logbook.crew.Fetches task name → logbook.crew.Fetches other name →
      task = other
  /-- While somebody fetches a name, its fetch is called once more only when a
  refresh is handed to a new task. -/
  undisturbed : ∀ {task : TaskId} {name : String} (move : Move Value),
    logbook.crew.Fetches task name →
      (after settings logbook move).crew.tasks.size =
          logbook.crew.tasks.size →
        (after settings logbook move).crew.callsOf name =
          logbook.crew.callsOf name
  /-- Nobody calls its own fetch twice. -/
  once : ∀ task, logbook.crew.callsBy task ≤ 1
  /-- Whoever waits for a flight that has not landed leads it or waits for its
  leader, and the leader fetches or is ready to look again. -/
  led : ∀ {task : TaskId} {flight : FlightId} {call : SingleCall Value}
      {joined : Flight Value},
    logbook.crew.tasks[task]? = some (.waiting flight call) →
      logbook.crew.flights[flight]? = some joined →
        joined.outcome = none →
          ∃ leader, joined.leader = some leader ∧
            (task = leader ∨ task ∈ joined.waiting) ∧
              (logbook.crew.Fetches leader joined.name ∨
                leader ∈ logbook.crew.ready)
  /-- A flight lands when its leader ends, and with the same outcome. -/
  lands : ∀ {flight : FlightId} {joined changed : Flight Value}
      {leader : TaskId} {outcome : Except Failure Value}
      (move : Move Value),
    logbook.crew.flights[flight]? = some joined →
      joined.leader = some leader →
        (after settings logbook move).crew.flights[flight]? = some changed →
          changed.outcome = some outcome →
            (after settings logbook move).crew.tasks[leader]? =
                some (.over (.returned (outcome.map .one)))
  /-- A flight that has landed never changes. -/
  landed : ∀ {flight : FlightId} {joined : Flight Value} (move : Move Value),
    logbook.crew.flights[flight]? = some joined → joined.outcome ≠ none →
      (after settings logbook move).crew.flights[flight]? = some joined
  /-- Whoever waits for a flight that has landed is ready, and its next turn
  ends it with the outcome of the flight, without a call of its fetch. -/
  told : ∀ {task : TaskId} {flight : FlightId} {call : SingleCall Value}
      {joined : Flight Value} {outcome : Except Failure Value},
    logbook.crew.tasks[task]? = some (.waiting flight call) →
      logbook.crew.flights[flight]? = some joined →
        joined.outcome = some outcome →
          task ∈ logbook.crew.ready ∧
            (after settings logbook (.turn task)).crew.tasks[task]? =
                some (.over (.returned (outcome.map .one))) ∧
              (after settings logbook (.turn task)).crew.calls =
                logbook.crew.calls
  /-- When the leader of a flight ends without a result, the first who waits
  leads in its place and is ready; the others go on to wait in their order. -/
  handsOver : ∀ {flight : FlightId} {joined : Flight Value}
      {leader : TaskId} {verdict : Verdict Value} (move : Move Value),
    logbook.crew.flights[flight]? = some joined →
      joined.leader = some leader →
        (after settings logbook move).crew.tasks[leader]? =
            some (.over verdict) →
          (∀ result, verdict ≠ .returned result) →
            (after settings logbook move).crew.flights[flight]? =
                some joined.handedOver ∧
              ∀ first, joined.waiting.head? = some first →
                first ∈ (after settings logbook move).crew.ready
  /-- Whoever took a flight over looks the name up again. -/
  rechecks : ∀ {task : TaskId} {flight : FlightId}
      {call : SingleCall Value} {joined : Flight Value},
    logbook.crew.tasks[task]? = some (.waiting flight call) →
      logbook.crew.flights[flight]? = some joined →
        joined.leader = some task →
          Rechecks call.name task logbook
            (after settings logbook (.turn task))

section Moves

variable (settings : Settings) {logbook : Logbook Value}
  {task leader : TaskId} {flight : FlightId} {call : SingleCall Value}
  {joined changed : Flight Value} {outcome : Except Failure Value}

/-- What the turn of a waiting task comes down to. -/
theorem scheduler_turn
    (waits : logbook.crew.tasks[task]? = some (.waiting flight call)) :
    (after settings logbook (.turn task)).scheduler =
      Scheduler.resume settings
        { logbook.scheduler with
          ready := logbook.scheduler.ready.erase task } task flight call := by
  have found : logbook.scheduler.tasks[task]? =
      some (.waiting flight call) := waits
  simp only [after, Scheduler.step, found]

/-- The turn of a task that waits for a leader is wasted. -/
theorem waiting_of_turn
    (found : logbook.crew.tasks[task]? = some (.waiting flight call))
    (there : logbook.crew.flights[flight]? = some joined)
    (unlanded : joined.outcome = none)
    (follows : joined.leader ≠ some task) :
    (after settings logbook (.turn task)).crew.tasks[task]? =
      some (.waiting flight call) := by
  have isThere : logbook.scheduler.flights[flight]? = some joined := there
  have turned := scheduler_turn settings found
  simp only [Scheduler.resume, isThere, unlanded, if_neg follows] at turned
  rw [crew, turned]
  exact found

variable (orderly : logbook.crew.Orderly)

include orderly

theorem told_of_landed
    (waits : logbook.crew.tasks[task]? = some (.waiting flight call))
    (there : logbook.crew.flights[flight]? = some joined)
    (landed : joined.outcome = some outcome) :
    task ∈ logbook.crew.ready ∧
      (after settings logbook (.turn task)).crew.tasks[task]? =
          some (.over (.returned (outcome.map .one))) ∧
        (after settings logbook (.turn task)).crew.calls =
          logbook.crew.calls := by
  have isReady := orderly.attends task flight call joined waits there
    (Or.inr (by simp [landed]))
  have inside := (Array.getElem?_eq_some_iff.mp waits).1
  have isThere : logbook.scheduler.flights[flight]? = some joined := there
  have turned := scheduler_turn settings waits
  simp only [Scheduler.resume, isThere, landed] at turned
  refine ⟨isReady, ?_⟩
  rw [crew, turned]
  rw [Scheduler.closeFlight]
  split
  · exact ⟨Array.getElem?_setIfInBounds_self_of_lt inside, rfl⟩
  · exact ⟨Array.getElem?_setIfInBounds_self_of_lt inside, rfl⟩

/-- The leader of a flight looks its name up again when it takes its turn. -/
theorem rechecks_of_leads
    (coherent : logbook.scheduler.cache.Coherent)
    (waits : logbook.crew.tasks[task]? = some (.waiting flight call))
    (there : logbook.crew.flights[flight]? = some joined)
    (leads : joined.leader = some task) :
    Rechecks call.name task logbook
      (after settings logbook (.turn task)) := by
  have manned := orderly.manned
  have inside := (Array.getElem?_eq_some_iff.mp waits).1
  have isThere : logbook.scheduler.flights[flight]? = some joined := there
  obtain ⟨again, againThere, sameName, _⟩ := manned.aboard waits rfl
  cases there.symm.trans againThere
  have unlanded := manned.open_of_leader there leads
  have listed := manned.listed.mpr ⟨joined, there, rfl, unlanded⟩
  have turned := scheduler_turn settings waits
  simp only [Scheduler.resume, isThere, unlanded, if_pos leads] at turned
  let next : Scheduler Value := { logbook.scheduler with
    ready := logbook.scheduler.ready.erase task }
  have sameCrew : (after settings logbook (.turn task)).crew =
      (Scheduler.lead settings next task flight call).crew
        logbook.reported := by
    rw [crew, turned]
    rfl
  have stillThere : (next.crew logbook.reported).flights[flight]? =
      some joined := there
  have stillListed : (next.crew logbook.reported).inFlight[joined.name]? =
      some flight := listed
  have called := Scheduler.calls_lead settings stillThere stillListed
    sameName leads
  rw [← sameCrew] at called
  refine
    { shards := Cache.shards_final_peek _ _
      fetches := ?_
      refrains := ?_
      found := ?_
      missing := ?_
      broken := ?_ }
  · intro vacant
    obtain ⟨lookup, looked, content⟩ := Cache.peek_of_glimpse coherent vacant
    cases lookup with
    | absent =>
        have looksAgain : Cache.result? (Cache.peek call.name) next.cache =
            some .absent := looked
        rw [called]
        simp only [looksAgain]
        rfl
    | found value refresh => cases content
    | missing refresh => cases content
  · intro live
    have present : Cache.result? (Cache.peek call.name)
        logbook.scheduler.cache ≠ some .absent := fun looked =>
      live (Cache.glimpse_of_peek coherent looked)
    constructor
    · rw [called]
      split
      next looked => exact absurd looked present
      next => exact List.append_nil _
    · rw [turned]
      exact Scheduler.cache_lead settings present
  · intro value live
    obtain ⟨lookup, looked, content⟩ := Cache.peek_of_glimpse coherent live
    cases lookup with
    | absent => cases content
    | found other refresh =>
        cases content
        rw [sameCrew, Scheduler.crew_lead_of_found settings stillThere
          stillListed sameName looked]
        exact Array.getElem?_setIfInBounds_self_of_lt inside
    | missing refresh => cases content
  · intro live
    obtain ⟨lookup, looked, content⟩ := Cache.peek_of_glimpse coherent live
    cases lookup with
    | absent => cases content
    | found value refresh => cases content
    | missing refresh =>
        rw [sameCrew, Scheduler.crew_lead_of_missing settings stillThere
          stillListed sameName looked]
        exact Array.getElem?_setIfInBounds_self_of_lt inside
  · intro fault unread
    obtain ⟨cache, looked⟩ := Cache.peek_breaks_of_glimpse coherent unread
    have attempted : next.attempt (Cache.peek call.name) =
        (.error fault, { next with cache := cache }) := by
      rw [Scheduler.attempt, looked]
    rw [sameCrew, Scheduler.crew_lead_of_fault settings stillThere leads
      attempted]
    exact Array.getElem?_setIfInBounds_self_of_lt inside

/-- What holds between two moves. -/
theorem singleFlight_of_orderly
    (coherent : logbook.scheduler.cache.Coherent) :
    SingleFlight settings logbook := by
  have manned := orderly.manned
  have moved := fun move => moved_after settings manned move
  refine
    { alone := manned.fetches_unique
      undisturbed := ?_
      once := orderly.sparing.once
      led := orderly.led
      lands := ?_
      landed := fun move => (moved move).landed manned
      told := told_of_landed settings orderly
      handsOver := ?_
      rechecks := rechecks_of_leads settings orderly coherent }
  · intro task name move fetches sameSize
    exact (moved move).callsOf_eq manned fetches sameSize
  · intro flight joined changed leader outcome move there leads
      changedThere landed
    have unlanded := manned.open_of_leader there leads
    rcases (moved move).captaincy manned there leads with
      captaincy | ⟨other, stage, otherThere, stillOpen, _, _⟩
    · cases captaincy with
      | leads stillThere =>
          cases changedThere.symm.trans stillThere
          cases unlanded.symm.trans landed
      | lands result landedThere finished =>
          cases changedThere.symm.trans landedThere
          cases landed
          exact finished
      | leaves verdict unanswered leftThere =>
          cases changedThere.symm.trans leftThere
          cases unlanded.symm.trans landed
    · -- The leader is still running, so the flight is still open.
      cases changedThere.symm.trans otherThere
      cases stillOpen.symm.trans landed
  · intro flight joined leader verdict move there leads finished unanswered
    rcases (moved move).captaincy manned there leads with
      captaincy | ⟨other, stage, _, _, found, running⟩
    · cases captaincy with
      | leads stillThere =>
          have mannedAfter := ((moved move).orderly orderly).manned
          have member : leader ∈ joined.members :=
            Flight.mem_members.mpr (Or.inl leads)
          obtain ⟨stage, found, aboard⟩ :=
            mannedAfter.members stillThere member
          cases finished.symm.trans found
          cases aboard
      | lands result landedThere ended =>
          cases finished.symm.trans ended
          exact absurd rfl (unanswered _)
      | leaves other unanswered leftThere ended ready =>
          exact ⟨leftThere, ready⟩
    · cases finished.symm.trans found
      cases running

/-- What can become of a task that waits for a flight, once further moves have
been made. -/
inductive Fate (before : Logbook Value) (moves : List (Move Value))
    (task : TaskId) (flight : FlightId) (call : SingleCall Value) : Prop
  /-- It was aborted. -/
  | aborted (asked : .abort task ∈ moves)
      (finished : (follow settings before moves).crew.tasks[task]? =
        some (.over .cancelled))
  /-- It came to lead the flight. -/
  | leads (early late : List (Move Value)) (split : moves = early ++ late)
      (joined : Flight Value)
      (found : (follow settings before early).crew.tasks[task]? =
        some (.waiting flight call))
      (there : (follow settings before early).crew.flights[flight]? =
        some joined)
      (leads : joined.leader = some task)
  /-- It waits for the leader of the flight. -/
  | waits (joined : Flight Value) (leader : TaskId)
      (found : (follow settings before moves).crew.tasks[task]? =
        some (.waiting flight call))
      (there : (follow settings before moves).crew.flights[flight]? =
        some joined)
      (led : joined.leader = some leader)
  /-- The flight has landed, and it is about to learn the outcome. -/
  | learns (joined : Flight Value) (outcome : Except Failure Value)
      (found : (follow settings before moves).crew.tasks[task]? =
        some (.waiting flight call))
      (there : (follow settings before moves).crew.flights[flight]? =
        some joined)
      (landed : joined.outcome = some outcome)
      (ready : task ∈ (follow settings before moves).crew.ready)
  /-- It has ended with the outcome of the flight and never called its
  fetch. -/
  | told (joined : Flight Value) (outcome : Except Failure Value)
      (there : (follow settings before moves).crew.flights[flight]? =
        some joined)
      (landed : joined.outcome = some outcome)
      (finished : (follow settings before moves).crew.tasks[task]? =
        some (.over (.returned (outcome.map .one))))
      (uncalled :
        (follow settings before moves).crew.callsBy task = 0)

theorem fate_of_waiting (moves : List (Move Value))
    (found : (follow settings logbook moves).crew.tasks[task]? =
      some (.waiting flight call)) :
    Fate settings logbook moves task flight call := by
  have orderlyThen := orderly_follow settings orderly moves
  obtain ⟨joined, there, _, _⟩ := orderlyThen.manned.aboard found rfl
  cases landed : joined.outcome with
  | some outcome =>
      have ready := orderlyThen.attends task flight call joined found there
        (Or.inr (by simp [landed]))
      exact .learns joined outcome found there landed ready
  | none =>
      obtain ⟨leader, leads, _⟩ := orderlyThen.led found there landed
      exact .waits joined leader found there leads

/-- A waiting task has one of its fates again after its own next move. -/
theorem fate_of_move
    (moves : List (Move Value)) (move : Move Value)
    (found : (follow settings logbook moves).crew.tasks[task]? =
      some (.waiting flight call)) :
    Fate settings logbook (moves ++ [move]) task flight call := by
  have orderlyThen := orderly_follow settings orderly moves
  have manned := orderlyThen.manned
  have reached := follow_append_singleton settings logbook moves move
  by_cases aborts : move = .abort task
  · subst aborts
    refine .aborted (by simp) ?_
    rw [reached]
    exact cancelled_of_abort settings found rfl
  by_cases turns : move = .turn task
  · subst turns
    obtain ⟨joined, there, _, _⟩ := manned.aboard found rfl
    cases landed : joined.outcome with
    | some outcome =>
        have told : _ ∧ (after settings (follow settings logbook moves)
            (.turn task)).crew.tasks[task]? = _ ∧ _ :=
          told_of_landed settings orderlyThen found there landed
        obtain ⟨_, finished, calls⟩ := told
        have uncalled : (follow settings logbook moves).crew.callsBy task =
            0 := by
          apply orderlyThen.sparing.pending task
          intro stage stageFound
          cases found.symm.trans stageFound
          rfl
        have moved := moved_after settings manned (.turn task)
        have stillThere := moved.landed manned there (by simp [landed])
        rw [Crew.callsBy, ← calls] at uncalled
        rw [← reached] at finished stillThere uncalled
        exact .told joined outcome stillThere landed finished uncalled
    | none =>
        by_cases leads : joined.leader = some task
        · exact .leads moves [.turn task] rfl joined found there leads
        · apply fate_of_waiting settings orderly
          rw [reached]
          exact waiting_of_turn settings found there landed leads
  · apply fate_of_waiting settings orderly
    rw [reached]
    exact stage_after settings manned found turns aborts

theorem fate_follow
    (found : logbook.crew.tasks[task]? = some (.waiting flight call))
    (moves : List (Move Value)) :
    Fate settings logbook moves task flight call := by
  -- A fate is about where the moves end, so the last move is split off.
  induction moves using List.reverseRecOn with
  | nil => exact fate_of_waiting settings orderly [] found
  | append_singleton moves move inductionHypothesis =>
      have orderlyThen := orderly_follow settings orderly moves
      have manned := orderlyThen.manned
      have moved := moved_after settings manned move
      have reached := follow_append_singleton settings logbook moves move
      cases inductionHypothesis with
      | aborted asked finished =>
          refine .aborted (List.mem_append_left _ asked) ?_
          rw [reached]
          exact (moved.over manned finished).1
      | leads early late split joined foundThen thereThen leadsThen =>
          refine .leads early (late ++ [move]) ?_ joined foundThen thereThen
            leadsThen
          rw [split, List.append_assoc]
      | waits joined leader foundThen =>
          exact fate_of_move settings orderly moves move foundThen
      | learns joined outcome foundThen =>
          exact fate_of_move settings orderly moves move foundThen
      | told joined outcome there landed finished uncalled =>
          obtain ⟨still, same⟩ := moved.over manned finished
          have stillThere := moved.landed manned there (by simp [landed])
          rw [← reached] at still same stillThere
          exact .told joined outcome stillThere landed still
            (same.trans uncalled)

end Moves

/-- What a move does to the cache is what acts do. -/
theorem runs_after
    (settings : Settings) (logbook : Logbook Value) (move : Move Value) :
    Cache.Runs settings logbook.scheduler.cache
      (after settings logbook move).scheduler.cache := by
  cases move with
  | turn task =>
      exact Scheduler.runs_step settings
        { logbook.scheduler with
          ready := logbook.scheduler.ready.erase task } task
  | abort task =>
      rw [after, Scheduler.cache_abort]
      exact refl_of (Cache.Runs settings) _
  | act act => exact ⟨[act], rfl⟩
  | tick => exact Scheduler.runs_tick settings logbook.scheduler
  | _ => exact refl_of (Cache.Runs settings) _

theorem coherent_follow
    {logbook : Logbook Value} (coherent : logbook.scheduler.cache.Coherent)
    (settings : Settings) (moves : List (Move Value)) :
    (follow settings logbook moves).scheduler.cache.Coherent := by
  induction moves generalizing logbook with
  | nil => exact coherent
  | cons move moves inductionHypothesis =>
      exact inductionHypothesis
        (coherent.of_runs (runs_after settings logbook move))

/-- Whatever happened from the start, the callers of a name share one fetch at a
time, and what can become of those who wait is one of their fates. -/
theorem single_flight
    {settings : Settings} (valid : settings.Valid)
    (paddings : Nat → List Nat) (early late : List (Move Value)) :
    SingleFlight settings (follow settings (start settings paddings) early) ∧
      ∀ {task : TaskId} {flight : FlightId} {call : SingleCall Value},
        (follow settings (start settings paddings) early).crew.tasks[task]? =
            some (.waiting flight call) →
          Fate settings (follow settings (start settings paddings) early)
            late task flight call := by
  have orderly :=
    orderly_follow settings (orderly_start settings paddings) early
  have coherent : (follow settings (start settings paddings : Logbook Value)
      early).scheduler.cache.Coherent :=
    coherent_follow (Cache.coherent_empty valid paddings) settings early
  refine ⟨singleFlight_of_orderly settings orderly coherent, ?_⟩
  intro task flight call found
  exact fate_follow settings orderly found late

/-- A call whose fetch takes five milliseconds. -/
def patient : SingleCall NameTag :=
  { name := "a", storing := .byName,
    plan := { delay := 5, advance := 0, ending := .returns ⟨"a", []⟩ } }

/-- Two calls of one name, of which the first fetches and the second waits. -/
def shared : List (Move NameTag) :=
  [.call patient, .call patient, .turn 0, .turn 1]

/-- The first call is aborted, and the second takes over. -/
def takenOver : List (Move NameTag) :=
  [.abort 0, .turn 1, .pass 5, .wake, .turn 1]

/-- The first call is aborted, and before the second takes over somebody writes
what they wanted. -/
def suppliedMeanwhile : List (Move NameTag) :=
  shared ++ [.abort 0, .act (.write ⟨"a", some ⟨"a", ["x"]⟩, []⟩)]

/-- If nothing comes between, the second call fetches itself; if its name has been
written, it finds that and does not fetch. -/
theorem single_flight_takenOver :
    let new : Logbook NameTag := start Settings.twoShards fun _ => []
    let before := follow Settings.twoShards new shared
    let fetched := follow Settings.twoShards before takenOver
    let supplied := follow Settings.twoShards new suppliedMeanwhile
    let found := after Settings.twoShards supplied (.turn 1)
    Settings.twoShards.Valid ∧
      SingleFlight Settings.twoShards before ∧
        before.crew.tasks[1]? = some (.waiting 0 patient) ∧
          Fate Settings.twoShards before takenOver 1 0 patient ∧
            fetched.crew.calls = [.one 0 "a", .one 1 "a"] ∧
              fetched.crew.tasks[1]? =
                some (.over (.returned (.ok (.one ⟨"a", []⟩)))) ∧
        supplied.scheduler.cache.glimpse "a" =
            .ok (some (some ⟨"a", ["x"]⟩)) ∧
          Rechecks "a" 1 supplied found ∧
            found.crew.calls = [.one 0 "a"] ∧
              found.crew.tasks[1]? =
                some (.over (.returned (.ok (.one ⟨"a", ["x"]⟩)))) := by
  have valid : Settings.twoShards.Valid := by decide
  have stated := single_flight valid (fun _ => []) shared takenOver
  have waits : (follow Settings.twoShards
      (start Settings.twoShards fun _ => []) shared).crew.tasks[1]? =
        some (.waiting 0 patient) := by
    rfl
  have live : (follow Settings.twoShards (start Settings.twoShards fun _ => [])
      suppliedMeanwhile).scheduler.cache.glimpse "a" =
        .ok (some (some ⟨"a", ["x"]⟩)) := by
    rfl
  have waitsThen : (follow Settings.twoShards
      (start Settings.twoShards fun _ => [])
        suppliedMeanwhile).crew.tasks[1]? = some (.waiting 0 patient) := by
    rfl
  have handedOver : (follow Settings.twoShards
      (start Settings.twoShards fun _ => [])
        suppliedMeanwhile).crew.flights[0]? =
      some ⟨"a", some 1, [], none⟩ := by
    rfl
  have rechecks := (single_flight valid (fun _ => []) suppliedMeanwhile
    takenOver).1.rechecks waitsThen handedOver rfl
  exact ⟨valid, stated.1, waits, stated.2 waits, by rfl, by rfl, live,
    rechecks, by rfl, rechecks.found live⟩

end Logbook

end ReadThrough
