import ReadThrough.Proofs.Scheduler.Freshness
import ReadThrough.Proofs.Scheduler.SoleRequest
import ReadThrough.Proofs.Scheduler.Sparing

/-!
# Calls whose fetches fail

When the fetch of a flight's leader fails, and the cache takes no note of the
failure, the flight lands with it and the name is no longer in flight.
Whoever waits learns of the same failure.  The next call of the name finds it
absent again and calls its own fetch.

`failed_fetch_leaves_store` says so, and that none of this changes what is
stored.
-/

namespace ReadThrough

variable {Value : Type}

namespace Cache

variable [Keyed Value] {settings : Settings} {cache : Cache Value}
  {storing : Storing} {name : String} {plan : Plan Value} {failure : Failure}

variable (settings storing name) in
/-- A failure that is taken no note of is what the waiting callers learn. -/
theorem ends_concludeFlight_of_fails
    (failed : plan.ending = .fails failure)
    (spares : plan.ending.spares fun failure =>
      failure.isNotFound && settings.storesMissing)
    (cache : Cache Value) :
    Ends (concludeFlight settings storing name plan) cache
      (fun outcome _ => outcome = .error failure)
      (fun fault _ => fault = .durationOverflow) := by
  have unnoted := Ending.unnoted_of_fails spares failed
  rw [concludeFlight, ends_play, Clock.advance, failed]
  split
  next fault moved =>
    split at moved
    · cases moved
    · cases moved
      rfl
  next clock moved =>
    dsimp only
    rw [storeOutcome_of_unnoted unnoted]
    exact ends_pure.mpr rfl

/-- A call finds the name absent, both when it looks the name up and when it
looks again before it fetches. -/
structure Misses (settings : Settings) (cache : Cache Value) (name : String) :
    Prop where
  first : answer (lookup settings name) cache = .ok .absent
  again : answer (peek name) (final (lookup settings name) cache) =
    .ok .absent

omit [Keyed Value] in
theorem misses_of_still
    (still : cache.clock.read.2 = cache.clock)
    (absent : answer (lookup settings name) cache = .ok .absent) :
    cache.Misses settings name :=
  ⟨absent, (peek_of_absent still absent).1⟩

end Cache

namespace Crew

/-- What has come of a task that leads a flight and whose fetch fails. -/
inductive Failed (task : TaskId) (flight : FlightId) (call : SingleCall Value)
    (failure : Failure) (crew : Crew Value) : Prop
  /-- The fetch is not over. -/
  | sleeps {wakeAt : Nat}
      (asleep : crew.tasks[task]? =
        some (.asleep (.complete flight call) wakeAt))
  /-- The clock could not be moved. -/
  | breaks
      (finished : crew.tasks[task]? = some (.over (.broken .durationOverflow)))
  /-- The task has ended with the failure, the flight has landed with it, and
  the name is no longer in flight. -/
  | lands {landed : Flight Value}
      (finished : crew.tasks[task]? =
        some (.over (.returned (.error failure))))
      (there : crew.flights[flight]? = some landed)
      (outcome : landed.outcome = some (.error failure))
      (closed : crew.inFlight[call.name]? = none)

end Crew

namespace Scheduler

variable [Keyed Value] {settings : Settings} {scheduler : Scheduler Value}
  {reported : List FetchCall} {task : TaskId} {flight : FlightId}
  {joined : Flight Value} {call : SingleCall Value} {failure : Failure}

section Failed

variable (inside : task < scheduler.tasks.size)
  (there : (scheduler.crew reported).flights[flight]? = some joined)
  (listed : (scheduler.crew reported).inFlight[call.name]? = some flight)
  (sameName : joined.name = call.name)
  (failed : call.plan.ending = .fails failure)
  (spares : (Errand.complete flight call).spares settings)

include inside there listed sameName failed spares

theorem failed_conclude :
    ((conclude settings scheduler task
      (.complete flight call)).crew reported).Failed task flight call
        failure := by
  have ends := Cache.ends_iff_answer.mp
    (Cache.ends_concludeFlight_of_fails settings call.storing call.name failed
      spares scheduler.cache)
  rw [conclude, attempt_eq]
  cases answered : Cache.answer (Cache.concludeFlight settings call.storing
      call.name call.plan) scheduler.cache with
  | error fault =>
      rw [answered] at ends
      cases ends
      refine .breaks ?_
      simp only [crew, finish, setStage, tasks_leaveFlight]
      exact Array.getElem?_setIfInBounds_self_of_lt inside
  | ok outcome =>
      rw [answered] at ends
      cases ends
      dsimp only
      rw [← sameName] at listed
      let next : Scheduler Value := { scheduler with
        cache := Cache.final (Cache.concludeFlight settings call.storing
          call.name call.plan) scheduler.cache }
      have seated : (next.crew reported).flights[flight]? = some joined := there
      have landing : (next.land task flight joined.name
          (.error failure)).crew reported = _ := crew_land seated listed _
      rw [sameName] at landing
      rw [landing]
      refine .lands ?_
        (Crew.getElem?_setIfInBounds_self_of_found there _) rfl ?_
      · exact Array.getElem?_setIfInBounds_self_of_lt inside
      · rw [← sameName]
        exact Std.ExtTreeMap.getElem?_erase_self

theorem failed_await :
    ((await settings scheduler task
      (.complete flight call)).crew reported).Failed task flight call
        failure := by
  rw [await]
  split
  · exact failed_conclude inside there listed sameName failed spares
  · exact .sleeps (Array.getElem?_setIfInBounds_self_of_lt inside)

end Failed

variable (settings task) in
/-- A call that finds its name absent, when nobody awaits the name, calls its
fetch. -/
theorem fetchCalls_beginSingle
    (vacant : scheduler.Vacant call.name)
    (misses : scheduler.cache.Misses settings call.name) :
    (beginSingle settings scheduler task call).fetchCalls =
      scheduler.fetchCalls.push (.one task call.name) := by
  obtain ⟨flight, boarded, same, joins⟩ := join_of_vacant settings
    { scheduler with
      cache := Cache.final (Cache.lookup settings call.name)
        scheduler.cache } task vacant
  have cached : boarded.cache =
      Cache.final (Cache.lookup settings call.name) scheduler.cache :=
    cache_of_ashore same
  have called : boarded.fetchCalls = scheduler.fetchCalls :=
    (fetchCalls_of_ashore same).trans rfl
  rw [beginSingle, attempt_eq, misses.first]
  dsimp only
  rw [joins, lead, attempt_eq, cached, misses.again]
  dsimp only
  rw [fetchCalls_await]
  exact congrArg (·.push (.one task call.name)) called

end Scheduler

namespace Logbook

variable [Keyed Value] {settings : Settings} {logbook : Logbook Value}
  {task : TaskId} {flight : FlightId} {joined : Flight Value}
  {call : SingleCall Value} {failure : Failure}

/-! ## The leader of a flight -/

/-- A task that leads a flight goes on with its fetch when it takes its turn. -/
inductive Fetching (logbook : Logbook Value) (task : TaskId)
    (flight : FlightId) (call : SingleCall Value) : Prop
  /-- It has called the fetch. -/
  | asleep {wakeAt : Nat}
      (found : logbook.crew.tasks[task]? =
        some (.asleep (.complete flight call) wakeAt))
  /-- It was told to lead, and finds nothing when it looks again. -/
  | again {joined : Flight Value}
      (found : logbook.crew.tasks[task]? = some (.waiting flight call))
      (there : logbook.crew.flights[flight]? = some joined)
      (leads : joined.leader = some task)
      (absent : Cache.answer (Cache.peek call.name)
        logbook.scheduler.cache = .ok .absent)

/-- What can become of a task that waits for a flight which has landed with a
failure, once further moves have been made. -/
inductive Learns (settings : Settings) (failure : Failure) (task : TaskId)
    (moves : List (Move Value)) (later : Logbook Value) : Prop
  /-- Its next turn ends it with the failure and calls no fetch. -/
  | ready (ready : task ∈ later.crew.ready)
      (told : (after settings later (.turn task)).crew.tasks[task]? =
        some (.over (.returned (.error failure))))
      (uncalled : (after settings later (.turn task)).crew.calls =
        later.crew.calls)
  /-- It has ended with the failure and never called its fetch. -/
  | told
      (finished : later.crew.tasks[task]? =
        some (.over (.returned (.error failure))))
      (uncalled : later.crew.callsBy task = 0)
  /-- It was aborted. -/
  | aborted (asked : .abort task ∈ moves)
      (finished : later.crew.tasks[task]? = some (.over .cancelled))

section Orderly

variable (orderly : logbook.crew.Orderly)

include orderly

theorem failed_of_fetching
    (fetching : logbook.Fetching task flight call)
    (failed : call.plan.ending = .fails failure)
    (spares : (Errand.complete flight call).spares settings) :
    (after settings logbook (.turn task)).crew.Failed task flight call
      failure := by
  have manned := orderly.manned
  have listed : ∀ {joined : Flight Value},
      logbook.crew.flights[flight]? = some joined →
        joined.name = call.name → joined.leader = some task →
          logbook.crew.inFlight[call.name]? = some flight := by
    intro joined there sameName leads
    exact manned.listed.mpr
      ⟨joined, there, sameName, manned.open_of_leader there leads⟩
  cases fetching with
  | @asleep wakeAt found =>
      have inside := (Array.getElem?_eq_some_iff.mp found).1
      have isThere : logbook.scheduler.tasks[task]? =
          some (.asleep (.complete flight call) wakeAt) := found
      obtain ⟨joined, there, sameName, leads | ⟨⟨_, waits⟩, _⟩⟩ :=
        manned.aboard found rfl
      · simp only [after, Scheduler.step, isThere]
        split
        · exact Scheduler.failed_conclude inside there
            (listed there sameName leads) sameName failed spares
        · exact .sleeps found
      · cases waits
  | @again joined found there leads absent =>
      have inside := (Array.getElem?_eq_some_iff.mp found).1
      obtain ⟨_, againThere, sameName, _⟩ := manned.aboard found rfl
      cases there.symm.trans againThere
      have isThere : logbook.scheduler.flights[flight]? = some joined := there
      have turned := scheduler_turn settings found
      simp only [Scheduler.resume, isThere,
        manned.open_of_leader there leads, if_pos leads, Scheduler.lead,
        Scheduler.attempt_eq, absent] at turned
      rw [crew, turned]
      exact Scheduler.failed_await inside there (listed there sameName leads)
        sameName failed spares

theorem learns_follow
    (waits : logbook.crew.tasks[task]? = some (.waiting flight call))
    (there : logbook.crew.flights[flight]? = some joined)
    (landed : joined.outcome = some (.error failure))
    (moves : List (Move Value)) :
    Learns settings failure task moves (follow settings logbook moves) := by
  have isLanded : joined.outcome ≠ none := by simp [landed]
  have still := landed_follow settings orderly there isLanded
  have manned : ∀ early : List (Move Value),
      (follow settings logbook early).crew.Manned := fun early =>
    (orderly_follow settings orderly early).manned
  -- Nobody leads a flight that has landed.
  have unled : ∀ {early : List (Move Value)} {again : Flight Value}
      {leader : TaskId},
      (follow settings logbook early).crew.flights[flight]? = some again →
        again.leader ≠ some leader := by
    intro early again leader againThere leads
    cases (still early).symm.trans againThere
    have nobody := (manned early).landed againThere isLanded
    cases nobody.symm.trans leads
  cases fate_follow settings orderly waits moves with
  | aborted asked finished => exact .aborted asked finished
  | leads early late split again found againThere leads =>
      exact absurd leads (unled againThere)
  | waits again leader found againThere leads =>
      exact absurd leads (unled againThere)
  | learns again outcome found againThere given ready =>
      cases (still moves).symm.trans againThere
      cases landed.symm.trans given
      obtain ⟨_, told, uncalled⟩ := told_of_landed settings
        (orderly_follow settings orderly moves) found againThere landed
      exact .ready ready told uncalled
  | told again outcome againThere given finished uncalled =>
      cases (still moves).symm.trans againThere
      cases landed.symm.trans given
      exact .told finished uncalled

end Orderly

/-! ## The next call -/

theorem failed_of_misses
    (manned : logbook.crew.Manned)
    (unbegun : logbook.crew.tasks[task]? = some (.single call))
    (unawaited : ∀ other, ¬ logbook.crew.Awaits other call.name)
    (misses : logbook.scheduler.cache.Misses settings call.name)
    (failed : call.plan.ending = .fails failure)
    (spares : (Errand.complete flight call).spares settings) :
    ∃ flight, (after settings logbook (.turn task)).crew.Failed task flight
      call failure := by
  have found : logbook.scheduler.tasks[task]? = some (.single call) := unbegun
  have inside := (Array.getElem?_eq_some_iff.mp found).1
  let next : Scheduler Value := { logbook.scheduler with
    ready := logbook.scheduler.ready.erase task
    cache := Cache.final (Cache.lookup settings call.name)
      logbook.scheduler.cache }
  have seated : (next.crew logbook.reported).Manned := manned.noting _ _
  have joins : Scheduler.Joined settings next task call
      (Scheduler.join settings next task call) :=
    Scheduler.joined_join settings seated
  simp only [after, crew, Scheduler.step, found, Scheduler.beginSingle,
    Scheduler.attempt_eq, misses.first]
  change ∃ flight, ((Scheduler.join settings next task call).crew
    logbook.reported).Failed task flight call failure
  generalize Scheduler.join settings next task call = joined at joins ⊢
  cases joins with
  | @waits flight joined leader listed there led unlanded =>
      have member : leader ∈ joined.members :=
        Flight.mem_members.mpr (Or.inl led)
      exact absurd ((seated.awaits_iff_mem listed there).mpr member)
        (unawaited leader)
  | @leads flight boarded boards =>
      refine ⟨flight, ?_⟩
      rw [Scheduler.lead, Scheduler.attempt_eq, boards.cache, misses.again]
      exact Scheduler.failed_await (boards.tasks ▸ inside) boards.seat
        boards.listed rfl failed spares

theorem calls_of_misses
    (manned : logbook.crew.Manned)
    (unbegun : logbook.crew.tasks[task]? = some (.single call))
    (unawaited : ∀ other, ¬ logbook.crew.Awaits other call.name)
    (misses : logbook.scheduler.cache.Misses settings call.name) :
    (after settings logbook (.turn task)).crew.calls =
      logbook.crew.calls ++ [.one task call.name] := by
  have found : logbook.scheduler.tasks[task]? = some (.single call) := unbegun
  have seated : (Scheduler.crew { logbook.scheduler with
      ready := logbook.scheduler.ready.erase task }
      logbook.reported).Manned := manned.noting _ _
  have vacant := Scheduler.vacant_of_unawaited seated unawaited
  have called :=
    Scheduler.fetchCalls_beginSingle settings task vacant misses
  simp only [after, Scheduler.step, found, crew, Scheduler.crew, called,
    Array.toList_push, List.append_assoc]

/-- What fetches do that fail or break off, and with no failure that the cache
takes note of. -/
structure Harmless (settings : Settings) (before : Logbook Value) : Prop where
  /-- A task whose fetch fails so leaves the shards and routes as its first
  lookups have left them, whichever turn it takes. -/
  turns : ∀ {task stage}, before.crew.tasks[task]? = some stage →
    (∀ errand, stage.Undertakes settings before.scheduler.cache errand →
      errand.spares settings) →
      Cache.Untouched (stage.reads settings before.scheduler.cache)
        (after settings before (.turn task)).scheduler.cache
  /-- An aborted task leaves the whole cache as it is. -/
  aborts : ∀ task, (after settings before (.abort task)).scheduler.cache =
    before.scheduler.cache
  /-- As long as there are no other fetches, and nothing is written, deleted or
  swept, the cache stores what it did. -/
  stores : ∀ moves, before.scheduler.Spares settings →
    (∀ move ∈ moves, move.Spares settings) →
      Cache.Alike before.scheduler.cache
        (follow settings before moves).scheduler.cache
  /-- A flight whose leader's fetch fails so lands with the failure, and the
  name is no longer in flight. -/
  lands : ∀ {task flight call failure}, before.Fetching task flight call →
    call.plan.ending = .fails failure →
      (Errand.complete flight call).spares settings →
        (after settings before (.turn task)).crew.Failed task flight call
          failure
  /-- Whoever waits for a flight that has landed with a failure learns this
  failure and never calls its own fetch, unless it is aborted. -/
  learns : ∀ {task flight call joined failure},
    before.crew.tasks[task]? = some (.waiting flight call) →
      before.crew.flights[flight]? = some joined →
        joined.outcome = some (.error failure) →
          ∀ moves, Learns settings failure task moves
            (follow settings before moves)
  /-- A call of a name that it finds absent, and that nobody awaits, calls its
  fetch, which can fail in the same way. -/
  calls : ∀ {task call}, before.crew.tasks[task]? = some (.single call) →
    (∀ other, ¬ before.crew.Awaits other call.name) →
      before.scheduler.cache.Misses settings call.name →
        (after settings before (.turn task)).crew.calls =
            before.crew.calls ++ [.one task call.name] ∧
          ∀ {flight failure}, call.plan.ending = .fails failure →
            (Errand.complete flight call).spares settings →
              ∃ joined, (after settings before (.turn task)).crew.Failed
                task joined call failure

/-- Whatever has happened to a new cache, fetches that fail or break off are
harmless to it. -/
theorem failed_fetch_leaves_store
    (settings : Settings) (paddings : Nat → List Nat)
    (incidents : List (Incident Value)) :
    Harmless settings
      (undergoAll settings (start settings paddings) incidents) := by
  let before := undergoAll settings (start settings paddings) incidents
  have orderly : before.crew.Orderly := orderly_undergoAll settings
    (orderly_start settings paddings) incidents
  refine ⟨?turns, ?aborts, ?stores, ?lands, ?learns, ?calls⟩
  case turns =>
    intro task stage found spares
    let running : Scheduler Value := { before.scheduler with
      ready := before.scheduler.ready.erase task }
    have there : running.tasks[task]? = some stage := found
    exact Scheduler.untouched_step there spares
  case aborts => exact fun task => before.scheduler.cache_abort task
  case stores =>
    exact fun moves spares spared => alike_follow spares moves spared
  case lands =>
    exact fun fetching failed spares =>
      failed_of_fetching orderly fetching failed spares
  case learns =>
    exact fun waits there landed moves =>
      learns_follow orderly waits there landed moves
  case calls =>
    intro task call unbegun unawaited misses
    exact ⟨calls_of_misses orderly.manned unbegun unawaited misses,
      fun failed spares => failed_of_misses orderly.manned unbegun unawaited
        misses failed spares⟩

/-- A call whose fetch fails after five milliseconds. -/
def outage : SingleCall NameTag :=
  ⟨"a", .byName, ⟨5, 0, .fails (.fetchFailed "down")⟩⟩

/-- Two calls of one name share a fetch that is about to fail, and an entry is
stored under another name. -/
def sharedOutage : List (Incident NameTag) :=
  [.move (.call outage), .move (.call outage), .move (.turn 0),
    .move (.turn 1), .move (.pass 5), .move .wake,
    .operation (.act (.write ⟨"b", some ⟨"b", ["x"]⟩, ["x"]⟩))]

/-- The fetch has failed. -/
def landedOutage : List (Incident NameTag) :=
  sharedOutage ++ [.move (.turn 0)]

/-- The other call has been told, and a third one is made. -/
def outlastedOutage : List (Incident NameTag) :=
  landedOutage ++ [.move (.turn 1), .move (.call outage)]

/-- What is left of those incidents. -/
def afterOutage (incidents : List (Incident NameTag)) : Logbook NameTag :=
  undergoAll Settings.twoShards (start Settings.twoShards fun _ => []) incidents

/-- Both calls learn of the failure, the entry stays, and a third call fetches
again. -/
theorem failed_fetch_leaves_store_shared :
    let settings := Settings.twoShards
    let before := afterOutage sharedOutage
    let landed := afterOutage landedOutage
    let later := afterOutage outlastedOutage
    before.scheduler.cache.size = 1 ∧
      Cache.Untouched before.scheduler.cache
        (after settings before (.turn 0)).scheduler.cache ∧
      Cache.Alike before.scheduler.cache
        (follow settings before [.turn 0, .abort 1]).scheduler.cache ∧
      (after settings before (.turn 0)).crew.Failed 0 0 outage
        (.fetchFailed "down") ∧
      Learns settings (.fetchFailed "down") 1 [.turn 1]
        (follow settings landed [.turn 1]) ∧
      (after settings later (.turn 2)).crew.calls =
          later.crew.calls ++ [.one 2 outage.name] ∧
        ∃ flight, (after settings later (.turn 2)).crew.Failed 2 flight
          outage (.fetchFailed "down") := by
  have size : (afterOutage sharedOutage).scheduler.cache.size = 1 := by
    decide +kernel
  have asleep : (afterOutage sharedOutage).crew.tasks[0]? =
      some (.asleep (.complete 0 outage) 5) := by rfl
  have waits : (afterOutage sharedOutage).crew.tasks[1]? =
      some (.waiting 0 outage) := by rfl
  have count : (afterOutage sharedOutage).scheduler.tasks.size = 2 := by rfl
  have spares : (Errand.complete 0 outage).spares Settings.twoShards := by
    decide
  have stillWaits : (afterOutage landedOutage).crew.tasks[1]? =
      some (.waiting 0 outage) := by rfl
  have there : (afterOutage landedOutage).crew.flights[0]? =
      some ⟨"a", none, [], some (.error (.fetchFailed "down"))⟩ := by rfl
  have unbegun : (afterOutage outlastedOutage).crew.tasks[2]? =
      some (.single outage) := by rfl
  have unlisted : (afterOutage outlastedOutage).crew.inFlight[
      outage.name]? = none := by rfl
  have still : (afterOutage outlastedOutage).scheduler.cache.clock.read.2 =
      (afterOutage outlastedOutage).scheduler.cache.clock := by decide +kernel
  have absent : Cache.answer (Cache.lookup Settings.twoShards outage.name)
      (afterOutage outlastedOutage).scheduler.cache = .ok .absent := by
    decide +kernel
  dsimp only [afterOutage] at *
  have stated := fun incidents : List (Incident NameTag) =>
    failed_fetch_leaves_store Settings.twoShards (fun _ => []) incidents
  have unawaited : ∀ other, ¬ (undergoAll Settings.twoShards
      (start Settings.twoShards fun _ => [])
        outlastedOutage).crew.Awaits other outage.name := by
    intro other awaits
    have manned := (orderly_undergoAll Settings.twoShards
      (orderly_start Settings.twoShards fun _ => []) outlastedOutage).manned
    obtain ⟨flight, _, listed, _⟩ := manned.listed_of_awaits awaits
    cases unlisted.symm.trans listed
  obtain ⟨called, again⟩ :=
    (stated outlastedOutage).calls unbegun unawaited
      (Cache.misses_of_still still absent)
  refine ⟨size, (stated sharedOutage).turns asleep ?_,
    (stated sharedOutage).stores _ ?_ ?_,
    (stated sharedOutage).lands (.asleep asleep) rfl spares,
    (stated landedOutage).learns stillWaits there rfl [.turn 1],
    called, again rfl spares⟩
  · intro errand undertakes
    cases undertakes with
    | asleep => exact spares
  · intro task stage found
    have inside := (Array.getElem?_eq_some_iff.mp found).1
    rw [count] at inside
    rcases task with _ | _ | task
    · cases asleep.symm.trans found
      exact spares
    · cases waits.symm.trans found
      exact spares
    · omega
  · exact List.forall_mem_cons.mpr ⟨trivial,
      List.forall_mem_cons.mpr ⟨trivial, List.forall_mem_nil _⟩⟩

end Logbook

end ReadThrough
