import ReadThrough.Proofs.Cache.Faults
import ReadThrough.Proofs.Scheduler.Ticks

/-!
# Valid settings suffice

A scheduler is `Sound` when the fetches that its tasks still await do not break
off themselves, and the tasks that a fault has broken off have met a write whose
aliases conflicted.  A turn keeps that, because a task ends in the fault of its
last act.

`valid_settings_suffice` says for whole runs that nothing but such a write ends
in a fault.
-/

namespace ReadThrough

open Std (ExtTreeMap)

variable {Value : Type}

/-- A task will not break off by a fetch of its own, and if it was broken off
then by a write whose aliases conflicted. -/
def Stage.Sound : Stage Value → Prop
  | .single call => call.plan.Unbroken
  | .batch call => ∀ plan ∈ call.plans, plan.Unbroken
  | .called errand => errand.operation.Unbroken
  | .asleep errand _ => errand.operation.Unbroken
  | .waiting _ call => call.plan.Unbroken
  | .over (.broken fault) => fault.IsAliasConflict
  | .over _ => True

/-- All fetches of a batch take an unbroken course. -/
theorem BatchCall.planAt_unbroken
    {call : BatchCall Value} (unbroken : ∀ plan ∈ call.plans, plan.Unbroken)
    (number : Nat) : (call.planAt number).Unbroken := by
  have last : (call.plans.getLastD idlePlan).Unbroken := by
    rw [List.getLastD_eq_getLast?]
    cases found : call.plans.getLast? with
    | none => exact nofun
    | some plan => exact unbroken plan (List.mem_of_getLast? found)
  rw [planAt]
  cases found : call.plans[number]? with
  | none => exact last
  | some plan => exact unbroken plan (List.mem_of_getElem? found)

namespace Scheduler

/-- All tasks are sound. -/
def Sound (scheduler : Scheduler Value) : Prop :=
  ∀ (task : TaskId) (stage : Stage Value),
    scheduler.tasks[task]? = some stage → stage.Sound

section Sound

variable {scheduler next : Scheduler Value} (sound : scheduler.Sound)

include sound

theorem Sound.of_tasks (same : next.tasks = scheduler.tasks) : next.Sound :=
  fun task stage found => sound task stage (same ▸ found)

theorem Sound.setStage
    {stage : Stage Value} (good : stage.Sound) (task : TaskId) :
    (scheduler.setStage task stage).Sound := by
  intro other found there
  rw [Scheduler.setStage, Array.getElem?_setIfInBounds] at there
  split at there
  · split at there
    · cases there
      exact good
    · cases there
  · exact sound other found there

theorem Sound.answer
    (task : TaskId) (result : Except Failure (Reply Value)) :
    (scheduler.answer task result).Sound :=
  sound.setStage (show Stage.Sound (.over (.returned result)) from trivial)
    task

theorem Sound.land
    (task : TaskId) (flight : FlightId) (name : String)
    (outcome : Except Failure Value) :
    (scheduler.land task flight name outcome).Sound := by
  have same := congrArg Scheduler.tasks
    (ashore_land scheduler task flight name outcome)
  exact (sound.answer task (outcome.map .one)).of_tasks same

theorem Sound.spawn {stage : Stage Value} (good : stage.Sound) :
    (scheduler.spawn stage).Sound := by
  intro other found there
  rw [Scheduler.spawn, Array.getElem?_push] at there
  split at there
  · cases there
    exact good
  · exact sound other found there

theorem Sound.refreshIf
    {call : SingleCall Value} (unbroken : call.plan.Unbroken)
    (task : TaskId) (elected : Bool) :
    (scheduler.refreshIf task elected call).Sound := by
  rw [Scheduler.refreshIf]
  split
  · exact (sound.of_tasks rfl).spawn
      (show Stage.Sound (.called (.refresh call)) from unbroken)
  · exact sound

end Sound

/-! ## Turns -/

section Turns

variable [Keyed Value] {settings : Settings} {scheduler : Scheduler Value}
  (governed : Cache.Governed settings scheduler.cache)
  (sound : scheduler.Sound) (task : TaskId)

include governed sound

/-- Whoever carries out an errand is broken off by a conflict, if at all. -/
theorem sound_conclude
    {errand : Errand Value} (unbroken : errand.operation.Unbroken)
    (timed : Cache.Each settings Cache.InTime scheduler.cache
      (errand.operation.acts settings scheduler.cache)) :
    (conclude settings scheduler task errand).Sound := by
  have ended : Stage.Sound
      (.over (errand.verdict settings scheduler.cache)) := by
    rcases errand.verdict_cases settings scheduler.cache with
      ⟨reply, returned, _⟩ | ⟨fault, broken, answered⟩
    · rw [returned]
      trivial
    · rw [broken]
      have seated : errand.operation.Seated settings.shardCount := by
        cases errand with
        | _ => trivial
      obtain ⟨_, _, _, conflict, _⟩ :=
        governed.fault_of_operation unbroken seated timed answered
      exact conflict
  have same := tasks_of_ashore (ashore_conclude scheduler task settings errand)
  exact (sound.setStage ended task).of_tasks (same.trans rfl)

variable (scheduler) in
theorem sound_await
    {errand : Errand Value} (unbroken : errand.operation.Unbroken)
    (timed : Cache.Each settings Cache.InTime scheduler.cache
      (awaitActs settings scheduler.cache errand)) :
    (await settings scheduler task errand).Sound := by
  rcases await_eq scheduler task settings errand with
    sleeps | ⟨instant, ends⟩
  · rw [sleeps]
    exact sound.setStage (show Stage.Sound (.asleep errand _) from unbroken)
      task
  · rw [awaitActs, if_pos instant] at timed
    rw [ends]
    exact sound_conclude governed sound task unbroken timed

variable (scheduler) in
theorem sound_lead
    {call : SingleCall Value} (unbroken : call.plan.Unbroken)
    (flight : FlightId)
    (timed : Cache.Each settings Cache.InTime scheduler.cache
      (leadActs settings scheduler.cache flight call)) :
    (lead settings scheduler task flight call).Sound := by
  have left : Cache.after settings scheduler.cache
      (.quiet (.peek call.name)) =
        Cache.final (Cache.peek call.name) scheduler.cache :=
    Cache.final_discard _ _
  have looked := governed.follow [.quiet (.peek call.name)]
  rw [Cache.follow_cons, Cache.follow_nil, left] at looked
  have read := governed.answer_ne_error timed trivial rfl
  have still : ({ scheduler with
      cache := Cache.final (Cache.peek call.name) scheduler.cache } :
        Scheduler Value).Sound := sound.of_tasks rfl
  rw [leadActs, Cache.Each, left] at timed
  rw [lead, attempt_eq]
  generalize Cache.final (Cache.peek call.name) scheduler.cache = peeked at *
  cases answered : Cache.answer (Cache.peek call.name) scheduler.cache with
  | error fault => exact absurd answered (read fault)
  | ok found =>
      rw [answered] at timed
      cases found with
      | found value refresh => exact still.land task flight call.name _
      | missing refresh => exact still.land task flight call.name _
      | absent =>
          exact sound_await
            (noteCall { scheduler with cache := peeked } (.one task call.name))
            looked (still.of_tasks rfl) task unbroken timed.2

/-- A task that leads a flight of its own does so where it is. -/
theorem sound_join
    {call : SingleCall Value} (unbroken : call.plan.Unbroken)
    (timed : Cache.Each settings Cache.InTime scheduler.cache
      (joinActs settings scheduler call)) :
    (join settings scheduler task call).Sound := by
  have same := scheduler.cache_boardFlight call.name
  have tasks := tasks_of_ashore (ashore_boardFlight scheduler call.name)
  have still : (scheduler.boardFlight call.name).2.Sound := sound.of_tasks tasks
  have boardedGoverned := same.symm ▸ governed
  rw [joinActs, ← same] at timed
  rw [join]
  generalize scheduler.boardFlight call.name = boarding at *
  obtain ⟨flight, boarded⟩ := boarding
  dsimp only at *
  cases found : boarded.flights[flight]? with
  | none => exact still
  | some joined =>
      rw [found] at timed
      dsimp only at timed ⊢
      cases landed : joined.outcome with
      | some outcome =>
          have same := tasks_of_ashore
            (ashore_closeFlight boarded flight call.name)
          exact (still.of_tasks same).answer task _
      | none =>
          rw [landed] at timed
          cases led : joined.leader with
          | some leader =>
              exact (still.of_tasks rfl).setStage
                (show Stage.Sound (.waiting flight call) from unbroken) task
          | none =>
              rw [led] at timed
              exact sound_lead (boarded.adjustFlight flight _)
                boardedGoverned (still.of_tasks rfl) task unbroken flight timed

theorem sound_beginSingle
    {call : SingleCall Value} (unbroken : call.plan.Unbroken)
    (timed : Cache.Each settings Cache.InTime scheduler.cache
      (beginSingleActs settings scheduler call)) :
    (beginSingle settings scheduler task call).Sound := by
  have left : Cache.after settings scheduler.cache
      (.quiet (.lookup call.name)) =
        Cache.final (Cache.lookup settings call.name) scheduler.cache :=
    Cache.final_discard _ _
  have looked := governed.follow [.quiet (.lookup call.name)]
  rw [Cache.follow_cons, Cache.follow_nil, left] at looked
  have read := governed.answer_ne_error timed trivial rfl
  have still : ({ scheduler with
      cache := Cache.final (Cache.lookup settings call.name)
        scheduler.cache } : Scheduler Value).Sound := sound.of_tasks rfl
  rw [beginSingleActs, Cache.Each, left] at timed
  rw [beginSingle, attempt_eq]
  generalize Cache.final (Cache.lookup settings call.name) scheduler.cache =
    seen at *
  cases answered : Cache.answer (Cache.lookup settings call.name)
      scheduler.cache with
  | error fault => exact absurd answered (read fault)
  | ok found =>
      rw [answered] at timed
      cases found with
      | found value refresh =>
          exact (still.refreshIf unbroken task refresh).answer task _
      | missing refresh =>
          exact (still.refreshIf unbroken task refresh).answer task _
      | absent => exact sound_join looked still task unbroken timed.2

theorem sound_beginBatch
    {call : BatchCall Value} (unbroken : ∀ plan ∈ call.plans, plan.Unbroken)
    (timed : Cache.Each settings Cache.InTime scheduler.cache
      (beginBatchActs settings scheduler.cache call)) :
    (beginBatch settings scheduler task call).Sound := by
  have left : Cache.follow settings scheduler.cache
      ((Operation.gather call.requests).acts settings scheduler.cache) =
        Cache.final (Cache.gather settings call.requests
          { found := ∅, refreshes := [], misses := [] }) scheduler.cache :=
    (Cache.final_operation governed.coherent (.gather call.requests)).symm.trans
      (Cache.final_discard _ _)
  have gathered := governed.follow
    ((Operation.gather call.requests).acts settings scheduler.cache)
  rw [beginBatchActs, Cache.each_append, left] at timed
  rw [left] at gathered
  have conflicting : ∀ fault, Cache.answer (Cache.gather settings
      call.requests { found := ∅, refreshes := [], misses := [] })
        scheduler.cache = .error fault → fault.IsAliasConflict := by
    intro fault broken
    have blamed := Cache.fault?_eq_some_iff.mp
      ((Cache.fault?_discard _ _).trans (Cache.fault?_eq_some_iff.mpr broken))
    have unbroken : (Operation.gather call.requests :
        Operation Value).Unbroken := trivial
    obtain ⟨_, _, _, conflict, _⟩ :=
      governed.fault_of_operation unbroken trivial timed.1 blamed
    exact conflict
  have still : ({ scheduler with
      cache := Cache.final (Cache.gather settings call.requests
        { found := ∅, refreshes := [], misses := [] })
        scheduler.cache } : Scheduler Value).Sound := sound.of_tasks rfl
  rw [beginBatch, attempt_eq]
  generalize Cache.final (Cache.gather settings call.requests
    { found := ∅, refreshes := [], misses := [] }) scheduler.cache =
      seen at *
  cases answered : Cache.answer (Cache.gather settings call.requests
      { found := ∅, refreshes := [], misses := [] }) scheduler.cache with
  | error fault =>
      exact still.setStage (show Stage.Sound (.over (.broken fault)) from
        conflicting fault answered) task
  | ok found =>
      rw [answered] at timed
      dsimp only at timed ⊢
      generalize same : (if found.refreshes.isEmpty = true then _
        else _ : Scheduler Value) = refreshing
      have spawned : refreshing.Sound ∧ refreshing.cache = seen := by
        rw [← same]
        split
        · exact ⟨still, rfl⟩
        · exact ⟨(still.of_tasks rfl).spawn
            (show Stage.Sound (.called (.refreshMany _ _ _)) from
              call.planAt_unbroken unbroken 0), rfl⟩
      obtain ⟨refreshes, cached⟩ := spawned
      rw [← cached] at gathered timed
      cases misses : found.misses.isEmpty with
      | true => exact refreshes.answer task _
      | false =>
          rw [misses] at timed
          exact sound_await (refreshing.noteCall _) gathered
            (refreshes.of_tasks rfl) task (call.planAt_unbroken unbroken _)
            timed.2

theorem sound_resume
    {call : SingleCall Value} (unbroken : call.plan.Unbroken)
    (flight : FlightId)
    (timed : Cache.Each settings Cache.InTime scheduler.cache
      (resumeActs settings scheduler task flight call)) :
    (resume settings scheduler task flight call).Sound := by
  rw [resumeActs] at timed
  rw [resume]
  cases found : scheduler.flights[flight]? with
  | none => exact sound
  | some joined =>
      rw [found] at timed
      dsimp only at timed ⊢
      cases landed : joined.outcome with
      | some outcome =>
          have same := tasks_of_ashore
            (ashore_closeFlight scheduler flight call.name)
          exact (sound.of_tasks same).answer task _
      | none =>
          by_cases leads : joined.leader = some task
          · rw [if_pos ⟨landed ▸ rfl, leads⟩] at timed
            simp only [leads, if_true]
            exact sound_lead _ governed sound task unbroken flight timed
          · simp only [leads, if_false]
            exact sound

variable (scheduler) in
/-- A turn of a task leaves all tasks sound. -/
theorem sound_step
    (timed : Cache.Each settings Cache.InTime scheduler.cache
      (stepActs settings scheduler task)) :
    (step settings scheduler task).Sound := by
  rw [stepActs] at timed
  rw [step]
  cases found : scheduler.tasks[task]? with
  | none => exact sound
  | some stage =>
      have good := sound task stage found
      rw [found] at timed
      cases stage with
      | single call =>
          exact sound_beginSingle governed sound task good timed
      | batch call => exact sound_beginBatch governed sound task good timed
      | called errand => exact sound_await _ governed sound task good timed
      | asleep errand wakeAt =>
          dsimp only at timed ⊢
          split
          next due =>
            rw [if_pos due] at timed
            exact sound_conclude governed sound task good timed
          next => exact sound
      | waiting flight call =>
          exact sound_resume governed sound task good flight timed
      | «over» verdict => exact sound

end Turns

/-- A tick does not concern the tasks. -/
theorem tasks_tick (scheduler : Scheduler Value) :
    scheduler.tick.tasks = scheduler.tasks := by
  rw [tick]
  cases scheduler.activeSweeper? with
  | none => rfl
  | some sweeper =>
      dsimp only
      rw [attempt_eq]
      cases Cache.answer (Cache.sweep sweeper.nextShard) scheduler.cache with
      | error fault => rfl
      | ok number => rfl

/-- An aborted task was not broken off by a fault. -/
theorem Sound.abort
    {scheduler : Scheduler Value} (sound : scheduler.Sound) (task : TaskId) :
    (scheduler.abort task).Sound := by
  have cancelled : ∀ {left : Scheduler Value}, left.Sound →
      (left.finish task .cancelled).Sound := fun good =>
    good.setStage (show Stage.Sound (.over .cancelled) from trivial) task
  rw [Scheduler.abort]
  split
  · exact sound
  · split
    · exact sound
    · split
      next flight _ =>
        exact cancelled (sound.of_tasks
          (tasks_of_ashore (ashore_leaveFlight scheduler task flight)))
      next => exact cancelled sound

end Scheduler

/-! ## Runs -/

/-- A move of a client names shards that there are, and waits for fetches that
do not break off. -/
def Move.Proper (count : Nat) : Move Value → Prop
  | .call single => single.plan.Unbroken
  | .callMany batch => ∀ plan ∈ batch.plans, plan.Unbroken
  | .act single => single.Seated count
  | _ => True

/-- An incident names shards that there are, and waits for fetches that do not
break off. -/
def Incident.Proper (count : Nat) : Incident Value → Prop
  | .operation asked => asked.Unbroken ∧ asked.Seated count
  | .move made => made.Proper count

namespace Logbook

/-- Nothing that valid settings rule out has happened or is about to happen. -/
structure Steady (settings : Settings) (logbook : Logbook Value) : Prop where
  governed : Cache.Governed settings logbook.scheduler.cache
  sound : logbook.scheduler.Sound
  /-- The next shard to be swept is one that there is. -/
  turn : ∀ sweeper ∈ logbook.scheduler.sweeper,
    sweeper.nextShard < settings.shardCount

theorem steady_start
    {settings : Settings} (valid : settings.Valid)
    (expressible : settings.timeToLive ≤ Duration.longest)
    (paddings : Nat → List Nat) :
    (start settings paddings : Logbook Value).Steady settings where
  governed := Cache.governed_empty valid expressible paddings
  sound task stage found := by
    simp [start, startOn, Scheduler.startOn] at found
  turn sweeper active := by
    have governed : Cache.Governed settings
        (Cache.empty settings paddings : Cache Value) :=
      Cache.governed_empty valid expressible paddings
    have inhabited := governed.coherent.inhabited
    rw [governed.bounded.count] at inhabited
    change sweeper ∈ (if settings.sweeping = true then
      some (Sweeper.start (Sweeper.periodOf settings.sweepInterval))
      else none) at active
    split at active
    · cases active
      exact inhabited
    · cases active

variable [Keyed Value] {settings : Settings} {logbook : Logbook Value}

namespace Steady

variable (steady : logbook.Steady settings) {incident : Incident Value}

include steady

/-- Every act of a proper incident names a shard that there is, if it names
one. -/
theorem seated_acts (proper : incident.Proper settings.shardCount) :
    ∀ act ∈ acts settings logbook incident,
      act.Seated settings.shardCount := by
  cases incident with
  | operation operation =>
      exact (steady.governed.seated_chores proper.2).carryOut _
  | move move =>
      cases move with
      | turn task =>
          exact Scheduler.forall_mem_stepActs
            (fun act plain => plain.seated settings.shardCount)
            (fun _ => trivial) _ task
      | act act =>
          intro other member
          rw [List.mem_singleton.mp member]
          exact proper
      | tick =>
          intro other member
          obtain ⟨sweeper, active, rfl⟩ :=
            Option.map_eq_some_iff.mp (Option.mem_toList.mp member)
          exact steady.turn sweeper (Scheduler.sweeper_of_active active)
      | _ => exact List.forall_mem_nil _

omit [Keyed Value] in
/-- A tick moves on to a shard that there is, or ends the sweep. -/
theorem turn_tick :
    ∀ sweeper ∈ logbook.scheduler.tick.sweeper,
      sweeper.nextShard < settings.shardCount := by
  intro later there
  have coherent := steady.governed.coherent
  rw [Scheduler.tick] at there
  cases active : logbook.scheduler.activeSweeper? with
  | none =>
      rw [active] at there
      cases there
  | some sweeper =>
      rw [active] at there
      dsimp only at there
      rw [Scheduler.attempt_eq] at there
      cases swept : Cache.answer (Cache.sweep sweeper.nextShard)
          logbook.scheduler.cache with
      | error fault =>
          rw [swept] at there
          cases there
      | ok number =>
          rw [swept] at there
          cases there
          have left : Cache.final (Cache.sweep sweeper.nextShard)
              logbook.scheduler.cache =
                Cache.follow settings logbook.scheduler.cache
                  [.sweep sweeper.nextShard] :=
            (Cache.final_discard _ _).symm
          rw [left, Sweeper.advance, Cache.size_follow coherent,
            ← steady.governed.bounded.count]
          exact Nat.mod_lt _ coherent.inhabited

theorem undergo
    (proper : incident.Proper settings.shardCount)
    (timed : Cache.Each settings Cache.InTime logbook.scheduler.cache
      (acts settings logbook incident)) :
    (undergo settings logbook incident).Steady settings := by
  have coherent := steady.governed.coherent
  have governed : Cache.Governed settings
      (Logbook.undergo settings logbook incident).scheduler.cache := by
    rw [cache_undergo coherent]
    exact steady.governed.follow _
  cases incident with
  | operation operation =>
      exact ⟨governed, steady.sound.of_tasks rfl, steady.turn⟩
  | move move =>
      have turn : ∀ sweeper ∈ (after settings logbook move).scheduler.sweeper,
          sweeper.nextShard < settings.shardCount := by
        by_cases isTick : move.isTick = true
        · rw [Move.isTick_iff.mp isTick]
          exact steady.turn_tick
        · have hours := hours_after settings logbook
            (Bool.not_eq_true _ ▸ isTick)
          have same := congrArg Prod.snd hours
          dsimp only [Scheduler.hours] at same
          rw [same]
          exact steady.turn
      refine ⟨governed, ?_, turn⟩
      cases move with
      | call call => exact steady.sound.spawn proper
      | callMany call => exact steady.sound.spawn proper
      | turn task =>
          exact Scheduler.sound_step { logbook.scheduler with
            ready := logbook.scheduler.ready.erase task } steady.governed
            (steady.sound.of_tasks rfl) task timed
      | abort task => exact steady.sound.abort task
      | tick => exact steady.sound.of_tasks (Scheduler.tasks_tick _)
      | _ => exact steady.sound.of_tasks rfl

/-- Proper incidents leave a steady logbook, and all their acts name shards that
there are. -/
theorem undergoAll
    {incidents : List (Incident Value)}
    (proper : ∀ incident ∈ incidents, incident.Proper settings.shardCount)
    (timed : Cache.Each settings Cache.InTime logbook.scheduler.cache
      (allActs settings logbook incidents)) :
    (undergoAll settings logbook incidents).Steady settings ∧
      ∀ act ∈ allActs settings logbook incidents,
        act.Seated settings.shardCount := by
  induction incidents generalizing logbook with
  | nil => exact ⟨steady, List.forall_mem_nil _⟩
  | cons incident incidents inductionHypothesis =>
      obtain ⟨first, others⟩ := List.forall_mem_cons.mp proper
      rw [allActs, Cache.each_append,
        ← cache_undergo steady.governed.coherent] at timed
      obtain ⟨later, seated⟩ :=
        inductionHypothesis (steady.undergo first timed.1) others timed.2
      exact ⟨later, List.forall_mem_append.mpr
        ⟨steady.seated_acts first, seated⟩⟩

end Steady

theorem allActs_append
    (logbook : Logbook Value) (early late : List (Incident Value)) :
    allActs settings logbook (early ++ late) =
      allActs settings logbook early ++
        allActs settings (undergoAll settings logbook early) late := by
  induction early generalizing logbook with
  | nil => rfl
  | cons incident early inductionHypothesis =>
      rw [List.cons_append, allActs, allActs, inductionHypothesis,
        List.append_assoc]
      rfl

/-- With valid settings nothing ends in a fault but writes whose aliases
conflict, whatever happens to a new cache, as long as the clock can be read and
moved and no fetch breaks off itself.  No other act does, be it of a client, of a
task or of the sweeper.  An operation that is broken off has met such a write as
the last of its acts, and so has a task.

What is calculated meanwhile is defined: before and after every act the cache is
`Defined`, no deadline passes the horizon, pauses and their factors keep to what
durations and 32 bits hold, and the sweep has a period. -/
theorem valid_settings_suffice
    {settings : Settings} (valid : settings.Valid)
    (expressible : settings.timeToLive ≤ Duration.longest)
    (paddings : Nat → List Nat) (incidents : List (Incident Value))
    (proper : ∀ incident ∈ incidents, incident.Proper settings.shardCount)
    (timed : Cache.Each settings Cache.InTime (.empty settings paddings)
      (allActs settings (start settings paddings) incidents)) :
    let new : Cache Value := .empty settings paddings
    let acts := allActs settings (start settings paddings) incidents
    (∀ early act late, acts = early ++ act :: late →
      let cache := Cache.follow settings new early
      ∀ fault, Cache.answer (act.action settings) cache = .error fault →
        ∃ draft, act = .write draft ∧ fault.IsAliasConflict ∧
          cache.Conflicts draft) ∧
      (∀ early operation late,
        incidents = early ++ .operation operation :: late →
          let cache := (undergoAll settings (start settings paddings)
            early).scheduler.cache
          ∀ fault,
            Cache.answer (operation.action settings) cache = .error fault →
              ∃ before draft,
                operation.acts settings cache = before ++ [.write draft] ∧
                  fault.IsAliasConflict ∧
                    (Cache.follow settings cache before).Conflicts draft) ∧
      (∀ task fault,
        (undergoAll settings (start settings paddings)
          incidents).scheduler.verdict? task = some (.broken fault) →
            fault.IsAliasConflict) ∧
      (∀ early, early <+: acts →
        Cache.Defined settings (Cache.follow settings new early)) ∧
      (∀ (clock : Clock) (now : Instant), clock.read.1 = .ok now →
        ∀ after, Instant.Representable (deadline now after)) ∧
      (∀ base retries,
        Nat.pow 2 (min retries Entry.maxBackoffExponent) < 4294967296 ∧
          Entry.backoff base retries ≤ Duration.longest) ∧
      (settings.sweeping = true →
        0 < Sweeper.periodOf settings.sweepInterval) := by
  intro new acts
  have steady : (start settings paddings : Logbook Value).Steady settings :=
    steady_start valid expressible paddings
  have governed : Cache.Governed settings new := steady.governed
  obtain ⟨last, seated⟩ := steady.undergoAll proper timed
  refine ⟨?acts, ?operations, ?tasks, ?defined, ?deadlines, ?pauses, ?sweep⟩
  case acts =>
    intro early act late shape cache fault broken
    have there : act ∈ acts := by
      rw [shape]
      exact List.mem_append_right _ List.mem_cons_self
    have whole : Cache.Each settings Cache.InTime new acts := timed
    rw [shape] at whole
    exact governed.fault_of_acts (seated act there) whole broken
  case operations =>
    rintro early operation late rfl cache fault broken
    have whole : Cache.Each settings Cache.InTime
        (start settings paddings).scheduler.cache
        (allActs settings (start settings paddings)
          (early ++ .operation operation :: late)) := timed
    rw [allActs_append, Cache.each_append,
      ← cache_undergoAll steady.governed.coherent] at whole
    obtain ⟨timedEarly, timedLate⟩ := whole
    rw [allActs] at timedLate
    obtain ⟨earlyProper, lateProper⟩ := List.forall_mem_append.mp proper
    have now := (steady.undergoAll earlyProper timedEarly).1
    obtain ⟨unbroken, there⟩ := lateProper _ List.mem_cons_self
    exact now.governed.fault_of_operation unbroken there
      (Cache.each_append.mp timedLate).1 broken
  case tasks =>
    intro task fault ended
    have found : (undergoAll settings (start settings paddings)
        incidents).scheduler.tasks[task]? = some (.over (.broken fault)) := by
      rw [Scheduler.verdict?] at ended
      split at ended
      next verdict found =>
        cases ended
        exact found
      next => cases ended
    exact last.sound task _ found
  case defined =>
    intro early _
    exact (governed.follow early).defined
  case deadlines =>
    intro clock now shown after
    exact representable_deadline (Clock.representable_of_read shown) after
  case pauses =>
    intro base retries
    exact ⟨Entry.backoffFactor_lt retries, Entry.backoff_le_longest base _⟩
  case sweep =>
    intro sweeping
    exact Sweeper.periodOf_pos (valid.operable.sweeps sweeping)

/-- In the busy run the write of `b` is broken off, for `x` is an alias of
`d`. -/
theorem valid_settings_suffice_busy :
    let settings : Settings :=
      { Settings.tight 10 with
        sweeping := true
        refresh := some { earliest := 0, latest := 0, retryBase := 5 } }
    let new : Cache NameTag := .empty settings fun _ => []
    let acts := allActs settings (start settings fun _ => []) busy
    let cache := (undergoAll settings (start settings fun _ => [])
      (busy.take 1)).scheduler.cache
    let draft : Draft NameTag := ⟨"b", some ⟨"b", ["x"]⟩, ["x"]⟩
    settings.Valid ∧ settings.timeToLive ≤ Duration.longest ∧
      (∀ incident ∈ busy, incident.Proper settings.shardCount) ∧
        Cache.Each settings Cache.InTime new acts ∧
          Cache.answer ((Operation.act (.write draft)).action settings) cache =
              .error (.aliasInOtherShard "x") ∧
            cache.Conflicts draft ∧
              Cache.Defined settings (Cache.follow settings new acts) ∧
                0 < Sweeper.periodOf settings.sweepInterval := by
  intro settings new acts cache draft
  have valid : settings.Valid := by decide
  have expressible : settings.timeToLive ≤ Duration.longest := by decide
  have proper : ∀ incident ∈ busy, incident.Proper settings.shardCount := by
    simp [busy, Incident.Proper, Move.Proper, Operation.Unbroken,
      Operation.Seated, Act.Seated, Plan.Unbroken]
  have timed : Cache.Each settings Cache.InTime new acts := by decide +kernel
  have broken : Cache.answer
      ((Operation.act (.write draft)).action settings) cache =
        .error (.aliasInOtherShard "x") := by
    rw [← Cache.fault?_eq_some_iff]
    decide +kernel
  obtain ⟨_, operations, _, defined, _, _, sweep⟩ :=
    valid_settings_suffice valid expressible (fun _ => []) busy proper timed
  obtain ⟨before, last, carried, _, conflicts⟩ :=
    operations (busy.take 1) _ (busy.drop 2) rfl _ broken
  rw [Operation.acts, Operation.chores, Cache.carryOut, Cache.carryOut,
    ite_self] at carried
  have only : before = [] ∧ last = draft := by
    cases before with
    | nil =>
        cases carried
        exact ⟨rfl, rfl⟩
    | cons act others => simp at carried
  rw [only.1, only.2] at conflicts
  exact ⟨valid, expressible, proper, timed, broken, conflicts,
    defined acts List.prefix_rfl, sweep rfl⟩

end Logbook

end ReadThrough
