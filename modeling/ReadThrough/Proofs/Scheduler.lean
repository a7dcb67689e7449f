import ReadThrough.Proofs.Cache.Acts
import ReadThrough.Scheduler.Passage

/-!
# What a scheduler does to its cache

However tasks take turns, and whenever the sweeper ticks between them, a
scheduler changes its cache by acts only: what it leaves behind is what a run of
acts leaves behind.
-/

namespace ReadThrough

open Cache (Runs Respects)

namespace Scheduler

variable {Value Result : Type} {settings : Settings}

section Cache

variable (scheduler : Scheduler Value) (task : TaskId) (flight : FlightId)
  (name : String)

@[simp]
theorem cache_setStage (stage : Stage Value) :
    (scheduler.setStage task stage).cache = scheduler.cache := rfl

@[simp]
theorem cache_finish (verdict : Verdict Value) :
    (scheduler.finish task verdict).cache = scheduler.cache := rfl

@[simp]
theorem cache_answer (result : Except Failure (Reply Value)) :
    (scheduler.answer task result).cache = scheduler.cache := rfl

@[simp]
theorem cache_adjustFlight (change : Flight Value → Flight Value) :
    (scheduler.adjustFlight flight change).cache = scheduler.cache := rfl

@[simp]
theorem cache_boardFlight :
    (scheduler.boardFlight name).2.cache = scheduler.cache := by
  rw [boardFlight]
  split
  · rfl
  · rfl

@[simp]
theorem cache_closeFlight :
    (scheduler.closeFlight flight name).cache = scheduler.cache := by
  rw [closeFlight]
  split
  · rfl
  · rfl

@[simp]
theorem cache_landFlight (outcome : Except Failure Value) :
    (scheduler.landFlight flight outcome).cache = scheduler.cache := by
  rw [landFlight]
  split
  · rfl
  · rfl

@[simp]
theorem cache_leaveFlight :
    (scheduler.leaveFlight task flight).cache = scheduler.cache := by
  have handedOver : (scheduler.handOver flight).cache = scheduler.cache := by
    rw [handOver]
    split
    · rfl
    · split
      · rfl
      · rfl
  rw [leaveFlight]
  split
  · rfl
  · split
    · exact handedOver
    · rfl

@[simp]
theorem cache_refreshIf (elected : Bool) (call : SingleCall Value) :
    (scheduler.refreshIf task elected call).cache = scheduler.cache := by
  rw [refreshIf]
  split
  · rfl
  · rfl

@[simp]
theorem cache_abort :
    (scheduler.abort task).cache = scheduler.cache := by
  rw [abort]
  split
  · rfl
  · split
    · rfl
    · split
      · simp
      · rfl

end Cache

theorem relates_of_attempt
    {relation : Cache Value → Cache Value → Prop}
    {scheduler next : Scheduler Value} {action : Cache.Action Value Result}
    {result : Except Fault Result} (respects : Respects relation action)
    (attempted : scheduler.attempt action = (result, next)) :
    relation scheduler.cache next.cache := by
  have left := Cache.respects_final respects scheduler.cache
  rw [Cache.final] at left
  rw [attempt] at attempted
  cases run : action.run scheduler.cache with
  | ok value cache =>
      rw [run] at left attempted
      cases attempted
      exact left
  | error fault cache =>
      rw [run] at left attempted
      cases attempted
      exact left

theorem result?_of_attempt
    {scheduler next : Scheduler Value} {action : Cache.Action Value Result}
    {result : Result}
    (attempted : scheduler.attempt action = (.ok result, next)) :
    Cache.result? action scheduler.cache = some result := by
  rw [attempt] at attempted
  rw [Cache.result?]
  cases run : action.run scheduler.cache with
  | ok value cache =>
      rw [run] at attempted
      cases attempted
      rfl
  | error fault cache =>
      rw [run] at attempted
      cases attempted

variable (settings)

theorem runs_tick (scheduler : Scheduler Value) :
    Runs settings scheduler.cache scheduler.tick.cache := by
  rw [tick]
  split
  · exact refl_of (Runs settings) scheduler.cache
  next sweeper _ =>
    have sweeps : Cache.Respects (Runs settings)
        (Cache.sweep sweeper.nextShard : Cache.Action Value Nat) :=
      Cache.respects_sweep_runs settings sweeper.nextShard
    split
    next fault next attempted =>
      have swept := relates_of_attempt sweeps attempted
      exact swept
    next next attempted =>
      have swept := relates_of_attempt sweeps attempted
      exact swept

variable [Keyed Value]

/-! ## The end of a fetch -/

theorem runs_conclude
    (scheduler : Scheduler Value) (task : TaskId) (errand : Errand Value) :
    Runs settings scheduler.cache
      (conclude settings scheduler task errand).cache := by
  cases errand with
  | complete flight call =>
      have respects := Cache.respects_concludeFlight_runs settings
        call.storing call.name call.plan
      rw [conclude]
      split
      next fault next attempted =>
        simpa using relates_of_attempt respects attempted
      next outcome next attempted =>
        simpa [land] using relates_of_attempt respects attempted
  | refresh call =>
      have respects := Cache.respects_concludeRefresh_runs settings
        call.storing call.name call.plan
      rw [conclude]
      split
      next fault next attempted =>
        simpa using relates_of_attempt respects attempted
      next next attempted =>
        simpa using relates_of_attempt respects attempted
  | collect found misses storing plan =>
      have respects := Cache.respects_concludeMisses_runs settings storing
        found misses plan
      rw [conclude]
      split
      next fault next attempted =>
        simpa using relates_of_attempt respects attempted
      next outcome next attempted =>
        simpa using relates_of_attempt respects attempted
  | refreshMany requests storing plan =>
      have respects := Cache.respects_concludeRefreshes_runs settings storing
        requests plan
      rw [conclude]
      split
      next fault next attempted =>
        simpa using relates_of_attempt respects attempted
      next next attempted =>
        simpa using relates_of_attempt respects attempted

end Scheduler

/-! ## Steps of tasks -/

namespace Stage

variable {Value : Type}

/-- The cache once a task has made the lookups with which it begins. -/
def reads
    (settings : Settings) (cache : Cache Value) : Stage Value → Cache Value
  | .single call => Cache.final (Cache.lookup settings call.name) cache
  | .batch call =>
      Cache.final (Cache.gather settings call.requests
        { found := ∅, refreshes := [], misses := [] }) cache
  | _ => cache

/-- The first lookups respect what every lookup respects. -/
theorem relates_reads
    {settings : Settings} {relation : Cache Value → Cache Value → Prop}
    [IsPreorder (Cache Value) relation] (stage : Stage Value)
    (looks : ∀ name, Respects relation (Cache.lookup settings name))
    (cache : Cache Value) : relation cache (stage.reads settings cache) := by
  cases stage with
  | single call => exact Cache.respects_final (looks call.name) cache
  | batch call =>
      exact Cache.respects_final
        (Cache.respects_gather settings looks call.requests _) cache
  | _ => exact refl_of relation cache

/-- The errands that a task can carry out within its next turn. -/
inductive Undertakes (settings : Settings) (cache : Cache Value) :
    Stage Value → Errand Value → Prop
  | single (flight : FlightId) (call : SingleCall Value) :
      Undertakes settings cache (.single call) (.complete flight call)
  | batch {call : BatchCall Value} {gathered : Cache.Gathered Value}
      (answered : Cache.result? (Cache.gather settings call.requests
        { found := ∅, refreshes := [], misses := [] }) cache =
          some gathered) :
      Undertakes settings cache (.batch call)
        (.collect gathered.found gathered.misses call.storing
          (call.planAt (if gathered.refreshes.isEmpty then 0 else 1)))
  | called (errand : Errand Value) :
      Undertakes settings cache (.called errand) errand
  | asleep (errand : Errand Value) (wakeAt : Nat) :
      Undertakes settings cache (.asleep errand wakeAt) errand
  | waiting (flight : FlightId) (call : SingleCall Value) :
      Undertakes settings cache (.waiting flight call)
        (.complete flight call)

end Stage

namespace Scheduler

variable {Value : Type} {settings : Settings}

/-! What a task does in its turn is to make the lookups with which it begins, to
look again if it leads a flight, and to end its fetch.  So a step respects what
the second look and the end of the fetch respect. -/

section Respects

variable [Keyed Value] {relation : Cache Value → Cache Value → Prop}
  [IsPreorder (Cache Value) relation] {task : TaskId}

/-- Whoever carries out the errand respects a relation. -/
def Concludes
    (settings : Settings) (relation : Cache Value → Cache Value → Prop)
    (task : TaskId) (errand : Errand Value) : Prop :=
  ∀ scheduler : Scheduler Value,
    relation scheduler.cache (conclude settings scheduler task errand).cache

theorem relates_await
    (scheduler : Scheduler Value) {errand : Errand Value}
    (concludes : Concludes settings relation task errand) :
    relation scheduler.cache
      (await settings scheduler task errand).cache := by
  rw [await]
  split
  · exact concludes scheduler
  · exact refl_of relation scheduler.cache

section Single

variable (scheduler : Scheduler Value) {call : SingleCall Value}
  {flight : FlightId} (peeks : Respects relation (Cache.peek call.name))

include peeks

theorem relates_lead
    (concludes : Concludes settings relation task (.complete flight call)) :
    relation scheduler.cache
      (lead settings scheduler task flight call).cache := by
  rw [lead]
  split
  next fault next attempted =>
    simpa using relates_of_attempt peeks attempted
  next value elected next attempted =>
    simpa [land] using relates_of_attempt peeks attempted
  next elected next attempted =>
    simpa [land] using relates_of_attempt peeks attempted
  next next attempted =>
    exact trans_of relation (relates_of_attempt peeks attempted)
      (relates_await (next.noteCall _) concludes)

theorem relates_resume
    (concludes : Concludes settings relation task (.complete flight call)) :
    relation scheduler.cache
      (resume settings scheduler task flight call).cache := by
  have unchanged := refl_of relation scheduler.cache
  rw [resume]
  split
  · exact unchanged
  · split
    · simpa using unchanged
    · split
      · exact relates_lead scheduler peeks concludes
      · exact unchanged

variable (concludes : ∀ flight,
  Concludes settings relation task (.complete flight call))

include concludes

theorem relates_join :
    relation scheduler.cache
      (join settings scheduler task call).cache := by
  rw [← scheduler.cache_boardFlight call.name]
  rw [join]
  generalize scheduler.boardFlight call.name = boarding
  obtain ⟨flight, boarded⟩ := boarding
  have unchanged := refl_of relation boarded.cache
  dsimp only
  split
  · exact unchanged
  · split
    · simpa using unchanged
    · exact relates_lead (boarded.adjustFlight flight _) peeks
        (concludes flight)
    · simpa using unchanged

theorem relates_beginSingle :
    relation (Cache.final (Cache.lookup settings call.name) scheduler.cache)
      (beginSingle settings scheduler task call).cache := by
  have looks : Respects (fun before after => after =
      Cache.final (Cache.lookup settings call.name) before)
        (Cache.lookup settings call.name : Cache.Action Value _) :=
    fun _ => Cache.ends_iff_final.mpr rfl
  rw [beginSingle]
  split
  next fault next attempted =>
    rw [← relates_of_attempt looks attempted]
    simpa using refl_of relation next.cache
  next value elected next attempted =>
    rw [← relates_of_attempt looks attempted]
    simpa using refl_of relation next.cache
  next elected next attempted =>
    rw [← relates_of_attempt looks attempted]
    simpa using refl_of relation next.cache
  next next attempted =>
    rw [← relates_of_attempt looks attempted]
    exact relates_join next peeks concludes

end Single

theorem relates_beginBatch
    (scheduler : Scheduler Value) {call : BatchCall Value}
    (concludes : ∀ errand, (Stage.batch call).Undertakes settings
      scheduler.cache errand → Concludes settings relation task errand) :
    relation ((Stage.batch call).reads settings scheduler.cache)
      (beginBatch settings scheduler task call).cache := by
  have gathers : Respects (fun before after => after =
      (Stage.batch call).reads settings before)
        (Cache.gather settings call.requests
          { found := ∅, refreshes := [], misses := [] }) :=
    fun _ => Cache.ends_iff_final.mpr rfl
  rw [beginBatch]
  dsimp only
  split
  next fault next attempted =>
    rw [← relates_of_attempt gathers attempted]
    simpa using refl_of relation next.cache
  next gathered next attempted =>
    have answered := result?_of_attempt attempted
    rw [← relates_of_attempt gathers attempted]
    -- The background refresh is a new task, and its fetch a noted call.
    generalize same : (if gathered.refreshes.isEmpty = true then next
      else _ : Scheduler Value) = refreshing
    have cached : refreshing.cache = next.cache := by
      rw [← same]
      split
      · rfl
      · rfl
    rw [← cached]
    split
    · simpa using refl_of relation refreshing.cache
    · exact relates_await (refreshing.noteCall _)
        (concludes _ (.batch answered))

/-- A step respects what the second look of a leader and the end of the fetch
respect, but for the lookups with which the task begins. -/
theorem relates_step
    {scheduler : Scheduler Value} {stage : Stage Value}
    (found : scheduler.tasks[task]? = some stage)
    (peeks : ∀ name, Respects relation (Cache.peek name))
    (concludes : ∀ errand, stage.Undertakes settings scheduler.cache errand →
      Concludes settings relation task errand) :
    relation (stage.reads settings scheduler.cache)
      (step settings scheduler task).cache := by
  have unchanged := refl_of relation scheduler.cache
  rw [step, found]
  cases stage with
  | single call =>
      exact relates_beginSingle scheduler (peeks call.name) fun flight =>
        concludes _ (.single flight call)
  | batch call => exact relates_beginBatch scheduler concludes
  | called errand =>
      exact relates_await scheduler (concludes _ (.called errand))
  | asleep errand wakeAt =>
      dsimp only
      split
      · exact concludes _ (.asleep errand wakeAt) scheduler
      · exact unchanged
  | waiting flight call =>
      exact relates_resume scheduler (peeks call.name)
        (concludes _ (.waiting flight call))
  | «over» verdict => exact unchanged

end Respects

variable [Keyed Value] (settings)

theorem runs_step (scheduler : Scheduler Value) (task : TaskId) :
    Runs settings scheduler.cache
      (step settings scheduler task).cache := by
  cases found : scheduler.tasks[task]? with
  | none =>
      rw [step, found]
      exact refl_of (Runs settings) scheduler.cache
  | some stage =>
      have reads := stage.relates_reads
        (Cache.respects_lookup_runs settings) scheduler.cache
      exact trans_of (Runs settings) reads
        (relates_step found (Cache.respects_peek_runs settings)
          fun errand _ next => runs_conclude settings next task errand)

theorem runs_settleWithin (limit : Nat) (scheduler : Scheduler Value) :
    Runs settings scheduler.cache
      (settleWithin settings limit scheduler).cache := by
  induction limit generalizing scheduler with
  | zero => exact refl_of (Runs settings) scheduler.cache
  | succ limit inductionHypothesis =>
      rw [settleWithin]
      split
      · exact refl_of (Runs settings) scheduler.cache
      next task rest _ =>
        exact trans_of (Runs settings)
          (runs_step settings { scheduler with ready := rest } task)
          (inductionHypothesis _)

theorem runs_settle (scheduler : Scheduler Value) :
    Runs settings scheduler.cache (settle settings scheduler).cache :=
  runs_settleWithin settings scheduler.pendingSteps scheduler

/-! ## The passage of time -/

theorem runs_fire (scheduler : Scheduler Value) :
    Runs settings scheduler.cache (fire settings scheduler).cache := by
  rw [fire]
  split
  · exact trans_of (Runs settings) (runs_tick settings scheduler)
      (runs_settle settings scheduler.tick.wake)
  · exact runs_settle settings scheduler.wake

theorem runs_passWithin
    (stop : Scheduler Value → Bool) (target limit : Nat)
    (scheduler : Scheduler Value) :
    Runs settings scheduler.cache
      (passWithin settings stop target limit scheduler).cache := by
  induction limit generalizing scheduler with
  | zero => exact refl_of (Runs settings) scheduler.cache
  | succ limit inductionHypothesis =>
      rw [passWithin]
      split
      · exact refl_of (Runs settings) scheduler.cache
      · split
        · exact refl_of (Runs settings) scheduler.cache
        next due _ =>
          exact trans_of (Runs settings)
            (runs_fire settings
              { scheduler with time := max scheduler.time due })
            (inductionHypothesis _)

end Scheduler

end ReadThrough
