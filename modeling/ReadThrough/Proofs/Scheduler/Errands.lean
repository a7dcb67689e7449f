import ReadThrough.Proofs.Cache.Local
import ReadThrough.Proofs.Scheduler.Moves

/-!
# How errands end

A task whose fetch is over carries out its errand: it does one operation to the
cache and ends with what the operation answers.  Flights matter to other tasks
only: but for them, `ashore` leaves nothing out of a scheduler, and what a task
does ashore follows from its errand and the cache.

Until then the task is called or asleep, and nothing but its own turn changes
that.  `step_of_pending` says what the turn can do.
-/

namespace ReadThrough

open Std (ExtTreeMap)

variable {Value Result : Type}

/-- How a task ends that a fault has broken off or that has a result. -/
def Verdict.ofAnswer :
    Except Fault (Except Failure (Reply Value)) → Verdict Value
  | .ok result => .returned result
  | .error fault => .broken fault

/-- The value that a call of one name has returned. -/
def Verdict.value? : Verdict Value → Option Value
  | .returned (.ok (.one value)) => some value
  | _ => none

namespace Errand

/-- What the end of the fetch does to the cache. -/
def operation : Errand Value → Operation Value
  | .complete _ call => .concludeFlight call.storing call.name call.plan
  | .refresh call => .concludeRefresh call.storing call.name call.plan
  | .collect found misses storing plan =>
      .concludeMisses storing found misses plan
  | .refreshMany requests storing plan =>
      .concludeRefreshes storing requests plan

/-- How the task ends. -/
def verdict [Keyed Value] (settings : Settings) (cache : Cache Value) :
    Errand Value → Verdict Value
  | .complete _ call =>
      .ofAnswer <| (Cache.answer (Cache.concludeFlight settings call.storing
        call.name call.plan) cache).map fun outcome => outcome.map .one
  | .refresh call =>
      .ofAnswer <| (Cache.answer (Cache.concludeRefresh settings call.storing
        call.name call.plan) cache).map fun _ => .ok (.many ∅)
  | .collect found misses storing plan =>
      .ofAnswer <| (Cache.answer (Cache.concludeMisses settings storing found
        misses plan) cache).map fun outcome => outcome.map .many
  | .refreshMany requests storing plan =>
      .ofAnswer <| (Cache.answer (Cache.concludeRefreshes settings storing
        requests plan) cache).map fun _ => .ok (.many ∅)

/-- The cache after the errand. -/
def leaves [Keyed Value] (settings : Settings) (cache : Cache Value)
    (errand : Errand Value) : Cache Value :=
  Cache.final (errand.operation.action settings) cache

/-- A task with an errand returns or is broken off as the operation is that it
does. -/
theorem verdict_cases
    [Keyed Value] (settings : Settings) (cache : Cache Value)
    (errand : Errand Value) :
    (∃ reply, errand.verdict settings cache = .returned reply ∧
        Cache.answer (errand.operation.action settings) cache = .ok ()) ∨
      ∃ fault, errand.verdict settings cache = .broken fault ∧
        Cache.answer (errand.operation.action settings) cache =
          .error fault := by
  have discarded : ∀ {Result : Type} (action : Cache.Action Value Result),
      Cache.answer (discard action) cache =
        (Cache.answer action cache).map fun _ => () := fun action =>
    Cache.answer_map _ action cache
  cases errand with
  | complete flight call =>
      rw [verdict, operation, Operation.action, discarded]
      cases Cache.answer (Cache.concludeFlight settings call.storing call.name
          call.plan) cache with
      | ok outcome => exact Or.inl ⟨_, rfl, rfl⟩
      | error fault => exact Or.inr ⟨fault, rfl, rfl⟩
  | refresh call =>
      rw [verdict, operation, Operation.action]
      cases Cache.answer (Cache.concludeRefresh settings call.storing
          call.name call.plan) cache with
      | ok outcome => exact Or.inl ⟨_, rfl, rfl⟩
      | error fault => exact Or.inr ⟨fault, rfl, rfl⟩
  | collect found misses storing plan =>
      rw [verdict, operation, Operation.action, discarded]
      cases Cache.answer (Cache.concludeMisses settings storing found misses
          plan) cache with
      | ok outcome => exact Or.inl ⟨_, rfl, rfl⟩
      | error fault => exact Or.inr ⟨fault, rfl, rfl⟩
  | refreshMany requests storing plan =>
      rw [verdict, operation, Operation.action]
      cases Cache.answer (Cache.concludeRefreshes settings storing requests
          plan) cache with
      | ok outcome => exact Or.inl ⟨_, rfl, rfl⟩
      | error fault => exact Or.inr ⟨fault, rfl, rfl⟩

/-- What holds of every return of the operation holds once a task with the
errand has returned. -/
theorem leaves_of_returned
    [Keyed Value] {settings : Settings} {cache : Cache Value}
    {errand : Errand Value} {reply : Except Failure (Reply Value)}
    {accepts : Cache Value → Prop} {breaks : Fault → Cache Value → Prop}
    (returned : errand.verdict settings cache = .returned reply)
    (ends : Cache.Ends (errand.operation.action settings) cache
      (fun _ next => accepts next) breaks) :
    accepts (errand.leaves settings cache) := by
  rw [Cache.ends_iff_answer] at ends
  rcases errand.verdict_cases settings cache with
    ⟨_, _, answered⟩ | ⟨fault, broken, _⟩
  · rwa [answered] at ends
  · rw [returned] at broken
    cases broken

end Errand

/-- The task has called a fetch for an errand and has yet to carry it out. -/
def Stage.Pends (errand : Errand Value) (stage : Stage Value) : Prop :=
  stage = .called errand ∨ ∃ wakeAt, stage = .asleep errand wakeAt

namespace Scheduler

variable (scheduler : Scheduler Value) (task : TaskId) (flight : FlightId)
  (name : String)

/-! ## Schedulers without their flights -/

/-- What a scheduler is to a task that takes part in no flight. -/
def ashore : Scheduler Value :=
  { scheduler with flights := #[], inFlight := ∅, ready := [] }

@[simp]
theorem ashore_adjustFlight (change : Flight Value → Flight Value) :
    (scheduler.adjustFlight flight change).ashore = scheduler.ashore := rfl

@[simp]
theorem ashore_boardFlight :
    (scheduler.boardFlight name).2.ashore = scheduler.ashore := by
  rw [boardFlight]
  split
  · rfl
  · rfl

@[simp]
theorem ashore_closeFlight :
    (scheduler.closeFlight flight name).ashore = scheduler.ashore := by
  rw [closeFlight]
  split
  · rfl
  · rfl

@[simp]
theorem ashore_landFlight (outcome : Except Failure Value) :
    (scheduler.landFlight flight outcome).ashore = scheduler.ashore := by
  rw [landFlight]
  split
  · rfl
  · rfl

@[simp]
theorem ashore_leaveFlight :
    (scheduler.leaveFlight task flight).ashore = scheduler.ashore := by
  have handedOver :
      (scheduler.handOver flight).ashore = scheduler.ashore := by
    rw [handOver]
    split
    · rfl
    · split
      · rfl
      · rfl
  rw [leaveFlight]
  split
  · rfl
  · split
    · exact handedOver
    · rfl

theorem ashore_finish (verdict : Verdict Value) :
    (scheduler.finish task verdict).ashore =
      scheduler.ashore.finish task verdict := rfl

variable {scheduler} in
theorem tasks_of_ashore {next : Scheduler Value}
    (same : next.ashore = scheduler.ashore) :
    next.tasks = scheduler.tasks := by
  change next.ashore.tasks = scheduler.ashore.tasks
  rw [same]

variable {scheduler} in
theorem cache_of_ashore {next : Scheduler Value}
    (same : next.ashore = scheduler.ashore) :
    next.cache = scheduler.cache := by
  change next.ashore.cache = scheduler.ashore.cache
  rw [same]

variable {scheduler} in
theorem fetchCalls_of_ashore {next : Scheduler Value}
    (same : next.ashore = scheduler.ashore) :
    next.fetchCalls = scheduler.fetchCalls := by
  change next.ashore.fetchCalls = scheduler.ashore.fetchCalls
  rw [same]

@[simp]
theorem ashore_land (outcome : Except Failure Value) :
    (scheduler.land task flight name outcome).ashore =
      scheduler.ashore.answer task (outcome.map .one) := by
  rw [land, answer, ashore_finish, ashore_closeFlight, ashore_landFlight]
  rfl

/-- An attempt answers what the action answers and leaves the cache that it
leaves. -/
theorem attempt_eq (action : Cache.Action Value Result) :
    scheduler.attempt action =
      (Cache.answer action scheduler.cache,
        { scheduler with cache := Cache.final action scheduler.cache }) := by
  rw [attempt, Cache.answer, Cache.final]
  cases action.run scheduler.cache with
  | ok result cache => rfl
  | error fault cache => rfl

variable [Keyed Value] (settings : Settings)

/-! ## The end of a fetch -/

/-- Whoever carries out an errand does its operation and is over. -/
theorem ashore_conclude (errand : Errand Value) :
    (conclude settings scheduler task errand).ashore =
      (({ scheduler with
        cache := errand.leaves settings scheduler.cache }.finish task
          (errand.verdict settings scheduler.cache))).ashore := by
  cases errand with
  | complete flight call =>
      rw [conclude, attempt_eq]
      simp only [Errand.verdict, Errand.leaves, Errand.operation,
        Operation.action, Cache.final_discard]
      cases Cache.answer (Cache.concludeFlight settings call.storing
          call.name call.plan) scheduler.cache with
      | error fault =>
          dsimp only
          rw [ashore_finish, ashore_leaveFlight]
          rfl
      | ok outcome =>
          dsimp only
          rw [ashore_land]
          rfl
  | refresh call =>
      rw [conclude, attempt_eq]
      simp only [Errand.verdict, Errand.leaves, Errand.operation,
        Operation.action]
      cases Cache.answer (Cache.concludeRefresh settings call.storing
          call.name call.plan) scheduler.cache with
      | error fault => rfl
      | ok nothing => rfl
  | collect found misses storing plan =>
      rw [conclude, attempt_eq]
      simp only [Errand.verdict, Errand.leaves, Errand.operation,
        Operation.action, Cache.final_discard]
      cases Cache.answer (Cache.concludeMisses settings storing found misses
          plan) scheduler.cache with
      | error fault => rfl
      | ok outcome => rfl
  | refreshMany requests storing plan =>
      rw [conclude, attempt_eq]
      simp only [Errand.verdict, Errand.leaves, Errand.operation,
        Operation.action]
      cases Cache.answer (Cache.concludeRefreshes settings storing requests
          plan) scheduler.cache with
      | error fault => rfl
      | ok nothing => rfl

theorem fetchCalls_conclude (errand : Errand Value) :
    (conclude settings scheduler task errand).fetchCalls =
      scheduler.fetchCalls := by
  rw [fetchCalls_of_ashore (ashore_conclude scheduler task settings errand)]
  rfl

/-- A task with an errand sleeps or carries it out. -/
theorem await_eq (errand : Errand Value) :
    await settings scheduler task errand =
        scheduler.setStage task
          (.asleep errand (scheduler.time + errand.delay)) ∨
      errand.delay = 0 ∧
        await settings scheduler task errand =
          conclude settings scheduler task errand := by
  rw [await]
  split
  next instant => exact Or.inr ⟨instant, rfl⟩
  next => exact Or.inl rfl

theorem fetchCalls_await (errand : Errand Value) :
    (await settings scheduler task errand).fetchCalls =
      scheduler.fetchCalls := by
  rcases await_eq scheduler task settings errand with sleeps | ⟨_, ends⟩
  · rw [sleeps]
    rfl
  · rw [ends, fetchCalls_conclude]

/-- A task with an errand lets time pass or carries the errand out. -/
theorem step_of_pending
    {errand : Errand Value} {stage : Stage Value}
    (pends : stage.Pends errand)
    (found : scheduler.tasks[task]? = some stage) :
    step settings scheduler task = scheduler ∨
      (∃ wakeAt, step settings scheduler task =
        scheduler.setStage task (.asleep errand wakeAt)) ∨
      step settings scheduler task =
        conclude settings scheduler task errand := by
  rw [step, found]
  rcases pends with rfl | ⟨wakeAt, rfl⟩
  · dsimp only
    rcases await_eq scheduler task settings errand with sleeps | ⟨_, ends⟩
    · exact Or.inr (Or.inl ⟨_, sleeps⟩)
    · exact Or.inr (Or.inr ends)
  · dsimp only
    split
    · exact Or.inr (Or.inr rfl)
    · exact Or.inl rfl

variable {settings scheduler task}

theorem step_of_over
    {verdict : Verdict Value}
    (found : scheduler.tasks[task]? = some (.over verdict)) :
    step settings scheduler task = scheduler := by
  rw [step, found]

theorem step_of_none (absent : scheduler.tasks[task]? = none) :
    step settings scheduler task = scheduler := by
  rw [step, absent]

end Scheduler

end ReadThrough
