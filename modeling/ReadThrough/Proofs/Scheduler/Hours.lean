import ReadThrough.Proofs.Scheduler.Errands
import ReadThrough.Scheduler.Passage

/-!
# Time and the sweeper

Neither a task that takes its turn nor a task that is aborted concerns the time
or the sweeper (`hours_step`, `hours_abort`).  What a tick does to them is told
by `tick_eq`.
-/

namespace ReadThrough

namespace Scheduler

variable {Value : Type} (scheduler : Scheduler Value) (task : TaskId)
  (flight : FlightId)

/-- What tasks have no part in: the time and the sweeper. -/
def hours : Nat × Option Sweeper :=
  (scheduler.time, scheduler.sweeper)

theorem hours_of_ashore {next : Scheduler Value}
    (same : next.ashore = scheduler.ashore) :
    next.hours = scheduler.hours := by
  change next.ashore.hours = scheduler.ashore.hours
  rw [same]

@[simp]
theorem hours_finish (verdict : Verdict Value) :
    (scheduler.finish task verdict).hours = scheduler.hours := rfl

@[simp]
theorem hours_answer (result : Except Failure (Reply Value)) :
    (scheduler.answer task result).hours = scheduler.hours := rfl

@[simp]
theorem hours_leaveFlight :
    (scheduler.leaveFlight task flight).hours = scheduler.hours :=
  hours_of_ashore _ (ashore_leaveFlight scheduler task flight)

@[simp]
theorem hours_closeFlight (name : String) :
    (scheduler.closeFlight flight name).hours = scheduler.hours :=
  hours_of_ashore _ (ashore_closeFlight scheduler flight name)

@[simp]
theorem hours_land (name : String) (outcome : Except Failure Value) :
    (scheduler.land task flight name outcome).hours = scheduler.hours := by
  have same := congrArg hours (ashore_land scheduler task flight name outcome)
  exact same

@[simp]
theorem hours_refreshIf (elected : Bool) (call : SingleCall Value) :
    (scheduler.refreshIf task elected call).hours = scheduler.hours := by
  rw [refreshIf]
  split
  · rfl
  · rfl

@[simp]
theorem hours_abort : (scheduler.abort task).hours = scheduler.hours := by
  rw [abort]
  split
  · rfl
  · split
    · rfl
    · split
      · simp
      · rfl

section Turns

variable [Keyed Value] (settings : Settings)

@[simp]
theorem hours_conclude (errand : Errand Value) :
    (conclude settings scheduler task errand).hours = scheduler.hours := by
  have same :=
    congrArg hours (ashore_conclude scheduler task settings errand)
  exact same

@[simp]
theorem hours_await (errand : Errand Value) :
    (await settings scheduler task errand).hours = scheduler.hours := by
  rw [await]
  split
  · exact hours_conclude scheduler task settings errand
  · rfl

@[simp]
theorem hours_lead (call : SingleCall Value) :
    (lead settings scheduler task flight call).hours = scheduler.hours := by
  rw [lead, attempt_eq]
  cases Cache.answer (Cache.peek call.name) scheduler.cache with
  | error fault =>
      rw [hours_finish, hours_leaveFlight]
      rfl
  | ok found =>
      cases found with
      | found value refresh => exact hours_land _ _ _ _ _
      | missing refresh => exact hours_land _ _ _ _ _
      | absent => exact hours_await _ _ _ _

@[simp]
theorem hours_join (call : SingleCall Value) :
    (join settings scheduler task call).hours = scheduler.hours := by
  have same := hours_of_ashore _ (ashore_boardFlight scheduler call.name)
  rw [join]
  generalize scheduler.boardFlight call.name = boarding at *
  obtain ⟨flight, boarded⟩ := boarding
  dsimp only at same ⊢
  rw [← same]
  cases boarded.flights[flight]? with
  | none => rfl
  | some joined =>
      dsimp only
      cases joined.outcome with
      | some outcome => simp
      | none =>
          cases joined.leader with
          | some leader => rfl
          | none => exact hours_lead (boarded.adjustFlight flight _) _ _ _ _

@[simp]
theorem hours_beginSingle (call : SingleCall Value) :
    (beginSingle settings scheduler task call).hours = scheduler.hours := by
  rw [beginSingle, attempt_eq]
  cases Cache.answer (Cache.lookup settings call.name) scheduler.cache with
  | error fault => rfl
  | ok found =>
      cases found with
      | found value refresh =>
          exact (hours_answer _ _ _).trans (hours_refreshIf _ _ _ _)
      | missing refresh =>
          exact (hours_answer _ _ _).trans (hours_refreshIf _ _ _ _)
      | absent => exact hours_join _ _ _ _

@[simp]
theorem hours_beginBatch (call : BatchCall Value) :
    (beginBatch settings scheduler task call).hours = scheduler.hours := by
  rw [beginBatch, attempt_eq]
  cases Cache.answer (Cache.gather settings call.requests
      { found := ∅, refreshes := [], misses := [] }) scheduler.cache with
  | error fault => rfl
  | ok gathered =>
      dsimp only
      -- The background refresh is a new task, and its fetch a noted call.
      generalize same : (if gathered.refreshes.isEmpty = true then _
        else _ : Scheduler Value) = refreshing
      have begun : refreshing.hours = scheduler.hours := by
        rw [← same]
        split
        · rfl
        · rfl
      rw [← begun]
      split
      · rfl
      · exact hours_await _ _ _ _

@[simp]
theorem hours_resume (call : SingleCall Value) :
    (resume settings scheduler task flight call).hours =
      scheduler.hours := by
  rw [resume]
  cases scheduler.flights[flight]? with
  | none => rfl
  | some joined =>
      dsimp only
      cases joined.outcome with
      | some outcome =>
          exact (hours_answer _ _ _).trans (hours_closeFlight _ _ _)
      | none =>
          dsimp only
          split
          · exact hours_lead _ _ _ _ _
          · rfl

@[simp]
theorem hours_step :
    (step settings scheduler task).hours = scheduler.hours := by
  rw [step]
  cases scheduler.tasks[task]? with
  | none => rfl
  | some stage =>
      cases stage with
      | single call => exact hours_beginSingle _ _ _ _
      | batch call => exact hours_beginBatch _ _ _ _
      | called errand => exact hours_await _ _ _ _
      | asleep errand wakeAt =>
          dsimp only
          split
          · exact hours_conclude _ _ _ _
          · rfl
      | waiting flight call => exact hours_resume _ _ _ _ _
      | «over» verdict => rfl

end Turns

section Tick

variable {scheduler}

/-- A tick that goes well sweeps its shard and sets the timer anew. -/
theorem tick_eq
    {sweeper : Sweeper} (active : scheduler.activeSweeper? = some sweeper)
    {number : Nat}
    (swept : Cache.answer (Cache.sweep sweeper.nextShard) scheduler.cache =
      .ok number) :
    scheduler.tick = { scheduler with
      cache := Cache.final (Cache.sweep sweeper.nextShard) scheduler.cache
      sweeper := some (sweeper.advance
        (Cache.final (Cache.sweep sweeper.nextShard)
          scheduler.cache).shards.size) } := by
  rw [tick, active]
  dsimp only
  rw [attempt_eq, swept]

end Tick

end Scheduler

end ReadThrough
