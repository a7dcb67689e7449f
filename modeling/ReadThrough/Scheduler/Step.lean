import ReadThrough.Scheduler.Flight

/-!
# Steps of tasks

A ready task takes one step.  A call of one name looks the name up: a hit is
answered at once, and refreshed in the background if the lookup was elected; a
miss boards the flight of the name.  The leader of a flight looks again and
fetches only if the name is still absent.

A batch looks all of its records up, refreshes the elected ones in the
background with one fetch, and fetches the misses with another.
-/

namespace ReadThrough.Scheduler

variable {Value : Type} [Keyed Value]

/-! ## The end of a fetch -/

/-- End the flight that a task leads: everybody learns the outcome, and no
further call joins. -/
def land
    (scheduler : Scheduler Value) (task : TaskId) (flight : FlightId)
    (name : String) (outcome : Except Failure Value) : Scheduler Value :=
  ((scheduler.landFlight flight outcome).closeFlight flight name).answer
    task (outcome.map .one)

/-- Carry out the errand of a task whose fetch is over. -/
def conclude
    (settings : Settings) (scheduler : Scheduler Value) (task : TaskId) :
    Errand Value → Scheduler Value
  | .complete flight call =>
      match scheduler.attempt
          (Cache.concludeFlight settings call.storing call.name
            call.plan) with
      | (.error fault, next) =>
          (next.leaveFlight task flight).finish task (.broken fault)
      | (.ok outcome, next) => next.land task flight call.name outcome
  | .refresh call =>
      match scheduler.attempt
          (Cache.concludeRefresh settings call.storing call.name
            call.plan) with
      | (.error fault, next) => next.finish task (.broken fault)
      | (.ok _, next) => next.answer task (.ok (.many ∅))
  | .collect found misses storing plan =>
      match scheduler.attempt
          (Cache.concludeMisses settings storing found misses plan) with
      | (.error fault, next) => next.finish task (.broken fault)
      | (.ok outcome, next) => next.answer task (outcome.map .many)
  | .refreshMany requests storing plan =>
      match scheduler.attempt
          (Cache.concludeRefreshes settings storing requests plan) with
      | (.error fault, next) => next.finish task (.broken fault)
      | (.ok _, next) => next.answer task (.ok (.many ∅))

/-- Wait for the fetch of an errand.  Without a delay it is over at once. -/
def await
    (settings : Settings) (scheduler : Scheduler Value) (task : TaskId)
    (errand : Errand Value) : Scheduler Value :=
  if errand.delay = 0 then
    conclude settings scheduler task errand
  else
    scheduler.setStage task
      (.asleep errand (scheduler.time + errand.delay))

/-! ## Calls of one name -/

/-- Lead a flight: look again, and fetch if the name is still absent. -/
def lead
    (settings : Settings) (scheduler : Scheduler Value) (task : TaskId)
    (flight : FlightId) (call : SingleCall Value) : Scheduler Value :=
  match scheduler.attempt (Cache.peek call.name) with
  | (.error fault, next) =>
      (next.leaveFlight task flight).finish task (.broken fault)
  | (.ok (.found value _), next) =>
      next.land task flight call.name (.ok value)
  | (.ok (.missing _), next) =>
      next.land task flight call.name (.error (.missingRecord call.name))
  | (.ok .absent, next) =>
      await settings (next.noteCall (.one task call.name)) task
        (.complete flight call)

/-- Join the flight of a name.  Whoever finds it without a leader leads it. -/
def join
    (settings : Settings) (scheduler : Scheduler Value) (task : TaskId)
    (call : SingleCall Value) : Scheduler Value :=
  let (flight, boarded) := scheduler.boardFlight call.name
  match boarded.flights[flight]? with
  | none => boarded
  | some joined =>
      match joined.outcome, joined.leader with
      | some outcome, _ =>
          (boarded.closeFlight flight call.name).answer task
            (outcome.map .one)
      | none, none =>
          lead settings
            (boarded.adjustFlight flight fun flight =>
              { flight with leader := some task })
            task flight call
      | none, some _ =>
          (boarded.adjustFlight flight fun flight =>
            { flight with waiting := flight.waiting ++ [task] }).setStage
              task (.waiting flight call)

/-- Refresh an entry in the background if the lookup of a task was elected
to. -/
def refreshIf
    (scheduler : Scheduler Value) (task : TaskId) (elected : Bool)
    (call : SingleCall Value) : Scheduler Value :=
  if elected then
    (scheduler.noteCall (.one task call.name)).spawn
      (.called (.refresh call))
  else
    scheduler

/-- Begin a call of one name. -/
def beginSingle
    (settings : Settings) (scheduler : Scheduler Value) (task : TaskId)
    (call : SingleCall Value) : Scheduler Value :=
  match scheduler.attempt (Cache.lookup settings call.name) with
  | (.error fault, next) => next.finish task (.broken fault)
  | (.ok (.found value refresh), next) =>
      (next.refreshIf task refresh call).answer task (.ok (.one value))
  | (.ok (.missing refresh), next) =>
      (next.refreshIf task refresh call).answer task
        (.error (.missingRecord call.name))
  | (.ok .absent, next) => join settings next task call

/-- Go on with a call whose flight has landed or was handed over to it. -/
def resume
    (settings : Settings) (scheduler : Scheduler Value) (task : TaskId)
    (flight : FlightId) (call : SingleCall Value) : Scheduler Value :=
  match scheduler.flights[flight]? with
  | none => scheduler
  | some joined =>
      match joined.outcome with
      | some outcome =>
          (scheduler.closeFlight flight call.name).answer task
            (outcome.map .one)
      | none =>
          if joined.leader = some task then
            lead settings scheduler task flight call
          else
            scheduler

/-! ## Batches -/

/-- Begin the call of a batch. -/
def beginBatch
    (settings : Settings) (scheduler : Scheduler Value) (task : TaskId)
    (call : BatchCall Value) : Scheduler Value :=
  let gather :=
    Cache.gather settings call.requests
      { found := ∅, refreshes := [], misses := [] }
  match scheduler.attempt gather with
  | (.error fault, next) => next.finish task (.broken fault)
  | (.ok gathered, next) =>
      let refreshing :=
        if gathered.refreshes.isEmpty then next
        else
          (next.noteCall
            (.many task (gathered.refreshes.map (·.label)))).spawn
            (.called (.refreshMany gathered.refreshes call.storing
              (call.planAt 0)))
      if gathered.misses.isEmpty then
        refreshing.answer task (.ok (.many gathered.found))
      else
        let number := if gathered.refreshes.isEmpty then 0 else 1
        await settings
          (refreshing.noteCall
            (.many task (gathered.misses.map (·.label))))
          task
          (.collect gathered.found gathered.misses call.storing
            (call.planAt number))

/-! ## Running -/

/-- One step of a task. -/
def step
    (settings : Settings) (scheduler : Scheduler Value) (task : TaskId) :
    Scheduler Value :=
  match scheduler.tasks[task]? with
  | none => scheduler
  | some (.single call) => beginSingle settings scheduler task call
  | some (.batch call) => beginBatch settings scheduler task call
  | some (.called errand) => await settings scheduler task errand
  | some (.asleep errand wakeAt) =>
      if wakeAt ≤ scheduler.time then
        conclude settings scheduler task errand
      else
        scheduler
  | some (.waiting flight call) =>
      resume settings scheduler task flight call
  | some (.over _) => scheduler

/-- Let ready tasks take steps, at most as many as `limit` says. -/
def settleWithin (settings : Settings) :
    Nat → Scheduler Value → Scheduler Value
  | 0, scheduler => scheduler
  | limit + 1, scheduler =>
      match scheduler.ready with
      | [] => scheduler
      | task :: rest =>
          settleWithin settings limit
            (step settings { scheduler with ready := rest } task)

/-- The number of steps that can be taken without time passing: one for every
ready task, for every task that waits for a flight, and for every task that a
call which has not begun may add. -/
def pendingSteps (scheduler : Scheduler Value) : Nat :=
  scheduler.ready.length +
    scheduler.flights.toList.foldr
      (fun flight total => flight.waiting.length + total) 0 +
    scheduler.tasks.countP Stage.isUnbegun

/-- Let tasks take steps until none is ready. -/
def settle (settings : Settings) (scheduler : Scheduler Value) :
    Scheduler Value :=
  settleWithin settings scheduler.pendingSteps scheduler

/-- Abort a task.  One that has ended is left as it is. -/
def abort (scheduler : Scheduler Value) (task : TaskId) : Scheduler Value :=
  match scheduler.tasks[task]? with
  | none => scheduler
  | some stage =>
      if stage.isOver then
        scheduler
      else
        match stage.flight? with
        | some flight =>
            (scheduler.leaveFlight task flight).finish task .cancelled
        | none => scheduler.finish task .cancelled

end ReadThrough.Scheduler
