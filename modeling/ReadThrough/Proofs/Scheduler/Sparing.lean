import ReadThrough.Proofs.Cache.Untouched
import ReadThrough.Proofs.Scheduler.Bound
import ReadThrough.Proofs.Scheduler.Incidents

/-!
# Fetches that spare the store

A fetch that fails or breaks off spares the store, unless the cache takes note
of its failure: that the source has no record is stored, or removes the entry
that was to be refreshed.  No failure of a batch is taken note of.

`untouched_step` says what a task with such a fetch leaves behind, whichever
turn it takes: what its first lookups left.  `alike_follow` says what any number
of such tasks leave behind, in whatever order they take turns.
-/

namespace ReadThrough

variable {Value : Type}

/-- The source has no record. -/
def Failure.isNotFound : Failure → Bool
  | .notFound _ => true
  | _ => false

/-- The fetch ends without a result, and with no failure that is taken note
of. -/
def Ending.spares {Result : Type} (noted : Failure → Bool) :
    Ending Result → Bool
  | .returns _ => false
  | .fails failure => !noted failure
  | .breaks _ => true

theorem Ending.unnoted_of_fails
    {Result : Type} {noted : Failure → Bool} {ending : Ending Result}
    {failure : Failure} (spares : ending.spares noted)
    (failed : ending = .fails failure) : noted failure = false := by
  rw [failed] at spares
  exact Bool.not_eq_true' (noted failure) ▸ spares

/-- The fetch of an errand gives nothing to store and nothing to remove. -/
def Errand.spares (settings : Settings) : Errand Value → Bool
  | .complete _ call =>
      call.plan.ending.spares fun failure =>
        failure.isNotFound && settings.storesMissing
  | .refresh call => call.plan.ending.spares Failure.isNotFound
  | .collect _ _ _ plan => plan.ending.spares fun _ => false
  | .refreshMany _ _ plan => plan.ending.spares fun _ => false

/-! ## Errands without a result -/

namespace Cache

variable {Result : Type} {settings : Settings}

/-- The end of a fetch leaves the store alone if what is made of its failures
does. -/
theorem respects_play_untouched
    {Response : Type} {plan : Plan Response} {noted : Failure → Bool}
    {deal : Except Failure Response → Action Value Result}
    (spares : plan.ending.spares noted)
    (idle : ∀ failure, noted failure = false →
      Respects Untouched (deal (.error failure))) :
    Respects Untouched (plan.play >>= deal) := by
  rw [Plan.play, bind_assoc]
  refine (respects_advanceClock_untouched plan.advance).bind fun _ => ?_
  cases ended : plan.ending with
  | returns response =>
      rw [ended] at spares
      cases spares
  | breaks text =>
      exact fun cache => ends_bind.mpr (ends_throw.mpr (.refl cache))
  | fails failure =>
      dsimp only
      rw [pure_bind]
      exact idle failure (Ending.unnoted_of_fails spares ended)

variable [Keyed Value] {storing : Storing} {name : String}
  {failure : Failure}

theorem storeOutcome_of_unnoted
    (unnoted : (failure.isNotFound && settings.storesMissing) = false) :
    storeOutcome settings storing name (.error failure : Except _ Value) =
      pure (.error failure) := by
  cases failure with
  | notFound source =>
      have kept : settings.storesMissing = false := unnoted
      simp [storeOutcome, kept]
  | _ => rfl

theorem storeRefreshed_of_unnoted
    (unnoted : failure.isNotFound = false) :
    storeRefreshed settings storing name (.error failure : Except _ Value) =
      pure () := by
  cases failure with
  | notFound source => cases unnoted
  | _ => rfl

end Cache

namespace Errand

variable [Keyed Value] {settings : Settings} {errand : Errand Value}

theorem untouched_leaves
    (spares : errand.spares settings) (cache : Cache Value) :
    Cache.Untouched cache (errand.leaves settings cache) := by
  refine Cache.respects_final ?_ cache
  cases errand with
  | complete flight call =>
      refine (Cache.respects_play_untouched spares fun failure unnoted =>
        ?_).discard
      rw [Cache.storeOutcome_of_unnoted unnoted]
      exact Cache.respects_pure _
  | refresh call =>
      refine Cache.respects_play_untouched spares fun failure unnoted => ?_
      rw [Cache.storeRefreshed_of_unnoted unnoted]
      exact Cache.respects_pure _
  | collect found misses storing plan =>
      refine (Cache.respects_play_untouched spares fun failure _ =>
        ?_).discard
      exact Cache.respects_pure (Except.error failure)
  | refreshMany requests storing plan =>
      exact Cache.respects_play_untouched spares fun _ _ =>
        Cache.respects_pure _

end Errand

/-! ## Turns of tasks without a result -/

namespace Scheduler

variable [Keyed Value] {settings : Settings} {scheduler : Scheduler Value}
  {task : TaskId}

/-- A task whose fetch spares the store leaves it as its first lookups left
it. -/
theorem untouched_step
    {stage : Stage Value} (found : scheduler.tasks[task]? = some stage)
    (spares : ∀ errand, stage.Undertakes settings scheduler.cache errand →
      errand.spares settings) :
    Cache.Untouched (stage.reads settings scheduler.cache)
      (step settings scheduler task).cache := by
  refine relates_step found Cache.respects_peek_untouched
    fun errand undertakes next => ?_
  rw [cache_of_ashore (ashore_conclude next task settings errand)]
  exact errand.untouched_leaves (spares errand undertakes) next.cache

end Scheduler

/-! ## Runs without a result -/

/-- All fetches that a task has called or can call spare the store. -/
def Stage.Spares (settings : Settings) : Stage Value → Prop
  | .single call => (Errand.refresh call).spares settings
  | .batch call => ∀ number, (call.planAt number).ending.spares fun _ => false
  | .called errand => errand.spares settings
  | .asleep errand _ => errand.spares settings
  | .waiting flight call => (Errand.complete flight call).spares settings
  | .over _ => True

/-- A move writes, deletes and sweeps nothing, and whatever is fetched for a call
that it starts spares the store. -/
def Move.Spares (settings : Settings) : Move Value → Prop
  | .call single => (Stage.single single).Spares settings
  | .callMany batch => (Stage.batch batch).Spares settings
  | .act deed => ∃ silent, deed = .quiet silent
  | .tick => False
  | _ => True

/-- What is taken note of when an entry is refreshed is all that ever is. -/
theorem Errand.spares_complete
    {settings : Settings} {call : SingleCall Value}
    (spares : (Errand.refresh call).spares settings) (flight : FlightId) :
    (Errand.complete flight call).spares settings := by
  simp only [Errand.spares] at spares ⊢
  cases ended : call.plan.ending with
  | returns value =>
      rw [ended] at spares
      cases spares
  | breaks text => rfl
  | fails failure =>
      have found := Ending.unnoted_of_fails spares ended
      simp [Ending.spares, found]

theorem Stage.Spares.undertakes
    {settings : Settings} {stage : Stage Value} (spares : stage.Spares settings)
    {cache : Cache Value} {errand : Errand Value}
    (undertakes : stage.Undertakes settings cache errand) :
    errand.spares settings := by
  cases undertakes with
  | single flight call => exact Errand.spares_complete spares flight
  | batch answered => exact spares _
  | called errand => exact spares
  | asleep errand wakeAt => exact spares
  | waiting flight call => exact spares

namespace Scheduler

/-- All fetches that are under way or still to be called spare the store. -/
def Spares (settings : Settings) (scheduler : Scheduler Value) : Prop :=
  ∀ (task : TaskId) (stage : Stage Value),
    scheduler.tasks[task]? = some stage → stage.Spares settings

section Spares

variable {settings : Settings} {scheduler next : Scheduler Value}
  {task : TaskId} {stage : Stage Value}

theorem Spares.of_tasks
    (spares : scheduler.Spares settings)
    (same : next.tasks = scheduler.tasks) : next.Spares settings :=
  fun task stage found => spares task stage (same ▸ found)

theorem Spares.setStage
    (spares : scheduler.Spares settings) (spared : stage.Spares settings) :
    (scheduler.setStage task stage).Spares settings := by
  intro other found there
  simp only [Scheduler.setStage, Array.getElem?_setIfInBounds] at there
  split at there
  · split at there
    · cases there
      exact spared
    · cases there
  · exact spares other found there

theorem Spares.finish
    (spares : scheduler.Spares settings) (verdict : Verdict Value) :
    (scheduler.finish task verdict).Spares settings :=
  Spares.setStage spares trivial

theorem Spares.spawn
    (spares : scheduler.Spares settings) (spared : stage.Spares settings) :
    (scheduler.spawn stage).Spares settings := by
  intro other found there
  simp only [Scheduler.spawn, Array.getElem?_push] at there
  split at there
  · cases there
    exact spared
  · exact spares other found there

variable [Keyed Value]

theorem Spares.conclude
    (spares : scheduler.Spares settings) (errand : Errand Value) :
    (conclude settings scheduler task errand).Spares settings := by
  have left : ({ scheduler with
      cache := errand.leaves settings scheduler.cache } :
        Scheduler Value).Spares settings := spares.of_tasks rfl
  exact (left.finish _).of_tasks
    (tasks_of_ashore (ashore_conclude scheduler task settings errand))

theorem Spares.await
    (spares : scheduler.Spares settings) {errand : Errand Value}
    (spared : errand.spares settings) :
    (await settings scheduler task errand).Spares settings := by
  rw [Scheduler.await]
  split
  · exact spares.conclude errand
  · exact Spares.setStage spares spared

section Single

variable {call : SingleCall Value} {waited : FlightId}
  (spared : (Errand.complete waited call).spares settings)

include spared

theorem Spares.lead
    (spares : scheduler.Spares settings) (flight : FlightId) :
    (lead settings scheduler task flight call).Spares settings := by
  have sparesNext : { scheduler with
      cache := Cache.final (Cache.peek call.name)
        scheduler.cache }.Spares settings := spares
  have landed : ∀ outcome : Except Failure Value,
      ({ scheduler with
        cache := Cache.final (Cache.peek call.name)
          scheduler.cache }.land task flight call.name outcome).Spares
            settings := fun outcome =>
    (sparesNext.finish _).of_tasks
      (tasks_of_ashore (ashore_land _ task flight call.name outcome))
  rw [Scheduler.lead, attempt_eq]
  cases Cache.answer (Cache.peek call.name) scheduler.cache with
  | error fault =>
      exact (sparesNext.of_tasks (tasks_leaveFlight task flight)).finish _
  | ok found =>
      cases found with
      | found value refresh => exact landed (.ok value)
      | missing refresh => exact landed (.error (.missingRecord call.name))
      | absent =>
          have noted : ({ scheduler with
              cache := Cache.final (Cache.peek call.name)
                scheduler.cache }.noteCall (.one task call.name)).Spares
                  settings := spares
          exact noted.await spared

theorem Spares.join (spares : scheduler.Spares settings) :
    (join settings scheduler task call).Spares settings := by
  have boards : (scheduler.boardFlight call.name).2.Spares settings :=
    spares.of_tasks (tasks_of_ashore (scheduler.ashore_boardFlight call.name))
  rw [Scheduler.join]
  generalize scheduler.boardFlight call.name = boarding at boards
  obtain ⟨flight, boarded⟩ := boarding
  dsimp only at boards ⊢
  split
  · exact boards
  · split
    · exact (boards.of_tasks (tasks_of_ashore
        (boarded.ashore_closeFlight flight call.name))).finish _
    · have seated : (boarded.adjustFlight flight fun flight =>
          { flight with leader := some task }).Spares settings :=
        boards.of_tasks rfl
      exact Spares.lead spared seated flight
    · exact Spares.setStage boards spared

theorem Spares.resume
    (spares : scheduler.Spares settings) (flight : FlightId) :
    (resume settings scheduler task flight call).Spares settings := by
  rw [Scheduler.resume]
  split
  · exact spares
  · split
    · exact (spares.of_tasks (tasks_of_ashore
        (scheduler.ashore_closeFlight flight call.name))).finish _
    · split
      · exact spares.lead spared flight
      · exact spares

end Single

theorem Spares.beginSingle
    {call : SingleCall Value} (spares : scheduler.Spares settings)
    (spared : (Stage.single call).Spares settings) :
    (beginSingle settings scheduler task call).Spares settings := by
  have refreshes : ∀ {read : Scheduler Value} (elected : Bool),
      read.Spares settings →
        (read.refreshIf task elected call).Spares settings := by
    intro read elected sparesRead
    rw [refreshIf]
    split
    · have noted : (read.noteCall (.one task call.name)).Spares settings :=
        sparesRead
      exact Spares.spawn noted spared
    · exact sparesRead
  have sparesNext : { scheduler with
      cache := Cache.final (Cache.lookup settings call.name)
        scheduler.cache }.Spares settings := spares
  rw [Scheduler.beginSingle, attempt_eq]
  cases Cache.answer (Cache.lookup settings call.name) scheduler.cache with
  | error fault => exact sparesNext.finish _
  | ok found =>
      cases found with
      | found value elected => exact (refreshes elected sparesNext).finish _
      | missing elected => exact (refreshes elected sparesNext).finish _
      | absent =>
          exact sparesNext.join (Errand.spares_complete spared 0)

theorem Spares.beginBatch
    {call : BatchCall Value} (spares : scheduler.Spares settings)
    (spared : (Stage.batch call).Spares settings) :
    (beginBatch settings scheduler task call).Spares settings := by
  have sparesNext : { scheduler with
      cache := Cache.final (Cache.gather settings call.requests
        { found := ∅, refreshes := [], misses := [] })
          scheduler.cache }.Spares settings := spares
  rw [Scheduler.beginBatch, attempt_eq]
  generalize { scheduler with
    cache := Cache.final (Cache.gather settings call.requests
      { found := ∅, refreshes := [], misses := [] })
        scheduler.cache } = next at sparesNext
  cases Cache.answer (Cache.gather settings call.requests
      { found := ∅, refreshes := [], misses := [] }) scheduler.cache with
  | error fault => exact sparesNext.finish _
  | ok gathered =>
      dsimp only
      generalize same : (if gathered.refreshes.isEmpty = true then next
        else _ : Scheduler Value) = refreshing
      have sparesAll : refreshing.Spares settings := by
        rw [← same]
        split
        · exact sparesNext
        · have noted : (next.noteCall (.many task
              (gathered.refreshes.map (·.label)))).Spares settings :=
            sparesNext
          exact Spares.spawn noted (spared 0)
      split
      · exact sparesAll.finish _
      · have noted : (refreshing.noteCall (.many task
            (gathered.misses.map (·.label)))).Spares settings := sparesAll
        exact noted.await (spared (if gathered.refreshes.isEmpty then 0
          else 1))

theorem Spares.step
    (spares : scheduler.Spares settings) (task : TaskId) :
    (step settings scheduler task).Spares settings := by
  rw [Scheduler.step]
  cases found : scheduler.tasks[task]? with
  | none => exact spares
  | some stage =>
      have spared := spares task stage found
      cases stage with
      | single call => exact spares.beginSingle spared
      | batch call => exact spares.beginBatch spared
      | called errand => exact spares.await spared
      | asleep errand wakeAt =>
          dsimp only
          split
          · exact spares.conclude errand
          · exact spares
      | waiting flight call => exact spares.resume spared flight
      | «over» verdict => exact spares

omit [Keyed Value] in
theorem Spares.abort
    (spares : scheduler.Spares settings) (task : TaskId) :
    (scheduler.abort task).Spares settings := by
  rw [Scheduler.abort]
  split
  · exact spares
  · split
    · exact spares
    · split
      · exact (spares.of_tasks (tasks_leaveFlight task _)).finish _
      · exact spares.finish _

theorem alike_step
    (spares : scheduler.Spares settings) (task : TaskId) :
    Cache.Alike scheduler.cache (step settings scheduler task).cache := by
  cases found : scheduler.tasks[task]? with
  | none =>
      rw [step_of_none found]
      exact .refl scheduler.cache
  | some stage =>
      have left := untouched_step found
        fun _ => (spares task stage found).undertakes
      exact (stage.relates_reads (Cache.respects_lookup_alike settings)
        scheduler.cache).trans
        (.of_eq left.shards left.routes)

end Spares

end Scheduler

namespace Logbook

variable [Keyed Value] {settings : Settings} {logbook : Logbook Value}
  {move : Move Value}

theorem spares_after
    (spares : logbook.scheduler.Spares settings)
    (spared : move.Spares settings) :
    (after settings logbook move).scheduler.Spares settings := by
  cases move with
  | call call =>
      exact Scheduler.Spares.spawn spares spared
  | callMany call =>
      exact Scheduler.Spares.spawn spares spared
  | turn task =>
      have running : ({ logbook.scheduler with
          ready := logbook.scheduler.ready.erase task } :
            Scheduler Value).Spares settings := spares
      exact running.step task
  | abort task => exact spares.abort task
  | tick => exact spared.elim
  | _ => exact spares

theorem alike_after
    (spares : logbook.scheduler.Spares settings)
    (spared : move.Spares settings) :
    Cache.Alike logbook.scheduler.cache
      (after settings logbook move).scheduler.cache := by
  cases move with
  | turn task =>
      have running : ({ logbook.scheduler with
          ready := logbook.scheduler.ready.erase task } :
            Scheduler Value).Spares settings := spares
      exact Scheduler.alike_step running task
  | act act =>
      obtain ⟨silent, rfl⟩ := spared
      exact Cache.respects_final (Cache.respects_quiet_alike settings silent)
        logbook.scheduler.cache
  | abort task =>
      rw [after, Scheduler.cache_abort]
      exact .refl logbook.scheduler.cache
  | tick => exact spared.elim
  | _ => exact .refl logbook.scheduler.cache

/-- As long as every fetch spares the store and nothing is written, deleted or
swept, the cache stores what it did. -/
theorem alike_follow
    (spares : logbook.scheduler.Spares settings) (moves : List (Move Value))
    (spared : ∀ move ∈ moves, move.Spares settings) :
    Cache.Alike logbook.scheduler.cache
      (follow settings logbook moves).scheduler.cache := by
  induction moves generalizing logbook with
  | nil => exact .refl logbook.scheduler.cache
  | cons move moves inductionHypothesis =>
      obtain ⟨first, rest⟩ := List.forall_mem_cons.mp spared
      exact (alike_after spares first).trans
        (inductionHypothesis (spares_after spares first) rest)

end Logbook

end ReadThrough
