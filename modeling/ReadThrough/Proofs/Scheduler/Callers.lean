import ReadThrough.Proofs.Scheduler.Errands
import ReadThrough.Proofs.Scheduler.Incidents

/-!
# Who has called which fetches

Every call of a fetch function tells which task has called it, whether the fetch
is of one name or of several.  A task calls fetches in turns of its own only
(`callsFrom_after`): none before the first turn of a batch
(`uncalled_undergoAll`), and none once it waits for its fetch or is over
(`spent_follow`).  What a batch calls, and all else that its first turn does, is
told by `opens_beginBatch`.
-/

namespace ReadThrough

variable {Value : Type}

/-- The task that has called a fetch. -/
def FetchCall.caller : FetchCall → TaskId
  | .one caller _ => caller
  | .many caller _ => caller

/-- The call of the fetch of a batch for some of its requests, if there are
any. -/
def FetchCall.forRequests (task : TaskId) (requests : List Request) :
    List FetchCall :=
  if requests.isEmpty then [] else [.many task (requests.map (·.label))]

theorem FetchCall.forRequests_nil (task : TaskId) :
    FetchCall.forRequests task [] = [] := rfl

/-- The calls of fetches that a task has made, the oldest first. -/
def Crew.callsFrom (crew : Crew Value) (task : TaskId) : List FetchCall :=
  crew.calls.filter (·.caller = task)

namespace Scheduler

/-- The calls of a task among those that were not taken out. -/
def callsFrom (scheduler : Scheduler Value) (task : TaskId) :
    List FetchCall :=
  scheduler.fetchCalls.toList.filter (·.caller = task)

theorem crew_callsFrom
    (scheduler : Scheduler Value) (reported : List FetchCall)
    (task : TaskId) :
    (scheduler.crew reported).callsFrom task =
      reported.filter (·.caller = task) ++ scheduler.callsFrom task :=
  List.filter_append _ _

variable (scheduler : Scheduler Value) {task other : TaskId}
  (flight : FlightId)

theorem callsFrom_of_fetchCalls {next : Scheduler Value}
    (same : next.fetchCalls = scheduler.fetchCalls) :
    next.callsFrom other = scheduler.callsFrom other := by
  rw [callsFrom, same]
  rfl

theorem fetchCalls_leaveFlight :
    (scheduler.leaveFlight task flight).fetchCalls = scheduler.fetchCalls :=
  fetchCalls_of_ashore (ashore_leaveFlight scheduler task flight)

theorem fetchCalls_closeFlight (name : String) :
    (scheduler.closeFlight flight name).fetchCalls = scheduler.fetchCalls :=
  fetchCalls_of_ashore (ashore_closeFlight scheduler flight name)

theorem fetchCalls_land (name : String) (outcome : Except Failure Value) :
    (scheduler.land task flight name outcome).fetchCalls =
      scheduler.fetchCalls := by
  have same := congrArg fetchCalls
    (ashore_land scheduler task flight name outcome)
  exact same

theorem fetchCalls_abort :
    (scheduler.abort task).fetchCalls = scheduler.fetchCalls := by
  rw [abort]
  split
  · rfl
  · split
    · rfl
    · split
      · exact fetchCalls_leaveFlight scheduler _
      · rfl

/-! ## Background fetches of a batch -/

section Delegating

variable {scheduler} {call : BatchCall Value} {requests : List Request}

/-- A batch leaves requests to a new task, if there are any. -/
def delegating (scheduler : Scheduler Value) (task : TaskId)
    (call : BatchCall Value) (requests : List Request) : Scheduler Value :=
  if requests.isEmpty then scheduler
  else
    (scheduler.noteCall (.many task (requests.map (·.label)))).spawn
      (.called (.refreshMany requests call.storing (call.planAt 0)))

theorem cache_delegating :
    (scheduler.delegating task call requests).cache = scheduler.cache := by
  rw [delegating]
  split
  · rfl
  · rfl

variable (scheduler task call requests) in
theorem fetchCalls_delegating :
    (scheduler.delegating task call requests).fetchCalls.toList =
      scheduler.fetchCalls.toList ++ FetchCall.forRequests task requests := by
  rw [delegating, FetchCall.forRequests]
  split
  · exact (List.append_nil _).symm
  · exact Array.toList_push

variable (scheduler task call requests) in
theorem size_le_delegating :
    scheduler.tasks.size ≤
      (scheduler.delegating task call requests).tasks.size := by
  rw [delegating]
  split
  · exact Nat.le_refl _
  · exact (Array.size_push _).symm ▸ Nat.le_succ _

variable (scheduler task call requests) in
theorem hired_of_delegating (due : requests ≠ []) :
    (scheduler.delegating task call requests).tasks[scheduler.tasks.size]? =
      some (.called
        (.refreshMany requests call.storing (call.planAt 0))) := by
  rw [delegating, if_neg (by simpa using due)]
  exact Array.getElem?_push_size

/-- A batch whose lookups have gathered something has found it all, or it waits
for a fetch. -/
theorem beginBatch_eq [Keyed Value] {settings : Settings}
    {gathered : Cache.Gathered Value}
    (answered : Cache.answer (Cache.gather settings call.requests
      { found := ∅, refreshes := [], misses := [] }) scheduler.cache =
        .ok gathered) :
    let reading := { scheduler with
      cache := (Stage.batch call).reads settings scheduler.cache }
    let refreshing := reading.delegating task call gathered.refreshes
    beginBatch settings scheduler task call =
      if gathered.misses.isEmpty then
        refreshing.answer task (.ok (.many gathered.found))
      else
        await settings
          (refreshing.noteCall
            (.many task (gathered.misses.map (·.label))))
          task
          (.collect gathered.found gathered.misses call.storing
            (call.planAt (if gathered.refreshes.isEmpty then 0 else 1))) := by
  rw [beginBatch, attempt_eq, answered]
  rfl

end Delegating

/-! ## The calls of others -/

section Others

variable (apart : task ≠ other)

include apart

theorem callsFrom_noteCall {call : FetchCall} (own : call.caller = task) :
    (scheduler.noteCall call).callsFrom other =
      scheduler.callsFrom other := by
  have notOther : ¬ call.caller = other := own ▸ apart
  simp [noteCall, callsFrom, notOther]

theorem callsFrom_delegating (call : BatchCall Value)
    (requests : List Request) :
    (scheduler.delegating task call requests).callsFrom other =
      scheduler.callsFrom other := by
  rw [delegating]
  split
  · rfl
  · exact callsFrom_noteCall scheduler apart rfl

theorem callsFrom_refreshIf (elected : Bool) (call : SingleCall Value) :
    (scheduler.refreshIf task elected call).callsFrom other =
      scheduler.callsFrom other := by
  rw [refreshIf]
  split
  · exact callsFrom_noteCall scheduler apart rfl
  · rfl

variable [Keyed Value] (settings : Settings)

theorem callsFrom_lead (call : SingleCall Value) :
    (lead settings scheduler task flight call).callsFrom other =
      scheduler.callsFrom other := by
  rw [lead, attempt_eq]
  cases Cache.answer (Cache.peek call.name) scheduler.cache with
  | error fault =>
      exact callsFrom_of_fetchCalls scheduler (fetchCalls_leaveFlight _ flight)
  | ok found =>
      cases found with
      | found value refresh =>
          exact callsFrom_of_fetchCalls scheduler (fetchCalls_land _ _ _ _)
      | missing refresh =>
          exact callsFrom_of_fetchCalls scheduler (fetchCalls_land _ _ _ _)
      | absent =>
          exact (callsFrom_of_fetchCalls _ (fetchCalls_await _ _ _ _)).trans
            (callsFrom_noteCall _ apart rfl)

theorem callsFrom_join (call : SingleCall Value) :
    (join settings scheduler task call).callsFrom other =
      scheduler.callsFrom other := by
  have same : (scheduler.boardFlight call.name).2.callsFrom other =
      scheduler.callsFrom other :=
    callsFrom_of_fetchCalls scheduler
      (fetchCalls_of_ashore (ashore_boardFlight scheduler call.name))
  rw [join]
  generalize scheduler.boardFlight call.name = boarding at *
  obtain ⟨flight, boarded⟩ := boarding
  dsimp only at same ⊢
  rw [← same]
  cases boarded.flights[flight]? with
  | none => rfl
  | some joined =>
      dsimp only
      cases joined.outcome with
      | some outcome =>
          exact callsFrom_of_fetchCalls boarded
            (fetchCalls_closeFlight boarded flight call.name)
      | none =>
          cases joined.leader with
          | some leader => rfl
          | none => exact callsFrom_lead _ flight apart settings call

theorem callsFrom_beginSingle (call : SingleCall Value) :
    (beginSingle settings scheduler task call).callsFrom other =
      scheduler.callsFrom other := by
  rw [beginSingle, attempt_eq]
  cases Cache.answer (Cache.lookup settings call.name) scheduler.cache with
  | error fault => rfl
  | ok found =>
      cases found with
      | found value refresh => exact callsFrom_refreshIf _ apart refresh call
      | missing refresh => exact callsFrom_refreshIf _ apart refresh call
      | absent => exact callsFrom_join _ apart settings call

theorem callsFrom_resume (call : SingleCall Value) :
    (resume settings scheduler task flight call).callsFrom other =
      scheduler.callsFrom other := by
  rw [resume]
  cases scheduler.flights[flight]? with
  | none => rfl
  | some joined =>
      dsimp only
      cases joined.outcome with
      | some outcome =>
          exact callsFrom_of_fetchCalls scheduler
            (fetchCalls_closeFlight scheduler flight call.name)
      | none =>
          dsimp only
          split
          · exact callsFrom_lead scheduler flight apart settings call
          · rfl

theorem callsFrom_beginBatch (call : BatchCall Value) :
    (beginBatch settings scheduler task call).callsFrom other =
      scheduler.callsFrom other := by
  cases answered : Cache.answer (Cache.gather settings call.requests
      { found := ∅, refreshes := [], misses := [] }) scheduler.cache with
  | error fault =>
      rw [beginBatch, attempt_eq, answered]
      rfl
  | ok gathered =>
      rw [beginBatch_eq answered]
      have delegated := callsFrom_delegating { scheduler with
        cache := (Stage.batch call).reads settings scheduler.cache } apart call
        gathered.refreshes
      split
      · exact delegated
      · exact (callsFrom_of_fetchCalls _ (fetchCalls_await _ _ _ _)).trans
          ((callsFrom_noteCall _ apart rfl).trans delegated)

/-- A task that takes its turn calls no fetch for another one. -/
theorem callsFrom_step :
    (step settings scheduler task).callsFrom other =
      scheduler.callsFrom other := by
  rw [step]
  cases scheduler.tasks[task]? with
  | none => rfl
  | some stage =>
      cases stage with
      | single call => exact callsFrom_beginSingle scheduler apart settings call
      | batch call => exact callsFrom_beginBatch scheduler apart settings call
      | called errand =>
          exact callsFrom_of_fetchCalls scheduler (fetchCalls_await _ _ _ errand)
      | asleep errand wakeAt =>
          dsimp only
          split
          · exact callsFrom_of_fetchCalls scheduler
              (fetchCalls_conclude _ _ _ errand)
          · rfl
      | waiting flight call =>
          exact callsFrom_resume scheduler flight apart settings call
      | «over» verdict => rfl

end Others

/-! ## The first turn of a batch -/

section Batch

variable {scheduler} [Keyed Value] {settings : Settings}
  {call : BatchCall Value} {errand : Errand Value}
  {gathered : Cache.Gathered Value} {requests : List Request}

/-- A task waits for the fetch of an errand, or has carried it out in a
cache. -/
inductive Carries (settings : Settings) (task : TaskId)
    (errand : Errand Value) (cache : Cache Value) (after : Scheduler Value) :
    Prop
  | sleeps {wakeAt : Nat}
      (asleep : after.tasks[task]? = some (.asleep errand wakeAt))
  | ends
      (finished : after.tasks[task]? =
        some (.over (errand.verdict settings cache)))
      (left : after.cache = errand.leaves settings cache)

theorem carries_conclude (inside : task < scheduler.tasks.size)
    (errand : Errand Value) :
    Carries settings task errand scheduler.cache
      (conclude settings scheduler task errand) := by
  have ashore := ashore_conclude scheduler task settings errand
  refine .ends ?_ (cache_of_ashore ashore)
  rw [tasks_of_ashore ashore]
  exact Array.getElem?_setIfInBounds_self_of_lt inside

variable (scheduler) in
theorem carries_await (inside : task < scheduler.tasks.size)
    (errand : Errand Value) :
    Carries settings task errand scheduler.cache
      (await settings scheduler task errand) := by
  rcases await_eq scheduler task settings errand with sleeps | ⟨_, ends⟩
  · rw [sleeps]
    exact .sleeps (Array.getElem?_setIfInBounds_self_of_lt inside)
  · rw [ends]
    exact carries_conclude inside errand

variable (scheduler) in
theorem carries_step {wakeAt : Nat}
    (asleep : scheduler.tasks[task]? = some (.asleep errand wakeAt)) :
    Carries settings task errand scheduler.cache
      (step settings scheduler task) := by
  rw [step, asleep]
  dsimp only
  split
  · exact carries_conclude (Array.getElem?_eq_some_iff.mp asleep).1 errand
  · exact .sleeps asleep

/-- What a batch does in its first turn when its lookups have gathered
something. -/
structure Opens (settings : Settings) (task : TaskId) (call : BatchCall Value)
    (gathered : Cache.Gathered Value) (before after : Scheduler Value) :
    Prop where
  calls : after.fetchCalls.toList = before.fetchCalls.toList ++
    (FetchCall.forRequests task gathered.refreshes ++
      FetchCall.forRequests task gathered.misses)
  delegates : gathered.refreshes ≠ [] →
    after.tasks[before.tasks.size]? = some (.called (.refreshMany
      gathered.refreshes call.storing (call.planAt 0)))
  answers : gathered.misses = [] →
    after.tasks[task]? = some (.over (.returned (.ok (.many gathered.found))))
  fetches : gathered.misses ≠ [] →
    Carries settings task
      (.collect gathered.found gathered.misses call.storing
        (call.planAt (if gathered.refreshes.isEmpty then 0 else 1)))
      ((Stage.batch call).reads settings before.cache) after

variable (scheduler) in
theorem opens_beginBatch (inside : task < scheduler.tasks.size)
    (answered : Cache.answer (Cache.gather settings call.requests
      { found := ∅, refreshes := [], misses := [] }) scheduler.cache =
        .ok gathered) :
    Opens settings task call gathered scheduler
      (beginBatch settings scheduler task call) := by
  let reading := { scheduler with
    cache := (Stage.batch call).reads settings scheduler.cache }
  have cached : (reading.delegating task call gathered.refreshes).cache =
      (Stage.batch call).reads settings scheduler.cache := cache_delegating
  have called := fetchCalls_delegating reading task call gathered.refreshes
  have hired := hired_of_delegating reading task call gathered.refreshes
  have insideThen := Nat.lt_of_lt_of_le inside
    (size_le_delegating reading task call gathered.refreshes)
  rw [beginBatch_eq answered]
  generalize reading.delegating task call gathered.refreshes = refreshing at *
  -- Whatever the batch does next, it puts nobody else into another stage.
  have apart : task ≠ scheduler.tasks.size := Nat.ne_of_lt inside
  split
  next complete =>
    replace complete := List.isEmpty_iff.mp complete
    refine ⟨?_, fun due => ?_, fun _ => ?_, absurd complete⟩
    · rw [complete, FetchCall.forRequests_nil, List.append_nil]
      exact called
    · exact (Array.getElem?_setIfInBounds_ne apart).trans (hired due)
    · exact Array.getElem?_setIfInBounds_self_of_lt insideThen
  next incomplete =>
    refine ⟨?_, fun due => ?_, fun complete => ?_, fun _ => ?_⟩
    · rw [fetchCalls_await, ← List.append_assoc, FetchCall.forRequests,
        FetchCall.forRequests, if_neg incomplete]
      exact Array.toList_push.trans (congrArg (· ++ _) called)
    · have free : (Errand.collect gathered.found gathered.misses call.storing
          (call.planAt (if gathered.refreshes.isEmpty then 0 else 1))).flight? =
            none := rfl
      obtain ⟨stage, awaits, _⟩ := crew_await (refreshing.noteCall
        (.many task (gathered.misses.map (·.label)))) [] task settings free
      exact (congrArg (·.tasks[scheduler.tasks.size]?) awaits).trans
        ((Array.getElem?_setIfInBounds_ne apart).trans (hired due))
    · exact absurd (List.isEmpty_iff.mpr complete) incomplete
    · rw [← cached]
      exact carries_await (refreshing.noteCall _) insideThen _

/-- After its first turn a batch waits for its fetch or is over. -/
theorem Opens.spent {next : Scheduler Value}
    (opens : Opens settings task call gathered scheduler next) :
    ∃ stage, next.tasks[task]? = some stage ∧ stage.isPending = false := by
  by_cases complete : gathered.misses = []
  · exact ⟨_, opens.answers complete, rfl⟩
  · cases opens.fetches complete with
    | sleeps asleep => exact ⟨_, asleep, rfl⟩
    | ends finished left => exact ⟨_, finished, rfl⟩

variable (scheduler settings call) in
theorem spent_beginBatch (inside : task < scheduler.tasks.size) :
    ∃ stage, (beginBatch settings scheduler task call).tasks[task]? =
      some stage ∧ stage.isPending = false := by
  cases answered : Cache.answer (Cache.gather settings call.requests
      { found := ∅, refreshes := [], misses := [] }) scheduler.cache with
  | error fault =>
      rw [beginBatch, attempt_eq, answered]
      exact ⟨_, Array.getElem?_setIfInBounds_self_of_lt inside, rfl⟩
  | ok gathered => exact (opens_beginBatch _ inside answered).spent

end Batch

section Own

variable {scheduler} [Keyed Value] {settings : Settings} {stage : Stage Value}

/-- The task can call no fetch any more, and has called none meanwhile. -/
structure Abstains (task : TaskId) (before after : Scheduler Value) :
    Prop where
  spent : ∃ stage, after.tasks[task]? = some stage ∧ stage.isPending = false
  calls : after.fetchCalls = before.fetchCalls

theorem abstains_of_pends {errand : Errand Value}
    (found : scheduler.tasks[task]? = some stage)
    (spent : stage.isPending = false) (pends : stage.Pends errand) :
    Abstains task scheduler (step settings scheduler task) := by
  rcases step_of_pending scheduler task settings pends found with
    same | ⟨wakeAt, sleeps⟩ | ends
  · rw [same]
    exact ⟨⟨stage, found, spent⟩, rfl⟩
  · rw [sleeps]
    exact ⟨⟨_, Crew.getElem?_setIfInBounds_self_of_found found _, rfl⟩, rfl⟩
  · rw [ends]
    refine ⟨⟨.over (errand.verdict settings scheduler.cache), ?_, rfl⟩,
      fetchCalls_conclude _ _ _ errand⟩
    rw [tasks_of_ashore (ashore_conclude scheduler task settings errand)]
    exact Crew.getElem?_setIfInBounds_self_of_found found _

variable (scheduler settings) in
/-- A task that waits for its fetch or is over calls no further fetch. -/
theorem abstains_step
    (found : scheduler.tasks[task]? = some stage)
    (spent : stage.isPending = false) :
    Abstains task scheduler (step settings scheduler task) := by
  cases stage with
  | called errand => exact abstains_of_pends found spent (Or.inl rfl)
  | asleep errand wakeAt =>
      exact abstains_of_pends found spent (Or.inr ⟨wakeAt, rfl⟩)
  | «over» verdict =>
      rw [step_of_over found]
      exact ⟨⟨_, found, rfl⟩, rfl⟩
  | single call => cases spent
  | batch call => cases spent
  | waiting flight call => cases spent

end Own

end Scheduler

/-! ## First turns -/

namespace Crew

variable {crew next : Crew Value} {task other : TaskId}

/-- A stroke puts nobody back before its first turn. -/
theorem Stroke.unbegun {stage : Stage Value}
    (stroke : Stroke task crew next) (unbegun : stage.isUnbegun = true)
    (found : next.tasks[other]? = some stage) :
    crew.tasks[other]? = some stage := by
  have put : ∀ {tasks : Array (Stage Value)} {rest : Stage Value},
      rest.isUnbegun = false →
        (tasks.setIfInBounds task rest)[other]? = some stage →
          tasks[other]? = some stage := by
    intro tasks rest begun there
    rw [Array.getElem?_setIfInBounds] at there
    split at there
    · split at there
      · cases there
        rw [begun] at unbegun
        cases unbegun
      · cases there
    · exact there
  cases stroke with
  | notes labels => exact found
  | settles _ _ _ _ begun => exact put begun found
  | delegates _ _ _ begun =>
      have pushed := put begun found
      rw [Crew.spawn, Array.getElem?_push] at pushed
      split at pushed
      · cases pushed
        cases unbegun
      · exact pushed
  | opens => exact put rfl found
  | takes => exact put rfl found
  | joins => exact put rfl found
  | fetches => exact put rfl found
  | lands => exact put rfl found
  | leaves => exact put rfl found
  | quits => exact put rfl found
  | learns => exact put rfl found

section Turn

variable (turn : Turn task crew next) (manned : crew.Manned)

include turn manned

theorem Turn.size_le : crew.tasks.size ≤ next.tasks.size := by
  have step : ∀ {before after : Crew Value}, before.Manned →
      Stroke task before after → crew.tasks.size ≤ before.tasks.size →
        crew.tasks.size ≤ after.tasks.size :=
    fun _ stroke before => Nat.le_trans before stroke.size_le
  exact manned.keeps step turn.strokes (Nat.le_refl _)

/-- Nobody is put back before its first turn. -/
theorem Turn.unbegun {stage : Stage Value}
    (unbegun : stage.isUnbegun = true)
    (found : next.tasks[other]? = some stage) :
    crew.tasks[other]? = some stage := by
  have step : ∀ {before after : Crew Value}, before.Manned →
      Stroke task before after →
        (before.tasks[other]? = some stage →
          crew.tasks[other]? = some stage) →
          after.tasks[other]? = some stage →
            crew.tasks[other]? = some stage :=
    fun _ stroke earlier there => earlier (stroke.unbegun unbegun there)
  exact manned.keeps step turn.strokes id found

end Turn

/-- The task is a batch that has not begun, or is not there yet. -/
def Idle (crew : Crew Value) (task : TaskId) : Prop :=
  ∀ stage, crew.tasks[task]? = some stage → ∃ call, stage = .batch call

/-- No batch has called a fetch before its first turn. -/
def Uncalled (crew : Crew Value) : Prop :=
  ∀ task, crew.Idle task → crew.callsFrom task = []

end Crew

namespace Logbook

variable [Keyed Value] (settings : Settings) {logbook : Logbook Value}
  {task : TaskId} {move : Move Value}

/-- Whatever is not the turn of a task leaves the calls of the task as they
are. -/
theorem callsFrom_after (notTurn : move ≠ .turn task) :
    (after settings logbook move).crew.callsFrom task =
      logbook.crew.callsFrom task := by
  cases move with
  | turn other =>
      have apart : other ≠ task := fun same => notTurn (same ▸ rfl)
      rw [crew, crew, Scheduler.crew_callsFrom, Scheduler.crew_callsFrom]
      exact congrArg _ (Scheduler.callsFrom_step _ apart settings)
  | abort other =>
      rw [crew, crew, Scheduler.crew_callsFrom, Scheduler.crew_callsFrom]
      exact congrArg _ (Scheduler.callsFrom_of_fetchCalls _
        (Scheduler.fetchCalls_abort logbook.scheduler))
  | tick => rw [crew_tick]
  | report => rw [crew_report]
  | _ => rfl

section Manned

variable (manned : logbook.crew.Manned)

include manned

/-- A task that was aborted is over, whether it was before or not. -/
theorem over_of_abort {stage : Stage Value}
    (found : logbook.crew.tasks[task]? = some stage) :
    ∃ verdict, (after settings logbook (.abort task)).crew.tasks[task]? =
      some (.over verdict) := by
  cases finished : stage.isOver with
  | false => exact ⟨_, cancelled_of_abort settings found finished⟩
  | true =>
      cases stage with
      | «over» verdict =>
          have moved := moved_after settings manned (.abort task)
          exact ⟨verdict, (moved.over manned found).1⟩
      | _ => cases finished

theorem spent_after {stage : Stage Value}
    (found : logbook.crew.tasks[task]? = some stage)
    (spent : stage.isPending = false) (move : Move Value) :
    (∃ rest, (after settings logbook move).crew.tasks[task]? = some rest ∧
        rest.isPending = false) ∧
      (after settings logbook move).crew.callsFrom task =
        logbook.crew.callsFrom task := by
  by_cases turns : move = .turn task
  · subst turns
    have abstains := Scheduler.abstains_step { logbook.scheduler with
      ready := logbook.scheduler.ready.erase task } settings found spent
    refine ⟨abstains.spent, ?_⟩
    rw [crew, crew, Scheduler.crew_callsFrom, Scheduler.crew_callsFrom]
    exact congrArg _ (Scheduler.callsFrom_of_fetchCalls _ abstains.calls)
  refine ⟨?_, callsFrom_after settings turns⟩
  by_cases aborts : move = .abort task
  · subst aborts
    obtain ⟨verdict, finished⟩ := over_of_abort settings manned found
    exact ⟨.over verdict, finished, rfl⟩
  · exact ⟨stage, stage_after settings manned found turns aborts, spent⟩

/-- Whoever has taken a turn has begun. -/
theorem not_idle_of_turn {stage : Stage Value}
    (found : logbook.crew.tasks[task]? = some stage) :
    ¬ (after settings logbook (.turn task)).crew.Idle task := by
  intro idle
  have turn := turn_after settings manned task
  have mannedThen := manned.noting
    (logbook.crew.ready.erase task) logbook.crew.calls
  have isThere : logbook.scheduler.tasks[task]? = some stage := found
  have inside := (Array.getElem?_eq_some_iff.mp isThere).1
  have insideThen := Nat.lt_of_lt_of_le inside (turn.size_le mannedThen)
  have foundThen := Array.getElem?_eq_getElem insideThen
  -- A batch that has not begun after the turn had not before it either.
  obtain ⟨call, unbegun⟩ := idle _ foundThen
  rw [unbegun] at foundThen
  have same := turn.unbegun mannedThen rfl foundThen
  cases isThere.symm.trans same
  obtain ⟨rest, foundRest, spent⟩ := Scheduler.spent_beginBatch
    { logbook.scheduler with
      ready := logbook.scheduler.ready.erase task } settings call inside
  simp only [crew, Scheduler.crew, after, Scheduler.step, isThere] at foundThen
  cases foundRest.symm.trans foundThen
  cases spent

theorem uncalled_after (uncalled : logbook.crew.Uncalled)
    (move : Move Value) : (after settings logbook move).crew.Uncalled := by
  intro task idle
  by_cases turns : move = .turn task
  · subst turns
    cases found : logbook.crew.tasks[task]? with
    | none =>
        have idleBefore : logbook.crew.Idle task := by
          intro stage there
          cases found.symm.trans there
        let next : Scheduler Value := { logbook.scheduler with
          ready := logbook.scheduler.ready.erase task }
        have idle : Scheduler.step settings next task = next :=
          Scheduler.step_of_none found
        rw [crew, after, idle]
        exact uncalled task idleBefore
    | some stage => exact absurd idle (not_idle_of_turn settings manned found)
  · rw [callsFrom_after settings turns]
    refine uncalled task fun stage found => ?_
    by_cases aborts : move = .abort task
    · subst aborts
      obtain ⟨verdict, finished⟩ := over_of_abort settings manned found
      obtain ⟨call, same⟩ := idle _ finished
      cases same
    · exact idle stage (stage_after settings manned found turns aborts)

end Manned

theorem spent_follow {stage : Stage Value}
    (orderly : logbook.crew.Orderly)
    (found : logbook.crew.tasks[task]? = some stage)
    (spent : stage.isPending = false) (moves : List (Move Value)) :
    (follow settings logbook moves).crew.callsFrom task =
      logbook.crew.callsFrom task := by
  induction moves generalizing logbook stage with
  | nil => rfl
  | cons move moves inductionHypothesis =>
      have manned := orderly.manned
      obtain ⟨⟨rest, foundRest, still⟩, same⟩ :=
        spent_after settings manned found spent move
      rw [follow_cons, ← same]
      exact inductionHypothesis ((moved_after settings manned move).orderly
        orderly) foundRest still

/-- Whatever has happened, a batch that has not begun has called no fetch. -/
theorem uncalled_undergoAll
    (orderly : logbook.crew.Orderly) (uncalled : logbook.crew.Uncalled)
    (incidents : List (Incident Value)) :
    (undergoAll settings logbook incidents).crew.Uncalled := by
  induction incidents generalizing logbook with
  | nil => exact uncalled
  | cons incident incidents inductionHypothesis =>
      cases incident with
      | operation operation => exact inductionHypothesis orderly uncalled
      | move move =>
          have manned := orderly.manned
          exact inductionHypothesis
            ((moved_after settings manned move).orderly orderly)
            (uncalled_after settings manned uncalled move)

omit [Keyed Value] in
theorem uncalled_start (paddings : Nat → List Nat) :
    (start settings paddings : Logbook Value).crew.Uncalled :=
  fun _ _ => rfl

end Logbook

end ReadThrough
