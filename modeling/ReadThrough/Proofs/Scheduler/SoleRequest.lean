import ReadThrough.Proofs.Cache.SoleRequest
import ReadThrough.Proofs.Scheduler.Bound
import ReadThrough.Proofs.Scheduler.Leaks

/-!
# A call of one name and a batch of one request

Where nobody awaits a name and the clock stands still, it makes no difference
whether a caller asks for the name or for a batch with this request only.  The
first turn of the one and of the other tells for which outcome it is bound, and
the two outcomes agree.
-/

namespace ReadThrough

open Std (ExtTreeMap)

variable {Value : Type}

namespace Scheduler

variable [Keyed Value] {settings : Settings} {scheduler : Scheduler Value}
  {task : TaskId}

/-- Nobody leads the flight of a name, if there is one. -/
def Vacant (scheduler : Scheduler Value) (name : String) : Prop :=
  ∀ flight, scheduler.inFlight[name]? = some flight →
    ∃ joined, scheduler.flights[flight]? = some joined ∧
      joined.leader = none ∧ joined.outcome = none

omit [Keyed Value] in
theorem vacant_of_unawaited
    {reported : List FetchCall} {name : String}
    (manned : (scheduler.crew reported).Manned)
    (unawaited : ∀ task, ¬ (scheduler.crew reported).Awaits task name) :
    scheduler.Vacant name := by
  intro flight listed
  have inside : name ∈ (scheduler.crew reported).inFlight :=
    (ExtTreeMap.getElem?_eq_some_iff.mp listed).1
  obtain ⟨place, joined, alsoListed, there, free⟩ :=
    manned.deserted_iff.mpr ⟨inside, unawaited⟩
  cases Option.some.inj (listed.symm.trans alsoListed)
  obtain ⟨again, againThere, _, unlanded⟩ := manned.listed.mp listed
  cases there.symm.trans againThere
  exact ⟨joined, there, free, unlanded⟩

variable (settings scheduler) in
/-- A call that misses a name whose flight nobody leads comes to lead it. -/
theorem join_of_vacant
    (task : TaskId) {call : SingleCall Value}
    (vacant : scheduler.Vacant call.name) :
    ∃ flight boarded, boarded.ashore = scheduler.ashore ∧
      join settings scheduler task call =
        lead settings boarded task flight call := by
  have boards := scheduler.ashore_boardFlight call.name
  have there : ∃ joined,
      (scheduler.boardFlight call.name).2.flights[
        (scheduler.boardFlight call.name).1]? = some joined ∧
          joined.leader = none ∧ joined.outcome = none := by
    rw [boardFlight]
    cases listed : scheduler.inFlight[call.name]? with
    | none => exact ⟨_, Array.getElem?_push_size, rfl, rfl⟩
    | some flight => exact vacant flight listed
  obtain ⟨joined, found, free, unlanded⟩ := there
  refine ⟨(scheduler.boardFlight call.name).1,
    (scheduler.boardFlight call.name).2.adjustFlight
      (scheduler.boardFlight call.name).1 fun flight =>
        { flight with leader := some task }, boards, ?_⟩
  rw [join]
  simp only [found, free, unlanded]

/-- What comes of a lookup that is answered from the cache. -/
def answeredOutcome
    (settings : Settings) (cache : Cache Value) (calls : Nat)
    (verdict : Verdict Value) (refresh? : Option (Errand Value)) :
    Outcome Value :=
  match refresh? with
  | none => ⟨cache, calls, verdict⟩
  | some errand => ⟨errand.leaves settings cache, calls + 1, verdict⟩

/-- What comes of a lookup that has to be answered by a fetch. -/
def fetchedOutcome
    (settings : Settings) (cache : Cache Value) (calls : Nat)
    (errand : Errand Value) : Outcome Value :=
  ⟨errand.leaves settings cache, calls + 1, errand.verdict settings cache⟩

/-- What comes of a call of one name. -/
def callOutcome
    (settings : Settings) (call : SingleCall Value) (cache : Cache Value)
    (calls : Nat) : Outcome Value :=
  let next := Cache.final (Cache.lookup settings call.name) cache
  let refresh? := fun refresh : Bool =>
    if refresh then some (Errand.refresh call) else none
  match Cache.answer (Cache.lookup settings call.name) cache with
  | .error fault => ⟨next, calls, .broken fault⟩
  | .ok (.found value refresh) =>
      answeredOutcome settings next calls (.returned (.ok (.one value)))
        (refresh? refresh)
  | .ok (.missing refresh) =>
      answeredOutcome settings next calls
        (.returned (.error (.missingRecord call.name))) (refresh? refresh)
  | .ok .absent =>
      fetchedOutcome settings (Cache.final (Cache.peek call.name) next) calls
        (.complete 0 call)

/-- What comes of the call of a batch with one request. -/
def batchOutcome
    (settings : Settings) (request : Request) (call : BatchCall Value)
    (cache : Cache Value) (calls : Nat) : Outcome Value :=
  let next := Cache.final (Cache.lookup settings request.name) cache
  let refresh? := fun refresh : Bool =>
    if refresh then
      some (Errand.refreshMany [request] call.storing (call.planAt 0))
    else none
  match Cache.answer (Cache.lookup settings request.name) cache with
  | .error fault => ⟨next, calls, .broken fault⟩
  | .ok (.found value refresh) =>
      answeredOutcome settings next calls
        (.returned (.ok (.many
          ((∅ : ExtTreeMap String Value).insert request.label value))))
        (refresh? refresh)
  | .ok (.missing refresh) =>
      answeredOutcome settings next calls (.returned (.ok (.many ∅)))
        (refresh? refresh)
  | .ok .absent =>
      fetchedOutcome settings next calls
        (.collect ∅ [request] call.storing (call.planAt 0))

variable (settings scheduler) in
theorem bound_beginSingle
    {call : SingleCall Value}
    (count : scheduler.tasks.size = task + 1)
    (found : scheduler.tasks[task]? = some (.single call))
    (vacant : scheduler.Vacant call.name)
    (still : scheduler.cache.clock.read.2 = scheduler.cache.clock) :
    Bound settings task
      (callOutcome settings call scheduler.cache scheduler.fetchCalls.size)
      (beginSingle settings scheduler task call) := by
  have answered : ∀ (verdict : Verdict Value) (refresh : Bool)
      (next : Scheduler Value), next.tasks = scheduler.tasks →
        next.fetchCalls = scheduler.fetchCalls →
          Bound settings task
            (answeredOutcome settings next.cache scheduler.fetchCalls.size
              verdict (if refresh then some (.refresh call) else none))
            ((next.refreshIf task refresh call).finish task verdict) := by
    intro verdict refresh next tasks calls
    rw [← tasks] at count found
    rw [← calls]
    cases refresh with
    | false => exact bound_finish settings _ count found verdict
    | true => exact bound_delegate settings _ count found _ _ verdict
  -- The scheduler once the name has been looked up.
  let next : Scheduler Value := { scheduler with
    cache := Cache.final (Cache.lookup settings call.name)
      scheduler.cache }
  rw [beginSingle, attempt_eq, callOutcome]
  cases looked : Cache.answer (Cache.lookup settings call.name)
      scheduler.cache with
  | error fault => exact bound_finish settings next count found _
  | ok lookup =>
      cases lookup with
      | found value refresh => exact answered _ refresh next rfl rfl
      | missing refresh => exact answered _ refresh next rfl rfl
      | absent =>
          obtain ⟨nothing, _⟩ := Cache.peek_of_absent still looked
          obtain ⟨flight, boarded, same, joins⟩ :=
            join_of_vacant settings next task vacant
          have tasks : boarded.tasks = scheduler.tasks :=
            (tasks_of_ashore same).trans rfl
          have called : boarded.fetchCalls = scheduler.fetchCalls :=
            (fetchCalls_of_ashore same).trans rfl
          have cached : boarded.cache = next.cache := cache_of_ashore same
          dsimp only
          change Bound _ _ _ (join settings next task call)
          rw [joins, lead, attempt_eq, cached, nothing]
          rw [← tasks] at count found
          have waits := bound_await settings
            ({ boarded with
              cache := Cache.final (Cache.peek call.name)
                next.cache }.noteCall (.one task call.name))
            count found (.complete flight call)
          simp only [noteCall, Array.size_push, called] at waits ⊢
          exact waits

variable (settings scheduler) in
theorem bound_beginBatch
    {call : BatchCall Value} {request : Request}
    (requests : call.requests = [request])
    (count : scheduler.tasks.size = task + 1)
    (found : scheduler.tasks[task]? = some (.batch call)) :
    Bound settings task
      (batchOutcome settings request call scheduler.cache
        scheduler.fetchCalls.size)
      (beginBatch settings scheduler task call) := by
  -- The scheduler once the request has been looked up.
  let next : Scheduler Value := { scheduler with
    cache := Cache.final (Cache.lookup settings request.name)
      scheduler.cache }
  rw [beginBatch, requests, Cache.gather_singleton, attempt_eq,
    Cache.answer_map, Cache.final_map, batchOutcome]
  cases looked : Cache.answer (Cache.lookup settings request.name)
      scheduler.cache with
  | error fault => exact bound_finish settings next count found _
  | ok lookup =>
      cases lookup with
      | found value refresh =>
          cases refresh with
          | false => exact bound_finish settings next count found _
          | true =>
              exact bound_delegate settings next count found _ _ _
      | missing refresh =>
          cases refresh with
          | false => exact bound_finish settings next count found _
          | true =>
              exact bound_delegate settings next count found _ _ _
      | absent =>
          have waits := bound_await settings
            (next.noteCall (.many task [request.label])) count found
            (.collect ∅ [request] call.storing (call.planAt 0))
          simp only [noteCall, Array.size_push] at waits
          exact waits

end Scheduler

/-! ## The two outcomes agree -/

/-- The outcomes of a call and of a batch leave the same behind, and the call
returns what the batch has under the label. -/
structure Outcome.Agrees
    (label : String) (alone batched : Outcome Value) : Prop where
  cache : Cache.Likewise alone.cache batched.cache
  calls : batched.calls = alone.calls
  verdict : ∀ value, alone.verdict = .returned (.ok (.one value)) ↔
    ∃ values : ExtTreeMap String Value,
      batched.verdict = .returned (.ok (.many values)) ∧
        values[label]? = some value

namespace Scheduler

variable [Keyed Value] {settings : Settings} {call : SingleCall Value}
  {batch : BatchCall Value} {label : String} {value? : Option Value}

theorem agrees_answered
    (storing : batch.storing = call.storing)
    (answers : Plan.Answers label call.plan (batch.planAt 0) value?)
    {alone batched : Verdict Value}
    (verdicts : ∀ value, alone = .returned (.ok (.one value)) ↔
      ∃ values : ExtTreeMap String Value,
        batched = .returned (.ok (.many values)) ∧
          values[label]? = some value)
    (cache : Cache Value) (calls : Nat) (refresh : Bool) :
    Outcome.Agrees label
      (answeredOutcome settings cache calls alone
        (if refresh then some (.refresh call) else none))
      (answeredOutcome settings cache calls batched
        (if refresh then
          some (.refreshMany [⟨label, call.name⟩] batch.storing
            (batch.planAt 0))
        else none)) := by
  cases refresh with
  | false => exact ⟨.refl cache, rfl, verdicts⟩
  | true =>
      refine ⟨?_, rfl, verdicts⟩
      rw [storing]
      exact Cache.likewise_concludeRefreshes answers
        (Cache.Likewise.refl cache)

variable (settings) in
theorem agrees_outcome
    (storing : batch.storing = call.storing)
    (answers : Plan.Answers label call.plan (batch.planAt 0) value?)
    {cache : Cache Value} (still : cache.clock.read.2 = cache.clock)
    (calls : Nat) :
    Outcome.Agrees label (callOutcome settings call cache calls)
      (batchOutcome settings ⟨label, call.name⟩ batch cache calls) := by
  rw [callOutcome, batchOutcome]
  cases looked : Cache.answer (Cache.lookup settings call.name) cache with
  | error fault => exact ⟨.refl _, rfl, by simp⟩
  | ok lookup =>
      cases lookup with
      | found value refresh =>
          refine agrees_answered storing answers ?_ _ calls refresh
          intro other
          constructor
          · intro same
            cases same
            exact ⟨_, rfl, ExtTreeMap.getElem?_insert_self⟩
          · rintro ⟨values, same, there⟩
            cases same
            rw [ExtTreeMap.getElem?_insert_self] at there
            cases there
            rfl
      | missing refresh =>
          refine agrees_answered storing answers ?_ _ calls refresh
          intro other
          constructor
          · intro same
            cases same
          · rintro ⟨values, same, there⟩
            cases same
            rw [ExtTreeMap.getElem?_empty] at there
            cases there
      | absent =>
          obtain ⟨_, again⟩ := Cache.peek_of_absent still looked
          obtain ⟨same, verdicts⟩ :=
            Cache.likewise_concludeMisses settings call.storing call.name
              answers again.symm
          rw [← storing] at same verdicts
          dsimp only
          refine ⟨?_, rfl, fun value => ?_⟩
          · simpa only [fetchedOutcome, Errand.leaves, Errand.operation,
              Operation.action, Cache.final_discard, storing] using same
          · simp only [fetchedOutcome, Errand.verdict, ← storing]
            rcases verdicts with ⟨fault, left, right⟩ |
              ⟨outcome, values, left, right, found⟩
            · simp [left, right, Verdict.ofAnswer, Except.map]
            · rw [left, right]
              cases outcome with
              | error failure =>
                  have nothing : values[label]? = none := found
                  simp [Verdict.ofAnswer, Except.map, nothing]
              | ok fetched =>
                  have one : values[label]? = some fetched := found
                  simp [Verdict.ofAnswer, Except.map, one]

end Scheduler

/-! ## The call and the batch -/

namespace Logbook

variable [Keyed Value]

/-- Where nobody awaits a name and the clock stands still, a call of the name
and a batch that requests it alone, each left to itself until it and its refresh
are over, leave the same shards, routes and counters behind and call as many
fetches; and the call returns the value that the batch has for its request.
Both do come to an end. -/
theorem call_agrees_with_batch
    (settings : Settings) (paddings : Nat → List Nat)
    (earlier : List (Move Value)) (call : SingleCall Value)
    (batch : BatchCall Value) (label : String) (value? : Option Value)
    (requests : batch.requests = [⟨label, call.name⟩])
    (storing : batch.storing = call.storing)
    (answers : Plan.Answers label call.plan (batch.planAt 0) value?)
    (still :
      (follow settings (start settings paddings)
        earlier).scheduler.cache.clock.read.2 =
        (follow settings (start settings paddings)
          earlier).scheduler.cache.clock)
    (unawaited : ∀ task,
      ¬ (follow settings (start settings paddings) earlier).crew.Awaits
        task call.name) :
    let before := follow settings (start settings paddings) earlier
    let task := before.scheduler.tasks.size
    let alone := fun moves => follow settings before (.call call :: moves)
    let batched :=
      fun moves => follow settings before (.callMany batch :: moves)
    (∃ moves : List (Move Value), (∀ move ∈ moves, move.Attends task) ∧
        (alone moves).Finished task) ∧
      (∃ moves : List (Move Value), (∀ move ∈ moves, move.Attends task) ∧
        (batched moves).Finished task) ∧
      ∀ left right : List (Move Value),
        (∀ move ∈ left, move.Attends task) →
        (∀ move ∈ right, move.Attends task) →
        (alone left).Finished task → (batched right).Finished task →
          (batched right).scheduler.cache.shards =
              (alone left).scheduler.cache.shards ∧
            (batched right).scheduler.cache.routes =
              (alone left).scheduler.cache.routes ∧
            (batched right).scheduler.cache.counters =
              (alone left).scheduler.cache.counters ∧
            (batched right).scheduler.fetchCalls.size =
              (alone left).scheduler.fetchCalls.size ∧
            ∀ value,
              (alone left).scheduler.tasks[task]? =
                  some (.over (.returned (.ok (.one value)))) ↔
                ∃ values : ExtTreeMap String Value,
                  (batched right).scheduler.tasks[task]? =
                      some (.over (.returned (.ok (.many values)))) ∧
                    values[label]? = some value := by
  intro before task alone batched
  have manned : before.crew.Manned :=
    (orderly_follow settings (orderly_start settings paddings)
      earlier).manned
  have vacant : before.scheduler.Vacant call.name :=
    Scheduler.vacant_of_unawaited manned unawaited
  have pushed : ∀ stage : Stage Value,
      (before.scheduler.tasks.push stage)[task]? = some stage := fun _ =>
    Array.getElem?_push_size
  have count : ∀ stage : Stage Value,
      (before.scheduler.tasks.push stage).size = task + 1 := fun _ =>
    Array.size_push _
  have single := outcome_of_attended settings
    (before.scheduler.spawn (.single call)) before.reported
    (Scheduler.callOutcome settings call before.scheduler.cache
      before.scheduler.fetchCalls.size)
    (count _) (pushed _) rfl fun time ready => by
      have turn := Scheduler.bound_beginSingle settings
        { before.scheduler.spawn (.single call) with
          time := time, ready := ready } (count _) (pushed _) vacant still
      rw [Scheduler.step]
      simp only [Scheduler.spawn, pushed] at turn ⊢
      exact turn
  have several := outcome_of_attended settings
    (before.scheduler.spawn (.batch batch)) before.reported
    (Scheduler.batchOutcome settings ⟨label, call.name⟩ batch
      before.scheduler.cache before.scheduler.fetchCalls.size)
    (count _) (pushed _) rfl fun time ready => by
      have turn := Scheduler.bound_beginBatch settings
        { before.scheduler.spawn (.batch batch) with
          time := time, ready := ready } requests (count _) (pushed _)
      rw [Scheduler.step]
      simp only [Scheduler.spawn, pushed] at turn ⊢
      exact turn
  have agrees := Scheduler.agrees_outcome settings storing answers still
    before.scheduler.fetchCalls.size
  refine ⟨single.1, several.1, ?_⟩
  intro left right leftAttends rightAttends leftOver rightOver
  obtain ⟨leftVerdict, leftCache, leftCalls⟩ :=
    single.2 left leftAttends leftOver
  obtain ⟨rightVerdict, rightCache, rightCalls⟩ :=
    several.2 right rightAttends rightOver
  have same : Cache.Likewise (alone left).scheduler.cache
      (batched right).scheduler.cache := by
    have likewise := agrees.cache
    rw [← leftCache, ← rightCache] at likewise
    exact likewise
  refine ⟨same.shards, same.routes, same.counters, ?_, fun value => ?_⟩
  · exact rightCalls.trans (agrees.calls.trans leftCalls.symm)
  · have left' : (alone left).scheduler.tasks[task]? = some (.over _) :=
      leftVerdict
    have right' : (batched right).scheduler.tasks[task]? =
        some (.over _) := rightVerdict
    simp only [left', right', Option.some.injEq, Stage.over.injEq]
    exact agrees.verdict value

/-- A fetch that takes its time and one that is over at once store a value
that wants an alias of another entry; both break off. -/
theorem call_agrees_with_batch_contested :
    let tag : NameTag := ⟨"b", ["y", "a"]⟩
    let earlier : List (Move NameTag) :=
      [.act (.write ⟨"d", some ⟨"d", ["a"]⟩, ["a"]⟩)]
    let call : SingleCall NameTag :=
      ⟨"b", .byOwnKey, ⟨3, 0, .returns tag⟩⟩
    let batch : BatchCall NameTag :=
      ⟨[⟨"id", "b"⟩], .byOwnKey,
        [⟨0, 0, .returns ((∅ : ExtTreeMap String NameTag).insert "id" tag)⟩]⟩
    let before := follow Settings.twoShards
      (start Settings.twoShards fun _ => []) earlier
    let alone := follow Settings.twoShards before
      [.call call, .turn 0, .pass 3, .wake, .turn 0]
    let batched := follow Settings.twoShards before
      [.callMany batch, .turn 0]
    before.scheduler.cache.clock.read.2 = before.scheduler.cache.clock ∧
      (∀ task, ¬ before.crew.Awaits task call.name) ∧
      alone.Finished 0 ∧ batched.Finished 0 ∧
      alone.scheduler.cache.routes["y"]? = some 1 ∧
      batched.scheduler.cache.shards = alone.scheduler.cache.shards ∧
      batched.scheduler.cache.routes = alone.scheduler.cache.routes ∧
      batched.scheduler.cache.counters = alone.scheduler.cache.counters := by
  intro tag earlier call batch before alone batched
  have still : before.scheduler.cache.clock.read.2 =
      before.scheduler.cache.clock := by decide +kernel
  have unawaited : ∀ task, ¬ before.crew.Awaits task call.name := by
    rintro task ⟨stage, flight, joined, found, _⟩
    cases found
  have aloneOver : alone.Finished 0 := by decide +kernel
  have batchedOver : batched.Finished 0 := by decide +kernel
  have stated := (call_agrees_with_batch Settings.twoShards (fun _ => [])
    earlier call batch "id" (some tag) rfl rfl (.found 3 0 0 tag) still
    unawaited).2.2 [.turn 0, .pass 3, .wake, .turn 0] [.turn 0]
    (by decide +kernel) (by decide +kernel) aloneOver batchedOver
  exact ⟨still, unawaited, aloneOver, batchedOver, by decide +kernel,
    stated.1, stated.2.1, stated.2.2.1⟩

end Logbook

end ReadThrough
