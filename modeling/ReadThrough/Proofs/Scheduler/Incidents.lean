import ReadThrough.Proofs.Cache.Chores
import ReadThrough.Proofs.Scheduler.Errands

/-!
# Incidents

An incident is an operation that a client asks of the cache, or a move of its
scheduler.  What it does to the cache are acts again: a task that takes its turn
looks its names up, looks again if it leads a flight, and carries out its errand
if the fetch is over; the sweeper sweeps a shard.

`books_balance` reads the books of a cache after any run of incidents.
-/

namespace ReadThrough

open Std (ExtTreeMap)

/-! ## The acts of a turn -/

theorem Errand.concludes_operation {Value : Type} (errand : Errand Value) :
    errand.operation.concludes = true := by
  cases errand with
  | _ => rfl

theorem Errand.coherent_leaves {Value : Type} [Keyed Value]
    (settings : Settings) {cache : Cache Value} (coherent : cache.Coherent)
    (errand : Errand Value) : (errand.leaves settings cache).Coherent := by
  rw [Errand.leaves, Cache.final_operation coherent]
  exact coherent.follow settings _

/-- A task whose operation returns does so itself. -/
theorem Errand.returned_of_returns {Value : Type} [Keyed Value]
    {settings : Settings} {cache : Cache Value} {errand : Errand Value}
    (returns : Cache.returns (errand.operation.action settings) cache) :
    ∃ reply, errand.verdict settings cache = .returned reply := by
  rcases errand.verdict_cases settings cache with
    ⟨reply, returned, _⟩ | ⟨fault, _, answered⟩
  · exact ⟨reply, returned⟩
  · rw [Cache.returns, answered] at returns
    cases returns

namespace Scheduler

variable {Value : Type} [Keyed Value] (settings : Settings)

/-- The acts of a task that has called a fetch. -/
def awaitActs (cache : Cache Value) (errand : Errand Value) :
    List (Act Value) :=
  if errand.delay = 0 then errand.operation.acts settings cache else []

/-- The acts of a task that leads a flight. -/
def leadActs
    (cache : Cache Value) (flight : FlightId) (call : SingleCall Value) :
    List (Act Value) :=
  .quiet (.peek call.name) ::
    match Cache.answer (Cache.peek call.name) cache with
    | .ok .absent =>
        awaitActs settings
          (Cache.after settings cache (.quiet (.peek call.name)))
          (.complete flight call)
    | _ => []

/-- The acts of a task that joins a flight. -/
def joinActs (scheduler : Scheduler Value) (call : SingleCall Value) :
    List (Act Value) :=
  match (scheduler.boardFlight call.name).2.flights[
      (scheduler.boardFlight call.name).1]? with
  | none => []
  | some joined =>
      match joined.outcome, joined.leader with
      | none, none =>
          leadActs settings scheduler.cache
            (scheduler.boardFlight call.name).1 call
      | _, _ => []

/-- The acts that begin a call of one name. -/
def beginSingleActs
    (scheduler : Scheduler Value) (call : SingleCall Value) :
    List (Act Value) :=
  .quiet (.lookup call.name) ::
    match Cache.answer (Cache.lookup settings call.name)
        scheduler.cache with
    | .ok .absent =>
        joinActs settings
          { scheduler with
            cache := Cache.after settings scheduler.cache
              (.quiet (.lookup call.name)) } call
    | _ => []

/-- The acts that begin the call of a batch. -/
def beginBatchActs (cache : Cache Value) (call : BatchCall Value) :
    List (Act Value) :=
  (Operation.gather call.requests).acts settings cache ++
    match Cache.answer (Cache.gather settings call.requests
        { found := ∅, refreshes := [], misses := [] }) cache with
    | .error _ => []
    | .ok gathered =>
        if gathered.misses.isEmpty then []
        else
          awaitActs settings
            (Cache.follow settings cache
              ((Operation.gather call.requests).acts settings cache))
            (.collect gathered.found gathered.misses call.storing
              (call.planAt (if gathered.refreshes.isEmpty then 0 else 1)))

/-- The acts of a task that goes on with a flight. -/
def resumeActs
    (scheduler : Scheduler Value) (task : TaskId) (flight : FlightId)
    (call : SingleCall Value) : List (Act Value) :=
  match scheduler.flights[flight]? with
  | none => []
  | some joined =>
      if joined.outcome.isNone ∧ joined.leader = some task then
        leadActs settings scheduler.cache flight call
      else []

/-- The acts of a task that takes its turn. -/
def stepActs (scheduler : Scheduler Value) (task : TaskId) :
    List (Act Value) :=
  match scheduler.tasks[task]? with
  | none => []
  | some (.single call) => beginSingleActs settings scheduler call
  | some (.batch call) => beginBatchActs settings scheduler.cache call
  | some (.called errand) => awaitActs settings scheduler.cache errand
  | some (.asleep errand wakeAt) =>
      if wakeAt ≤ scheduler.time then
        errand.operation.acts settings scheduler.cache
      else []
  | some (.waiting flight call) =>
      resumeActs settings scheduler task flight call
  | some (.over _) => []

section Cache

variable {settings} {scheduler : Scheduler Value}
  (coherent : scheduler.cache.Coherent) (task : TaskId)

include coherent

theorem conclude_acts (errand : Errand Value) :
    (conclude settings scheduler task errand).cache =
      Cache.follow settings scheduler.cache
        (errand.operation.acts settings scheduler.cache) := by
  rw [cache_of_ashore (ashore_conclude scheduler task settings errand)]
  exact Cache.final_operation coherent errand.operation

variable (scheduler) in
theorem await_acts (errand : Errand Value) :
    (await settings scheduler task errand).cache =
      Cache.follow settings scheduler.cache
        (awaitActs settings scheduler.cache errand) := by
  rw [await, awaitActs]
  split
  · exact conclude_acts coherent task errand
  · rfl

variable (scheduler) in
theorem lead_acts (flight : FlightId) (call : SingleCall Value) :
    (lead settings scheduler task flight call).cache =
      Cache.follow settings scheduler.cache
        (leadActs settings scheduler.cache flight call) := by
  have left : Cache.after settings scheduler.cache
      (.quiet (.peek call.name)) =
        Cache.final (Cache.peek call.name) scheduler.cache :=
    Cache.final_discard _ _
  have looked := coherent.after settings (.quiet (.peek call.name))
  rw [lead, attempt_eq, leadActs, Cache.follow_cons, left]
  rw [left] at looked
  cases Cache.answer (Cache.peek call.name) scheduler.cache with
  | error fault => simp
  | ok found =>
      cases found with
      | found value refresh => simp [land]
      | missing refresh => simp [land]
      | absent => exact await_acts _ looked task (.complete flight call)

theorem join_acts (call : SingleCall Value) :
    (join settings scheduler task call).cache =
      Cache.follow settings scheduler.cache
        (joinActs settings scheduler call) := by
  have same := scheduler.cache_boardFlight call.name
  have boardedCoherent := same.symm ▸ coherent
  rw [join, joinActs]
  generalize scheduler.boardFlight call.name = boarding at *
  obtain ⟨flight, boarded⟩ := boarding
  dsimp only at same boardedCoherent ⊢
  cases boarded.flights[flight]? with
  | none => exact same
  | some joined =>
      dsimp only
      cases joined.outcome with
      | some outcome => simp [same]
      | none =>
          cases joined.leader with
          | some leader => simp [same]
          | none =>
              rw [← same]
              exact lead_acts (boarded.adjustFlight flight _)
                boardedCoherent task flight call

theorem beginSingle_acts (call : SingleCall Value) :
    (beginSingle settings scheduler task call).cache =
      Cache.follow settings scheduler.cache
        (beginSingleActs settings scheduler call) := by
  have left : Cache.after settings scheduler.cache
      (.quiet (.lookup call.name)) =
        Cache.final (Cache.lookup settings call.name) scheduler.cache :=
    Cache.final_discard _ _
  have looked := coherent.after settings (.quiet (.lookup call.name))
  rw [beginSingle, attempt_eq, beginSingleActs, Cache.follow_cons, left]
  rw [left] at looked
  cases Cache.answer (Cache.lookup settings call.name) scheduler.cache with
  | error fault => simp
  | ok found =>
      cases found with
      | found value refresh => simp
      | missing refresh => simp
      | absent => exact join_acts looked task call

theorem beginBatch_acts (call : BatchCall Value) :
    (beginBatch settings scheduler task call).cache =
      Cache.follow settings scheduler.cache
        (beginBatchActs settings scheduler.cache call) := by
  have left : Cache.follow settings scheduler.cache
      ((Operation.gather call.requests).acts settings scheduler.cache) =
        Cache.final (Cache.gather settings call.requests
          { found := ∅, refreshes := [], misses := [] }) scheduler.cache :=
    (Cache.final_operation coherent (.gather call.requests)).symm.trans
      (Cache.final_discard _ _)
  have gatheredCoherent := coherent.follow settings
    ((Operation.gather call.requests).acts settings scheduler.cache)
  rw [beginBatch, attempt_eq, beginBatchActs, Cache.follow_append, left]
  rw [left] at gatheredCoherent
  generalize Cache.final (Cache.gather settings call.requests
    { found := ∅, refreshes := [], misses := [] }) scheduler.cache =
      middle at *
  cases Cache.answer (Cache.gather settings call.requests
      { found := ∅, refreshes := [], misses := [] }) scheduler.cache with
  | error fault => simp
  | ok gathered =>
      dsimp only
      -- The background refresh is a new task, and its fetch a noted call.
      generalize same : (if gathered.refreshes.isEmpty = true then _
        else _ : Scheduler Value) = refreshing
      have cached : refreshing.cache = middle := by
        rw [← same]
        split
        · rfl
        · rfl
      rw [← cached] at gatheredCoherent ⊢
      cases gathered.misses.isEmpty with
      | true => simp
      | false =>
          exact await_acts (refreshing.noteCall _)
            gatheredCoherent task _

theorem resume_acts (flight : FlightId) (call : SingleCall Value) :
    (resume settings scheduler task flight call).cache =
      Cache.follow settings scheduler.cache
        (resumeActs settings scheduler task flight call) := by
  rw [resume, resumeActs]
  cases scheduler.flights[flight]? with
  | none => rfl
  | some joined =>
      dsimp only
      cases joined.outcome with
      | some outcome => simp
      | none =>
          by_cases leads : joined.leader = some task
          · simp only [leads, Option.isNone_none, and_self, if_true]
            exact lead_acts _ coherent task flight call
          · simp [leads]

variable (scheduler) in
theorem step_acts :
    (step settings scheduler task).cache =
      Cache.follow settings scheduler.cache
        (stepActs settings scheduler task) := by
  rw [step, stepActs]
  cases scheduler.tasks[task]? with
  | none => rfl
  | some stage =>
      cases stage with
      | single call => exact beginSingle_acts coherent task call
      | batch call => exact beginBatch_acts coherent task call
      | called errand => exact await_acts _ coherent task errand
      | asleep errand wakeAt =>
          dsimp only
          split
          · exact conclude_acts coherent task errand
          · rfl
      | waiting flight call => exact resume_acts coherent task flight call
      | «over» verdict => rfl

end Cache

/-! ## The lookups of a turn -/

section Lookups

variable {settings}

theorem plain_awaitActs (cache : Cache Value) (errand : Errand Value) :
    ∀ act ∈ awaitActs settings cache errand, act.Plain := by
  rw [awaitActs]
  split
  · exact Cache.plain_acts cache errand.concludes_operation
  · exact List.forall_mem_nil _

/-- The second look of a flight's leader is no lookup. -/
theorem plain_leadActs
    (cache : Cache Value) (flight : FlightId) (call : SingleCall Value) :
    ∀ act ∈ leadActs settings cache flight call, act.Plain := by
  refine List.forall_mem_cons.mpr ⟨.peek call.name, ?_⟩
  split
  · exact plain_awaitActs _ _
  · exact List.forall_mem_nil _

theorem plain_joinActs
    (scheduler : Scheduler Value) (call : SingleCall Value) :
    ∀ act ∈ joinActs settings scheduler call, act.Plain := by
  rw [joinActs]
  split
  · exact List.forall_mem_nil _
  · split
    · exact plain_leadActs _ _ _
    · exact List.forall_mem_nil _

theorem plain_resumeActs
    (scheduler : Scheduler Value) (task : TaskId) (flight : FlightId)
    (call : SingleCall Value) :
    ∀ act ∈ resumeActs settings scheduler task flight call, act.Plain := by
  rw [resumeActs]
  split
  · exact List.forall_mem_nil _
  · split
    · exact plain_leadActs _ _ _
    · exact List.forall_mem_nil _

/-- A call of one name looks it up and goes on with plain acts. -/
theorem beginSingleActs_eq
    (scheduler : Scheduler Value) (call : SingleCall Value) :
    ∃ rest, beginSingleActs settings scheduler call =
        .quiet (.lookup call.name) :: rest ∧ ∀ act ∈ rest, act.Plain := by
  refine ⟨_, rfl, ?_⟩
  split
  · exact plain_joinActs _ call
  · exact List.forall_mem_nil _

/-- The call of a batch gathers what it wants and goes on with plain acts. -/
theorem beginBatchActs_eq
    (cache : Cache Value) (call : BatchCall Value) :
    ∃ rest, beginBatchActs settings cache call =
        (Operation.gather call.requests).acts settings cache ++ rest ∧
      ∀ act ∈ rest, act.Plain := by
  refine ⟨_, rfl, ?_⟩
  split
  · exact List.forall_mem_nil _
  · split
    · exact List.forall_mem_nil _
    · exact plain_awaitActs _ _

end Lookups

end Scheduler

/-- How often a task looks names up when it takes its turn. -/
def Stage.lookups {Value : Type} : Stage Value → Nat
  | .single _ => 1
  | .batch call => call.requests.length
  | _ => 0

namespace Scheduler

variable {Value : Type} [Keyed Value] {settings : Settings}

/-- The acts of a task that takes its turn but does not begin are plain. -/
theorem plain_stepActs
    {scheduler : Scheduler Value} {task : TaskId}
    (begun : ∀ stage ∈ scheduler.tasks[task]?, stage.isUnbegun = false) :
    ∀ act ∈ stepActs settings scheduler task, act.Plain := by
  rw [stepActs]
  cases found : scheduler.tasks[task]? with
  | none => exact List.forall_mem_nil _
  | some stage =>
      have late := begun stage found
      cases stage with
      | single call => cases late
      | batch call => cases late
      | called errand => exact plain_awaitActs scheduler.cache errand
      | asleep errand wakeAt =>
          dsimp only
          split
          · exact Cache.plain_acts scheduler.cache errand.concludes_operation
          · exact List.forall_mem_nil _
      | waiting flight call =>
          exact plain_resumeActs scheduler task flight call
      | «over» verdict => exact List.forall_mem_nil _

/-- A task does nothing but looking names up and plain acts. -/
theorem forall_mem_stepActs
    {kind : Act Value → Prop} (plain : ∀ act : Act Value, act.Plain → kind act)
    (looks : ∀ name, kind (.quiet (.lookup name)))
    (scheduler : Scheduler Value) (task : TaskId) :
    ∀ act ∈ stepActs settings scheduler task, kind act := by
  by_cases begun : ∀ stage ∈ scheduler.tasks[task]?, stage.isUnbegun = false
  · exact fun act member => plain act (plain_stepActs begun act member)
  · push Not at begun
    obtain ⟨stage, found, unbegun⟩ := begun
    rw [Option.mem_def] at found
    rw [stepActs, found]
    cases stage with
    | single call =>
        obtain ⟨rest, shape, others⟩ :=
          beginSingleActs_eq scheduler call
        dsimp only
        rw [shape]
        exact List.forall_mem_cons.mpr
          ⟨looks call.name, fun act member => plain act (others act member)⟩
    | batch call =>
        obtain ⟨rest, shape, others⟩ :=
          beginBatchActs_eq scheduler.cache call
        have lookups : Cache.Throughout kind
            (Cache.lookupChores call.requests) := by
          apply Cache.Throughout.map
          exact fun request _ => looks request.name
        dsimp only
        rw [shape]
        exact List.forall_mem_append.mpr
          ⟨lookups.carryOut scheduler.cache,
            fun act member => plain act (others act member)⟩
    | _ => exact absurd rfl unbegun

theorem countP_stepActs
    (scheduler : Scheduler Value) (coherent : scheduler.cache.Coherent)
    {task : TaskId}
    (legible : Cache.Legible settings scheduler.cache
      (stepActs settings scheduler task)) :
    (stepActs settings scheduler task).countP Act.isLookup =
      (scheduler.tasks[task]?).elim 0 Stage.lookups := by
  by_cases begun : ∀ stage ∈ scheduler.tasks[task]?, stage.isUnbegun = false
  · rw [Cache.countP_of_plain (plain_stepActs begun)]
    cases found : scheduler.tasks[task]? with
    | none => rfl
    | some stage =>
        have late := begun stage found
        cases stage with
        | single call => cases late
        | batch call => cases late
        | _ => rfl
  · push Not at begun
    obtain ⟨stage, found, unbegun⟩ := begun
    rw [Option.mem_def] at found
    rw [stepActs, found] at legible ⊢
    cases stage with
    | single call =>
        obtain ⟨rest, shape, plain⟩ :=
          beginSingleActs_eq scheduler call
        dsimp only
        rw [shape, List.countP_cons_of_pos rfl, Cache.countP_of_plain plain]
        rfl
    | batch call =>
        obtain ⟨rest, shape, plain⟩ :=
          beginBatchActs_eq scheduler.cache call
        dsimp only at legible ⊢
        rw [shape] at legible ⊢
        have gathers := (Cache.legible_append.mp legible).1
        rw [List.countP_append, Cache.countP_of_plain plain,
          Cache.countP_acts coherent gathers]
        rfl
    | _ => exact absurd rfl unbegun

end Scheduler

/-! ## Incidents -/

/-- What can happen to a cache and its scheduler. -/
inductive Incident (Value : Type) where
  /-- A client asks something of the cache. -/
  | operation (operation : Operation Value)
  /-- The scheduler moves. -/
  | move (move : Move Value)

namespace Logbook

variable {Value : Type} [Keyed Value] (settings : Settings)

/-- The acts of a move. -/
def moveActs (logbook : Logbook Value) : Move Value → List (Act Value)
  | .turn task =>
      Scheduler.stepActs settings
        { logbook.scheduler with
          ready := logbook.scheduler.ready.erase task } task
  | .act act => [act]
  | .tick =>
      (logbook.scheduler.activeSweeper?.map fun sweeper =>
        .sweep sweeper.nextShard).toList
  | _ => []

/-- The acts of an incident. -/
def acts (logbook : Logbook Value) : Incident Value → List (Act Value)
  | .operation operation => operation.acts settings logbook.scheduler.cache
  | .move move => moveActs settings logbook move

/-- How often an incident looks names up.  A call of one name does so once, when
it starts, and the call of a batch once for every request. -/
def lookups (logbook : Logbook Value) : Incident Value → Nat
  | .operation operation => operation.lookups
  | .move (.turn task) =>
      (logbook.scheduler.tasks[task]?).elim 0 Stage.lookups
  | .move (.act act) => if act.isLookup then 1 else 0
  | .move _ => 0

/-- What an incident leaves behind. -/
def undergo (logbook : Logbook Value) : Incident Value → Logbook Value
  | .operation operation =>
      { logbook with
        scheduler := { logbook.scheduler with
          cache := Cache.final (operation.action settings)
            logbook.scheduler.cache } }
  | .move move => after settings logbook move

/-- What incidents leave behind, one after the other. -/
def undergoAll (logbook : Logbook Value) (incidents : List (Incident Value)) :
    Logbook Value :=
  incidents.foldl (undergo settings) logbook

/-- The acts of incidents, one after the other. -/
def allActs : Logbook Value → List (Incident Value) → List (Act Value)
  | _, [] => []
  | logbook, incident :: incidents =>
      acts settings logbook incident ++
        allActs (undergo settings logbook incident) incidents

/-- How often incidents look names up. -/
def allLookups : Logbook Value → List (Incident Value) → Nat
  | _, [] => 0
  | logbook, incident :: incidents =>
      lookups logbook incident +
        allLookups (undergo settings logbook incident) incidents

/-- Operations of clients do not concern the tasks. -/
theorem orderly_undergoAll
    {logbook : Logbook Value} (orderly : logbook.crew.Orderly)
    (incidents : List (Incident Value)) :
    (undergoAll settings logbook incidents).crew.Orderly := by
  induction incidents generalizing logbook with
  | nil => exact orderly
  | cons incident incidents inductionHypothesis =>
      refine inductionHypothesis ?_
      cases incident with
      | operation operation => exact orderly
      | move move =>
          exact (moved_after settings orderly.manned move).orderly orderly

section Incidents

variable {settings} {logbook : Logbook Value}
  (coherent : logbook.scheduler.cache.Coherent)

include coherent

/-- A move leaves behind what its acts leave behind. -/
theorem cache_after (move : Move Value) :
    (after settings logbook move).scheduler.cache =
      Cache.follow settings logbook.scheduler.cache
        (moveActs settings logbook move) := by
  cases move with
  | turn task =>
      exact Scheduler.step_acts { logbook.scheduler with
        ready := logbook.scheduler.ready.erase task } coherent task
  | tick =>
      have swept : ∀ sweeper : Sweeper,
          Cache.final (Cache.sweep sweeper.nextShard)
              logbook.scheduler.cache =
            Cache.after settings logbook.scheduler.cache
              (.sweep sweeper.nextShard) := fun _ =>
        (Cache.final_discard _ _).symm
      rw [after, moveActs]
      dsimp only
      rw [Scheduler.tick]
      cases logbook.scheduler.activeSweeper? with
      | none => rfl
      | some sweeper =>
          dsimp only
          rw [Scheduler.attempt_eq, swept]
          cases Cache.answer (Cache.sweep sweeper.nextShard)
              logbook.scheduler.cache with
          | error fault => rfl
          | ok number => rfl
  | abort task => exact logbook.scheduler.cache_abort task
  | _ => rfl

/-- An incident leaves behind what its acts leave behind. -/
theorem cache_undergo (incident : Incident Value) :
    (undergo settings logbook incident).scheduler.cache =
      Cache.follow settings logbook.scheduler.cache
        (acts settings logbook incident) := by
  cases incident with
  | operation operation => exact Cache.final_operation coherent operation
  | move move => exact cache_after coherent move

theorem coherent_undergo
    (settings : Settings) (incident : Incident Value) :
    (undergo settings logbook incident).scheduler.cache.Coherent := by
  rw [cache_undergo coherent]
  exact coherent.follow settings _

/-- An incident looks names up as often as it is to. -/
theorem countP_acts {incident : Incident Value}
    (legible : Cache.Legible settings logbook.scheduler.cache
      (acts settings logbook incident)) :
    (acts settings logbook incident).countP Act.isLookup =
      lookups logbook incident := by
  cases incident with
  | operation operation => exact Cache.countP_acts coherent legible
  | move move =>
      cases move with
      | turn task =>
          exact Scheduler.countP_stepActs
            { logbook.scheduler with
              ready := logbook.scheduler.ready.erase task }
            coherent legible
      | act act =>
          rw [acts, moveActs, List.countP_singleton]
          rfl
      | tick =>
          rw [acts, moveActs]
          cases logbook.scheduler.activeSweeper? with
          | none => rfl
          | some sweeper => rfl
      | _ => rfl

/-- Incidents leave behind what their acts leave behind. -/
theorem cache_undergoAll (incidents : List (Incident Value)) :
    (undergoAll settings logbook incidents).scheduler.cache =
      Cache.follow settings logbook.scheduler.cache
        (allActs settings logbook incidents) := by
  induction incidents generalizing logbook with
  | nil => rfl
  | cons incident incidents inductionHypothesis =>
      rw [allActs, Cache.follow_append, ← cache_undergo coherent]
      exact inductionHypothesis (coherent_undergo coherent settings incident)

theorem coherent_undergoAll
    (settings : Settings) (incidents : List (Incident Value)) :
    (undergoAll settings logbook incidents).scheduler.cache.Coherent := by
  rw [cache_undergoAll coherent]
  exact coherent.follow settings _

/-- Incidents look names up as often as they are to. -/
theorem countP_allActs {incidents : List (Incident Value)}
    (legible : Cache.Legible settings logbook.scheduler.cache
      (allActs settings logbook incidents)) :
    (allActs settings logbook incidents).countP Act.isLookup =
      allLookups settings logbook incidents := by
  induction incidents generalizing logbook with
  | nil => rfl
  | cons incident incidents inductionHypothesis =>
      have next := coherent_undergo coherent settings incident
      rw [allActs] at legible ⊢
      obtain ⟨first, rest⟩ := Cache.legible_append.mp legible
      rw [← cache_undergo coherent] at rest
      rw [List.countP_append, countP_acts coherent first,
        inductionHypothesis next rest, allLookups]

end Incidents

/-- The books of a new cache balance after every run of incidents that meets no
clock that cannot be read, and at every point of it: the reads that were counted
are the lookups that were made, and of these are the counted refreshes those
that were elected; a forced eviction is counted for every write of a new key that
found its shard full and went through; and whatever was stored that was not
stored before is still there, or was evicted, or was deleted. -/
theorem books_balance
    {settings : Settings} (valid : settings.Valid)
    (expressible : settings.timeToLive ≤ Duration.longest)
    (paddings : Nat → List Nat) (incidents : List (Incident Value))
    (legible : Cache.Legible settings (.empty settings paddings)
      (allActs settings (start settings paddings) incidents)) :
    let new : Cache Value := .empty settings paddings
    let acts := allActs settings (start settings paddings) incidents
    (undergoAll settings (start settings paddings)
        incidents).scheduler.cache = Cache.follow settings new acts ∧
      (Cache.ledger settings new acts).lookups =
        allLookups settings (start settings paddings) incidents ∧
      ∀ early, early <+: acts →
        let cache := Cache.follow settings new early
        let ledger := Cache.ledger settings new early
        cache.counters.hits + cache.counters.misses +
            cache.counters.missingHits = ledger.lookups.toUInt64 ∧
          cache.counters.refreshes = ledger.elections.toUInt64 ∧
          cache.counters.forcedEvictions = ledger.squeezes.toUInt64 ∧
          cache.size.toUInt64 + cache.counters.evictions +
            ledger.removals.toUInt64 = ledger.arrivals.toUInt64 := by
  intro new acts
  have coherent : new.Coherent := Cache.coherent_empty valid paddings
  refine ⟨cache_undergoAll coherent incidents, ?_, ?_⟩
  · rw [Cache.lookups_ledger]
    exact countP_allActs coherent legible
  · rintro early ⟨late, whole⟩ cache ledger
    have readable : Cache.Legible settings new (early ++ late) := by
      rw [whole]
      exact legible
    have posted := Cache.posted_follow coherent
      (valid.window_le expressible) (Cache.legible_append.mp readable).1
    have zero : ∀ number : UInt64, 0 + number = number := UInt64.zero_add
    refine ⟨?_, ?_, ?_, ?_⟩
    · exact posted.lookups.trans (zero _)
    · exact posted.elections.trans (zero _)
    · exact posted.squeezes.trans (zero _)
    · refine posted.stock.trans ?_
      rw [Cache.size_empty]
      exact zero _

/-- A write is broken off, another squeezes an entry out of its shard, a refresh
finds the record gone and deletes it, a batch of two reads a missing record and
misses, and the sweeper removes what has expired. -/
def busy : List (Incident NameTag) :=
  [.operation (.writeAll
      [⟨"d", some ⟨"d", ["x"]⟩, ["x"]⟩, ⟨"a", none, []⟩]),
    .operation (.act (.write ⟨"b", some ⟨"b", ["x"]⟩, ["x"]⟩)),
    .operation (.act (.quiet (.advance 1))),
    .operation (.act (.write ⟨"e", some ⟨"e", []⟩, []⟩)),
    .operation (.act (.quiet (.advance 1))),
    .move (.call ⟨"e", .byName, ⟨0, 0, .fails (.notFound "source")⟩⟩),
    .move (.turn 0), .move (.turn 1),
    .operation (.getManyBy [⟨"first", "a"⟩, ⟨"second", "x"⟩]),
    .operation (.act (.quiet (.advance 2000))),
    .move .tick, .move .tick]

theorem books_balance_busy :
    let settings : Settings :=
      { Settings.tight 10 with
        sweeping := true
        refresh := some { earliest := 0, latest := 0, retryBase := 5 } }
    let new : Cache NameTag := .empty settings fun _ => []
    let acts := allActs settings (start settings fun _ => []) busy
    let cache := Cache.follow settings new acts
    settings.Valid ∧ settings.timeToLive ≤ Duration.longest ∧
      Cache.Legible settings new acts ∧
        Cache.ledger settings new acts =
            { lookups := 3, elections := 2, squeezes := 1, arrivals := 3,
              removals := 1 } ∧
          allLookups settings (start settings fun _ => []) busy = 3 ∧
            cache.counters.refreshes = 2 ∧
              cache.counters.forcedEvictions = 1 ∧
                cache.size.toUInt64 + cache.counters.evictions + 1 = 3 := by
  intro settings new acts cache
  have valid : settings.Valid := by decide
  have expressible : settings.timeToLive ≤ Duration.longest := by decide
  have legible : Cache.Legible settings new acts := by decide +kernel
  have entered : Cache.ledger settings new acts =
      { lookups := 3, elections := 2, squeezes := 1, arrivals := 3,
        removals := 1 } := by decide +kernel
  obtain ⟨_, lookups, balance⟩ :=
    books_balance valid expressible (fun _ => []) busy legible
  obtain ⟨_, refreshes, squeezes, stock⟩ := balance acts List.prefix_rfl
  rw [entered] at lookups refreshes squeezes stock
  exact ⟨valid, expressible, legible, entered, lookups.symm, refreshes,
    squeezes, stock⟩

end Logbook

end ReadThrough
