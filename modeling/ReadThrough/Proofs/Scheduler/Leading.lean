import ReadThrough.Proofs.Cache.Untouched
import ReadThrough.Proofs.Scheduler
import ReadThrough.Proofs.Scheduler.Manned

/-!
# Leading a flight

The leader of a flight looks the name up again.  If it finds something, the
flight lands with it; otherwise the leader calls its fetch, and the flight lands
with the outcome of the fetch.  A fault makes the leader leave the flight.

`led_lead` says so for the crew; `calls_lead` says when the fetch is called.
-/

namespace ReadThrough

/-- Looking a name up again changes no entry, and elects nobody. -/
theorem Cache.shards_final_peek
    {Value : Type} (name : String) (cache : Cache Value) :
    (final (peek name) cache).shards = cache.shards :=
  (respects_final (respects_peek_untouched name) cache).shards

namespace Crew

variable {Value : Type} {crew next : Crew Value} {task : TaskId}
  {flight : FlightId} {joined : Flight Value} {call : SingleCall Value}

theorem modify_eq_setIfInBounds
    {Item : Type} {items : Array Item} {index : Nat} {old : Item}
    (found : items[index]? = some old) (change : Item → Item) :
    items.modify index change =
      items.setIfInBounds index (change old) := by
  apply Array.ext_getElem?
  intro other
  rw [Array.getElem?_modify, getElem?_setIfInBounds_of_found found]
  by_cases same : index = other
  · subst same
    simp [found]
  · simp [same, Ne.symm same]

theorem setIfInBounds_push
    {Item : Type} (items : Array Item) (first second : Item) :
    (items.push first).setIfInBounds items.size second =
      items.push second := by
  apply Array.ext_getElem?
  intro other
  have last : (items.push first)[items.size]? = some first :=
    Array.getElem?_push_size
  rw [getElem?_setIfInBounds_of_found last]
  simp only [Array.getElem?_push]
  split
  · rfl
  · rfl

/-- What comes of a task whose fetch for a flight is over. -/
inductive Concluded (task : TaskId) (flight : FlightId)
    (joined : Flight Value) (crew : Crew Value) : Crew Value → Prop
  /-- The flight lands. -/
  | lands (outcome : Except Failure Value) :
      Concluded task flight joined crew
        (crew.land task flight joined outcome)
  /-- A fault breaks the task off. -/
  | leaves (fault : Fault) :
      Concluded task flight joined crew
        (crew.leave task flight joined (.broken fault))

/-- What comes of a task that calls its fetch for a flight. -/
inductive Fetched (task : TaskId) (flight : FlightId)
    (joined : Flight Value) (call : SingleCall Value)
    (crew : Crew Value) : Crew Value → Prop
  /-- It has to wait for the fetch. -/
  | sleeps (wakeAt : Nat) :
      Fetched task flight joined call crew
        ((crew.note (.one task call.name)).put task
          (.asleep (.complete flight call) wakeAt))
  /-- The fetch is over at once. -/
  | concludes {next : Crew Value}
      (concluded :
        Concluded task flight joined (crew.note (.one task call.name)) next) :
      Fetched task flight joined call crew next

/-- What comes of a task that leads a flight and looks its name up again. -/
inductive Led (task : TaskId) (flight : FlightId) (joined : Flight Value)
    (call : SingleCall Value) (crew : Crew Value) : Crew Value → Prop
  /-- It finds the name, or a fault breaks it off. -/
  | concludes {next : Crew Value}
      (concluded : Concluded task flight joined crew next) :
      Led task flight joined call crew next
  /-- It calls its fetch. -/
  | fetches {next : Crew Value}
      (fetched : Fetched task flight joined call crew next) :
      Led task flight joined call crew next

theorem Concluded.calls
    (concluded : Concluded task flight joined crew next) :
    next.calls = crew.calls := by
  cases concluded with
  | lands outcome => rfl
  | leaves fault => rfl

theorem Fetched.calls (fetched : Fetched task flight joined call crew next) :
    next.calls = crew.calls ++ [.one task call.name] := by
  cases fetched with
  | sleeps wakeAt => rfl
  | concludes concluded => exact concluded.calls

/-- Whoever leads a flight has to wait for its fetch or comes to an end. -/
theorem Led.sleeps_or_concludes
    (led : Led task flight joined call crew next) :
    (∃ wakeAt, next = (crew.note (.one task call.name)).put task
      (.asleep (.complete flight call) wakeAt)) ∨
      ∃ calls, Concluded task flight joined
        { crew with calls := calls } next := by
  cases led with
  | concludes concluded => exact Or.inr ⟨crew.calls, concluded⟩
  | fetches fetched =>
      cases fetched with
      | sleeps wakeAt => exact Or.inl ⟨wakeAt, rfl⟩
      | concludes concluded => exact Or.inr ⟨_, concluded⟩

/-- The stage in which the task was does not matter. -/
theorem Concluded.put
    (concluded : Concluded task flight joined crew next)
    (stage : Stage Value) :
    Concluded task flight joined (crew.put task stage) next := by
  cases concluded with
  | lands outcome =>
      rw [← land_put crew task stage]
      exact .lands outcome
  | leaves fault =>
      rw [← leave_put crew task stage]
      exact .leaves fault

/-- The stage in which the task was does not matter. -/
theorem Led.put
    (led : Led task flight joined call crew next) (stage : Stage Value) :
    Led task flight joined call (crew.put task stage) next := by
  have fetched : (crew.put task stage).note (.one task call.name) =
      (crew.note (.one task call.name)).put task stage := rfl
  cases led with
  | concludes concluded => exact .concludes (concluded.put stage)
  | fetches fetch =>
      apply Led.fetches
      cases fetch with
      | sleeps wakeAt =>
          have sleeps : Fetched task flight joined call
              (crew.put task stage) _ := .sleeps wakeAt
          rw [fetched, put_put] at sleeps
          exact sleeps
      | concludes concluded =>
          exact .concludes (fetched ▸ concluded.put stage)

end Crew

namespace Scheduler

open Crew (Led Fetched Concluded)

variable {Value Result : Type} {scheduler next : Scheduler Value}
  {reported : List FetchCall} {task : TaskId}

@[simp]
theorem crew_setStage (stage : Stage Value) :
    (scheduler.setStage task stage).crew reported =
      (scheduler.crew reported).put task stage := rfl

@[simp]
theorem crew_spawn (stage : Stage Value) :
    (scheduler.spawn stage).crew reported =
      (scheduler.crew reported).spawn stage := rfl

@[simp]
theorem crew_noteCall (call : FetchCall) :
    (scheduler.noteCall call).crew reported =
      (scheduler.crew reported).note call := by
  simp [noteCall, crew, Crew.note]

theorem crew_of_attempt
    {action : Cache.Action Value Result} {result : Except Fault Result}
    (attempted : scheduler.attempt action = (result, next)) :
    scheduler.crew reported = next.crew reported := by
  rw [attempt] at attempted
  split at attempted
  · cases attempted
    rfl
  · cases attempted
    rfl

section Flights

variable {flight : FlightId} {joined : Flight Value}
  {call : SingleCall Value}
  (there : (scheduler.crew reported).flights[flight]? = some joined)

include there

theorem crew_leaveFlight
    (leads : joined.leader = some task) (verdict : Verdict Value) :
    ((scheduler.leaveFlight task flight).finish task verdict).crew reported =
      (scheduler.crew reported).leave task flight joined verdict := by
  have found : scheduler.flights[flight]? = some joined := there
  rw [leaveFlight, found]
  dsimp only
  rw [if_pos leads, handOver, found, Crew.leave, Flight.handedOver]
  dsimp only
  cases waits : joined.waiting with
  | nil => simp [crew, finish, setStage, Crew.put, Crew.seat]
  | cons first rest => rfl

variable
  (listed : (scheduler.crew reported).inFlight[joined.name]? = some flight)

include listed

theorem crew_land (outcome : Except Failure Value) :
    (scheduler.land task flight joined.name outcome).crew reported =
      (scheduler.crew reported).land task flight joined outcome := by
  have found : scheduler.flights[flight]? = some joined := there
  have joinable : scheduler.inFlight[joined.name]? = some flight := listed
  rw [land, landFlight, found]
  dsimp only
  rw [closeFlight, if_pos joinable]
  rfl

variable (leads : joined.leader = some task)
  (sameName : joined.name = call.name)

include leads sameName

variable [Keyed Value] (settings : Settings)

theorem concluded_conclude :
    Concluded task flight joined (scheduler.crew reported)
      ((conclude settings scheduler task
        (.complete flight call)).crew reported) := by
  rw [conclude]
  split
  next fault next attempted =>
    rw [crew_of_attempt attempted] at there ⊢
    rw [crew_leaveFlight there leads]
    exact .leaves fault
  next outcome next attempted =>
    rw [crew_of_attempt attempted] at there listed ⊢
    rw [← sameName, crew_land there listed]
    exact .lands outcome

theorem fetched_await :
    Fetched task flight joined call (scheduler.crew reported)
      ((await settings (scheduler.noteCall (.one task call.name)) task
        (.complete flight call)).crew reported) := by
  have noted : (scheduler.noteCall (.one task call.name)).crew reported =
      _ := crew_noteCall (.one task call.name)
  have stillThere : (((scheduler.noteCall
      (.one task call.name)).crew reported).flights)[flight]? =
        some joined := there
  have stillListed : (((scheduler.noteCall
      (.one task call.name)).crew reported).inFlight)[joined.name]? =
        some flight := listed
  rw [await]
  split
  · apply Fetched.concludes
    rw [← noted]
    exact concluded_conclude stillThere stillListed leads sameName settings
  · rw [crew_setStage, noted]
    exact .sleeps _

theorem led_lead :
    Led task flight joined call (scheduler.crew reported)
      ((lead settings scheduler task flight call).crew reported) := by
  rw [lead]
  split
  next fault next attempted =>
    rw [crew_of_attempt attempted] at there ⊢
    rw [crew_leaveFlight there leads]
    exact .concludes (.leaves fault)
  next value _ next attempted =>
    rw [crew_of_attempt attempted] at there listed ⊢
    rw [← sameName, crew_land there listed]
    exact .concludes (.lands (.ok value))
  next next attempted =>
    rw [crew_of_attempt attempted] at there listed ⊢
    rw [← sameName, crew_land there listed]
    exact .concludes (.lands _)
  next next attempted =>
    rw [crew_of_attempt attempted] at there listed ⊢
    exact .fetches (fetched_await there listed leads sameName settings)

end Flights

theorem attempt_of_result?
    {action : Cache.Action Value Result} {result : Result}
    (answered : Cache.result? action scheduler.cache = some result) :
    ∃ next, scheduler.attempt action = (.ok result, next) ∧
      next.cache = Cache.final action scheduler.cache := by
  rw [attempt, Cache.run_of_result? answered]
  exact ⟨_, rfl, rfl⟩

theorem attempt_of_fault
    {action : Cache.Action Value Result}
    (unanswered : Cache.result? action scheduler.cache = none) :
    ∃ fault next, scheduler.attempt action = (.error fault, next) ∧
      next.cache = Cache.final action scheduler.cache := by
  rw [Cache.result?] at unanswered
  rw [attempt, Cache.final]
  cases run : action.run scheduler.cache with
  | ok result cache =>
      rw [run] at unanswered
      cases unanswered
  | error fault cache => exact ⟨fault, _, rfl, rfl⟩

@[simp]
theorem tasks_leaveFlight (task : TaskId) (flight : FlightId) :
    (scheduler.leaveFlight task flight).tasks = scheduler.tasks := by
  have handedOver : (scheduler.handOver flight).tasks = scheduler.tasks := by
    rw [handOver]
    split
    · rfl
    · split
      · rfl
      · rfl
  rw [leaveFlight]
  split
  · rfl
  · split
    · exact handedOver
    · rfl

section Lead

variable [Keyed Value] (settings : Settings) {reported : List FetchCall}
  {task : TaskId} {flight : FlightId} {joined : Flight Value}
  {call : SingleCall Value} {value : Value} {refresh : Bool}

theorem cache_lead
    (present : Cache.result? (Cache.peek call.name) scheduler.cache ≠
      some .absent) :
    (lead settings scheduler task flight call).cache =
      Cache.final (Cache.peek call.name) scheduler.cache := by
  rw [lead]
  cases looked : Cache.result? (Cache.peek call.name) scheduler.cache with
  | none =>
      obtain ⟨fault, next, attempted, sameCache⟩ := attempt_of_fault looked
      rw [attempted, ← sameCache]
      simp
  | some lookup =>
      obtain ⟨next, attempted, sameCache⟩ := attempt_of_result? looked
      rw [attempted, ← sameCache]
      cases lookup with
      | absent => exact absurd looked present
      | found value refresh => simp [land]
      | missing refresh => simp [land]

variable (there : (scheduler.crew reported).flights[flight]? = some joined)
  (listed : (scheduler.crew reported).inFlight[joined.name]? = some flight)
  (sameName : joined.name = call.name)

include there listed sameName

/-- What the leader of a flight finds ends it, and everybody learns it. -/
theorem crew_lead_of_found
    (looked : Cache.result? (Cache.peek call.name) scheduler.cache =
      some (.found value refresh)) :
    (lead settings scheduler task flight call).crew reported =
      (scheduler.crew reported).land task flight joined (.ok value) := by
  obtain ⟨next, attempted, _⟩ := attempt_of_result? looked
  rw [lead, attempted, ← sameName]
  rw [crew_of_attempt attempted] at there listed ⊢
  exact crew_land there listed _

theorem crew_lead_of_missing
    (looked : Cache.result? (Cache.peek call.name) scheduler.cache =
      some (.missing refresh)) :
    (lead settings scheduler task flight call).crew reported =
      (scheduler.crew reported).land task flight joined
        (.error (.missingRecord call.name)) := by
  obtain ⟨next, attempted, _⟩ := attempt_of_result? looked
  rw [lead, attempted, ← sameName]
  rw [crew_of_attempt attempted] at there listed ⊢
  exact crew_land there listed _

variable (leads : joined.leader = some task)

include leads

omit listed sameName in
/-- A leader that is broken off while it looks leaves the flight. -/
theorem crew_lead_of_fault
    {fault : Fault} {next : Scheduler Value}
    (attempted : scheduler.attempt (Cache.peek call.name) =
      (.error fault, next)) :
    (lead settings scheduler task flight call).crew reported =
      (scheduler.crew reported).leave task flight joined (.broken fault) := by
  rw [lead, attempted]
  rw [crew_of_attempt attempted] at there ⊢
  exact crew_leaveFlight there leads (.broken fault)

/-- The leader of a flight calls its fetch if it finds nothing, and only
then. -/
theorem calls_lead :
    ((lead settings scheduler task flight call).crew reported).calls =
      (scheduler.crew reported).calls ++
        match Cache.result? (Cache.peek call.name) scheduler.cache with
        | some .absent => [.one task call.name]
        | _ => [] := by
  cases looked : Cache.result? (Cache.peek call.name) scheduler.cache with
  | none =>
      obtain ⟨fault, next, attempted, _⟩ := attempt_of_fault looked
      rw [crew_lead_of_fault settings there leads attempted]
      simp [Crew.leave, Crew.put, Crew.seat]
  | some lookup =>
      cases lookup with
      | absent =>
          obtain ⟨next, attempted, _⟩ := attempt_of_result? looked
          rw [lead, attempted]
          rw [crew_of_attempt attempted] at there listed ⊢
          dsimp only
          exact (fetched_await there listed leads sameName settings).calls
      | found value refresh =>
          rw [crew_lead_of_found settings there listed sameName looked]
          simp [Crew.land, Crew.put, Crew.seat]
      | missing refresh =>
          rw [crew_lead_of_missing settings there listed sameName looked]
          simp [Crew.land, Crew.put, Crew.seat]

end Lead

end Scheduler

end ReadThrough
