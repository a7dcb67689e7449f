import ReadThrough.Proofs.Scheduler.Moves

/-!
# Calls that begin

A call of one name that takes its first turn looks the name up.  What it finds
ends it.  If it finds nothing, it has missed the name: it waits for the leader
of the name's flight or, where there is none, leads the flight itself.
`begun_beginSingle` says so for the scheduler.

A flight without a leader changes in no other turn than that of such a call, and
no flight is opened in any other: `Turn.vacancy`.
-/

namespace ReadThrough

/-! ## Flights without a leader -/

namespace Crew

variable {Value : Type} {crew next : Crew Value} {task : TaskId}
  {flight : FlightId} {joined : Flight Value} {call : SingleCall Value}

/-- A task that has not begun has made no stroke, unless to note a call. -/
theorem Stroke.of_single
    (stroke : Stroke task crew next)
    (unbegun : next.tasks[task]? = some (.single call)) :
    ∃ labels, next = crew.note (.many task labels) := by
  have placed : ∀ {tasks : Array (Stage Value)} {old rest : Stage Value},
      tasks[task]? = some old → rest ≠ .single call →
        (tasks.setIfInBounds task rest)[task]? ≠ some (.single call) := by
    intro tasks old rest found apart
    rw [getElem?_setIfInBounds_self_of_found found]
    exact fun same => apart (Option.some.inj same)
  cases stroke with
  | notes labels => exact ⟨labels, rfl⟩
  | settles found running ashore stays begun =>
      refine absurd unbegun (placed found ?_)
      rintro rfl
      cases begun
  | delegates found isUnbegun stays begun free own =>
      refine absurd unbegun (placed (getElem?_push_of_found found _) ?_)
      rintro rfl
      cases begun
  | opens found => exact absurd unbegun (placed found (by simp))
  | takes found => exact absurd unbegun (placed found (by simp))
  | joins found => exact absurd unbegun (placed found (by simp))
  | fetches found => exact absurd unbegun (placed found (by simp))
  | lands outcome found => exact absurd unbegun (placed found (by simp))
  | leaves verdict unanswered found =>
      exact absurd unbegun (placed found (by simp))
  | quits found => exact absurd unbegun (placed found (by simp))
  | learns found => exact absurd unbegun (placed found (by simp))

/-- What a turn makes of a flight that nobody leads, or that is yet to come. -/
inductive Vacancy (task : TaskId) (flight : FlightId)
    (crew next : Crew Value) : Prop
  | stays (same : next.flights[flight]? = crew.flights[flight]?)
  /-- A call that has not begun comes to lead it. -/
  | fills {call : SingleCall Value} {joined : Flight Value}
      (unbegun : crew.tasks[task]? = some (.single call))
      (sole : ∀ place, crew.inFlight[call.name]? = some place →
        place = flight)
      (name : joined.name = call.name)
      (leads : joined.leader = some task)
      (captaincy : Captaincy task flight joined next)

theorem Stroke.vacancy
    (manned : crew.Manned) (stroke : Stroke task crew next)
    (unled : ∀ joined, crew.flights[flight]? = some joined →
      joined.leader = none) :
    Vacancy task flight crew next := by
  -- Where somebody leads, it is another flight.
  have elsewhere : ∀ {place : FlightId} {other : Flight Value}
      {leader : TaskId} (changed : Flight Value),
      crew.flights[place]? = some other → other.leader = some leader →
        (crew.flights.setIfInBounds place changed)[flight]? =
          crew.flights[flight]? := by
    intro place other leader changed there led
    rw [getElem?_setIfInBounds_of_found there]
    split
    next here =>
      subst here
      have nobody := unled other there
      rw [led] at nobody
      cases nobody
    next => rfl
  cases stroke with
  | notes => exact .stays rfl
  | settles => exact .stays rfl
  | delegates => exact .stays rfl
  | fetches => exact .stays rfl
  | learns => exact .stays rfl
  | opens found vacant =>
      by_cases here : flight = crew.flights.size
      · subst here
        refine .fills found ?_ rfl rfl
          (.leads Array.getElem?_push_size)
        intro place listed
        rw [vacant] at listed
        cases listed
      · refine .stays ?_
        simp only [Array.getElem?_push, if_neg here]
  | @takes call place joined found listed there free =>
      by_cases here : flight = place
      · subst here
        obtain ⟨again, againThere, sameName, _⟩ := manned.listed.mp listed
        cases there.symm.trans againThere
        have seated := getElem?_setIfInBounds_self_of_found there
          { joined with leader := some task }
        have named : ({ joined with leader := some task } : Flight Value).name =
            call.name := sameName
        refine .fills found ?_ named rfl (.leads seated)
        intro place alsoListed
        exact Option.some.inj (alsoListed.symm.trans listed)
      · refine .stays ?_
        exact Array.getElem?_setIfInBounds_ne (Ne.symm here)
  | joins found listed there led => exact .stays (elsewhere _ there led)
  | lands outcome found aboard there leads =>
      exact .stays (elsewhere _ there leads)
  | leaves verdict unanswered found aboard there leads =>
      exact .stays (elsewhere _ there leads)
  | @quits call place joined found there follows =>
      by_cases here : flight = place
      · -- Nobody waits for a flight without a leader, so nobody quits it.
        subst here
        have alone := manned.led there (unled joined there)
        refine .stays ?_
        simp only [seat, put, Flight.filter_waiting_of_alone alone]
        rw [getElem?_setIfInBounds_self_of_found there, there]
      · refine .stays ?_
        exact Array.getElem?_setIfInBounds_ne (Ne.symm here)

theorem Turn.vacancy
    (turn : Turn task crew next) (manned : crew.Manned)
    (unled : ∀ joined, crew.flights[flight]? = some joined →
      joined.leader = none) :
    Vacancy task flight crew next := by
  -- As long as the task has not begun, it has changed nothing but the calls.
  have step : ∀ {before after : Crew Value}, before.Manned →
      Stroke task before after →
        Vacancy task flight crew before ∧
            (∀ call, before.tasks[task]? = some (.single call) →
              crew.tasks[task]? = some (.single call) ∧
                before.inFlight = crew.inFlight) →
          Vacancy task flight crew after ∧
            ∀ call, after.tasks[task]? = some (.single call) →
              crew.tasks[task]? = some (.single call) ∧
                after.inFlight = crew.inFlight := by
    rintro before after manned stroke ⟨vacancy, fresh⟩
    constructor
    · cases vacancy with
      | stays same =>
          cases stroke.vacancy manned (same ▸ unled) with
          | stays further => exact .stays (further.trans same)
          | @fills call joined unbegun sole name leads captaincy =>
              obtain ⟨begins, sameList⟩ := fresh call unbegun
              exact .fills begins (sameList ▸ sole) name leads captaincy
      | fills unbegun sole name leads captaincy =>
          exact .fills unbegun sole name leads
            (stroke.captaincy manned leads captaincy)
    · intro call unbegun
      obtain ⟨labels, rfl⟩ := stroke.of_single unbegun
      exact fresh call unbegun
  exact (manned.keeps step turn.strokes
    ⟨.stays rfl, fun _ unbegun => ⟨unbegun, rfl⟩⟩).1

theorem led_or_unled (crew : Crew Value) (flight : FlightId) :
    (∃ joined leader, crew.flights[flight]? = some joined ∧
      joined.leader = some leader) ∨
      ∀ joined, crew.flights[flight]? = some joined →
        joined.leader = none := by
  by_cases led : ∃ joined leader, crew.flights[flight]? = some joined ∧
      joined.leader = some leader
  · exact Or.inl led
  · refine Or.inr fun joined there => ?_
    cases leads : joined.leader with
    | none => rfl
    | some leader => exact absurd ⟨joined, leader, there, leads⟩ led

theorem Captaincy.named {leader : TaskId} {changed : Flight Value}
    (captaincy : Captaincy leader flight joined next)
    (there : next.flights[flight]? = some changed) :
    changed.name = joined.name := by
  cases captaincy with
  | leads still =>
      cases there.symm.trans still
      rfl
  | lands outcome landed =>
      cases there.symm.trans landed
      rfl
  | leaves verdict unanswered left =>
      cases there.symm.trans left
      rfl

/-! ## Flights stay -/

theorem Stroke.named
    (manned : crew.Manned) (stroke : Stroke task crew next)
    (there : crew.flights[flight]? = some joined) :
    ∃ changed, next.flights[flight]? = some changed ∧
      changed.name = joined.name := by
  obtain ⟨changed, changedThere, altered⟩ := stroke.altered manned there
  refine ⟨changed, changedThere, ?_⟩
  cases altered with
  | stays => rfl
  | takes => rfl
  | joins => rfl
  | lands => rfl
  | leaves => rfl
  | quits => rfl

/-- A flight is never removed and never gets another name. -/
theorem Moved.named
    (moved : Moved crew next) (manned : crew.Manned)
    (there : crew.flights[flight]? = some joined) :
    ∃ changed, next.flights[flight]? = some changed ∧
      changed.name = joined.name := by
  have step : ∀ {task : TaskId} {before after : Crew Value},
      before.Manned → Stroke task before after →
        (∃ changed, before.flights[flight]? = some changed ∧
          changed.name = joined.name) →
          ∃ changed, after.flights[flight]? = some changed ∧
            changed.name = joined.name := by
    rintro task before after manned stroke ⟨middle, middleThere, sameName⟩
    obtain ⟨changed, changedThere, sameAgain⟩ :=
      stroke.named manned middleThere
    exact ⟨changed, changedThere, sameAgain.trans sameName⟩
  cases moved with
  | spawns => exact ⟨joined, there, rfl⟩
  | wakes => exact ⟨joined, there, rfl⟩
  | turns turn =>
      exact (manned.noting _ _).keeps step turn.strokes ⟨joined, there, rfl⟩
  | aborts turn => exact manned.keeps step turn.strokes ⟨joined, there, rfl⟩

end Crew

/-- What a lookup of a name gives a caller, if it has found anything. -/
def Lookup.outcome? {Value : Type} (name : String) :
    Lookup Value → Option (Except Failure Value)
  | .absent => none
  | .found value _ => some (.ok value)
  | .missing _ => some (.error (.missingRecord name))

/-! ## Calls that begin -/

namespace Scheduler

variable {Value Result : Type}

/-- A task has boarded the flight of a name, of which it is the only member. -/
structure Boarded
    (scheduler : Scheduler Value) (task : TaskId) (name : String)
    (flight : FlightId) (boarded : Scheduler Value) : Prop where
  cache : boarded.cache = scheduler.cache
  tasks : boarded.tasks = scheduler.tasks
  seat : boarded.flights[flight]? = some
    { name, leader := some task, waiting := [], outcome := none }
  listed : boarded.inFlight[name]? = some flight
  others : ∀ other, other ≠ flight →
    boarded.flights[other]? = scheduler.flights[other]?
  unlanded : ∀ joined, scheduler.flights[flight]? = some joined →
    joined.outcome = none

section Beginning

variable [Keyed Value]

/-- What comes of a call that joins the flight of its name. -/
inductive Joined (settings : Settings) (scheduler : Scheduler Value)
    (task : TaskId) (call : SingleCall Value) : Scheduler Value → Prop
  /-- It waits for the leader. -/
  | waits {flight : FlightId} {joined : Flight Value} {leader : TaskId}
      (listed : scheduler.inFlight[call.name]? = some flight)
      (there : scheduler.flights[flight]? = some joined)
      (led : joined.leader = some leader)
      (unlanded : joined.outcome = none) :
      Joined settings scheduler task call
        { scheduler with
          tasks := scheduler.tasks.setIfInBounds task (.waiting flight call)
          flights := scheduler.flights.setIfInBounds flight
            { joined with waiting := joined.waiting ++ [task] } }
  /-- It leads. -/
  | leads {flight : FlightId} {boarded : Scheduler Value}
      (boards : Boarded scheduler task call.name flight boarded) :
      Joined settings scheduler task call
        (lead settings boarded task flight call)

/-- What comes of a call that takes its first turn. -/
inductive Begun (settings : Settings) (scheduler : Scheduler Value)
    (task : TaskId) (call : SingleCall Value) (next : Scheduler Value) : Prop
  /-- A fault breaks the lookup off. -/
  | breaks (fault : Fault)
      (unanswered : Cache.result? (Cache.lookup settings call.name)
        scheduler.cache = none)
      (flights : next.flights = scheduler.flights)
      (finished : next.tasks[task]? = some (.over (.broken fault)))
  /-- It finds something and answers it. -/
  | hits {lookup : Lookup Value} {outcome : Except Failure Value}
      (looked : Cache.result? (Cache.lookup settings call.name)
        scheduler.cache = some lookup)
      (found : lookup.outcome? call.name = some outcome)
      (flights : next.flights = scheduler.flights)
      (finished : next.tasks[task]? =
        some (.over (.returned (outcome.map .one))))
  /-- It finds nothing and joins the flight of its name. -/
  | misses
      (absent : Cache.result? (Cache.lookup settings call.name)
        scheduler.cache = some .absent)
      (joins : Joined settings
        { scheduler with
          cache := Cache.final (Cache.lookup settings call.name)
            scheduler.cache }
        task call next)

variable {scheduler next : Scheduler Value} {reported : List FetchCall}
  {task : TaskId} {call : SingleCall Value} (settings : Settings)

omit [Keyed Value] in
theorem eq_of_attempt
    {action : Cache.Action Value Result} {result : Except Fault Result}
    (attempted : scheduler.attempt action = (result, next)) :
    next = { scheduler with cache := next.cache } := by
  rw [attempt] at attempted
  split at attempted
  · cases attempted
    rfl
  · cases attempted
    rfl

theorem joined_join (manned : (scheduler.crew reported).Manned) :
    Joined settings scheduler task call
      (join settings scheduler task call) := by
  rw [join, boardFlight]
  cases listed : scheduler.inFlight[call.name]? with
  | none =>
      dsimp only
      rw [Array.getElem?_push_size]
      dsimp only
      refine .leads
        { cache := rfl
          tasks := rfl
          seat := ?_
          listed := ?_
          others := ?_
          unlanded := ?_ }
      · rw [adjustFlight,
          Crew.modify_eq_setIfInBounds Array.getElem?_push_size,
          Crew.setIfInBounds_push]
        exact Array.getElem?_push_size
      · simp [adjustFlight]
      · intro other apart
        simp [adjustFlight, Array.getElem?_modify, Array.getElem?_push,
          apart, Ne.symm apart]
      · intro joined there
        simp at there
  | some flight =>
      obtain ⟨joined, there, sameName, unlanded⟩ := manned.listed.mp listed
      have isThere : scheduler.flights[flight]? = some joined := there
      dsimp only
      rw [isThere]
      dsimp only
      rw [unlanded]
      cases leads : joined.leader with
      | none =>
          have alone := manned.led there leads
          dsimp only
          rw [adjustFlight, Crew.modify_eq_setIfInBounds isThere]
          refine .leads
            { cache := rfl
              tasks := rfl
              seat := ?_
              listed := listed
              others := ?_
              unlanded := ?_ }
          · rw [Crew.getElem?_setIfInBounds_self_of_found isThere, sameName,
              alone, unlanded]
          · intro other apart
            rw [Crew.getElem?_setIfInBounds_of_found isThere, if_neg apart]
          · intro again againThere
            cases isThere.symm.trans againThere
            exact unlanded
      | some leader =>
          dsimp only
          rw [adjustFlight, Crew.modify_eq_setIfInBounds isThere]
          exact .waits listed isThere leads unlanded

omit [Keyed Value] in
@[simp]
theorem flights_refreshIf (elected : Bool) :
    (scheduler.refreshIf task elected call).flights =
      scheduler.flights := by
  rw [refreshIf]
  split
  · rfl
  · rfl

variable (task call) in
omit [Keyed Value] in
theorem size_tasks_refreshIf
    (scheduler : Scheduler Value) (elected : Bool) :
    scheduler.tasks.size ≤
      (scheduler.refreshIf task elected call).tasks.size := by
  rw [refreshIf]
  split
  · simp [noteCall, spawn]
  · exact Nat.le_refl _

theorem begun_beginSingle (manned : (scheduler.crew reported).Manned)
    (found : scheduler.tasks[task]? = some (.single call)) :
    Begun settings scheduler task call
      (beginSingle settings scheduler task call) := by
  have inside := (Array.getElem?_eq_some_iff.mp found).1
  rw [beginSingle]
  cases looked : Cache.result? (Cache.lookup settings call.name)
      scheduler.cache with
  | none =>
      obtain ⟨fault, next, attempted, _⟩ := attempt_of_fault looked
      rw [attempted, eq_of_attempt attempted]
      exact .breaks fault looked rfl
        (Array.getElem?_setIfInBounds_self_of_lt inside)
  | some lookup =>
      obtain ⟨next, attempted, sameCache⟩ := attempt_of_result? looked
      rw [attempted, eq_of_attempt attempted, sameCache]
      have answered : ∀ (elected : Bool) (outcome : Except Failure Value),
          lookup.outcome? call.name = some outcome →
            Begun settings scheduler task call
              ((Scheduler.refreshIf
                { scheduler with
                  cache := Cache.final (Cache.lookup settings call.name)
                    scheduler.cache }
                task elected call).answer task (outcome.map .one)) := by
        intro elected outcome given
        refine .hits looked given ?_ ?_
        · exact flights_refreshIf elected
        · have grows := size_tasks_refreshIf task call
            { scheduler with
              cache := Cache.final (Cache.lookup settings call.name)
                scheduler.cache }
            elected
          exact Array.getElem?_setIfInBounds_self_of_lt
            (Nat.lt_of_lt_of_le inside grows)
      cases lookup with
      | absent =>
          have seated : (Scheduler.crew
              { scheduler with
                cache := Cache.final (Cache.lookup settings call.name)
                  scheduler.cache } reported).Manned := manned
          exact .misses looked (joined_join settings seated)
      | found value refresh => exact answered refresh (.ok value) rfl
      | missing refresh =>
          exact answered refresh (.error (.missingRecord call.name)) rfl

end Beginning

end Scheduler

theorem Logbook.begun_after
    {Value : Type} [Keyed Value] (settings : Settings)
    {logbook : Logbook Value} (manned : logbook.crew.Manned)
    {task : TaskId} {call : SingleCall Value}
    (unbegun : logbook.crew.tasks[task]? = some (.single call)) :
    Scheduler.Begun settings
      { logbook.scheduler with
        ready := logbook.scheduler.ready.erase task }
      task call (after settings logbook (.turn task)).scheduler := by
  have found : logbook.scheduler.tasks[task]? = some (.single call) := unbegun
  have seated : (Scheduler.crew
      { logbook.scheduler with
        ready := logbook.scheduler.ready.erase task }
      logbook.reported).Manned := manned.noting _ _
  simp only [after, Scheduler.step, found]
  exact Scheduler.begun_beginSingle settings seated found

end ReadThrough
