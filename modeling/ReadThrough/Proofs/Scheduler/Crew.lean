import ReadThrough.Scheduler.Step

/-!
# Crews

The crew of a scheduler is what its tasks share: their stages, the flights, the
flights to join, who is ready, and which fetch functions were ever called.

Whatever a step of a task does to the crew, it does in a few strokes.  A
`Stroke` says everything that the task can do at once, the conditions included:
it boards a flight, calls its fetch, lands the flight that it leads or leaves
it, learns the outcome of a landed flight, or does something that concerns no
flight.  What every stroke keeps is kept by every step.
-/

namespace ReadThrough

open Std (ExtTreeMap)

/-- What the tasks of a scheduler share. -/
structure Crew (Value : Type) where
  tasks : Array (Stage Value)
  flights : Array (Flight Value)
  inFlight : ExtTreeMap String FlightId
  ready : List TaskId
  /-- All calls of fetch functions, the oldest first. -/
  calls : List FetchCall

/-- The crew of a scheduler from which the `reported` calls were taken out. -/
def Scheduler.crew
    {Value : Type} (scheduler : Scheduler Value)
    (reported : List FetchCall) : Crew Value :=
  { tasks := scheduler.tasks
    flights := scheduler.flights
    inFlight := scheduler.inFlight
    ready := scheduler.ready
    calls := reported ++ scheduler.fetchCalls.toList }

/-- The flight that a task takes part in, and the name that is fetched. -/
def Stage.aboard? {Value : Type} : Stage Value → Option (FlightId × String)
  | .called (.complete flight call) => some (flight, call.name)
  | .asleep (.complete flight call) _ => some (flight, call.name)
  | .waiting flight call => some (flight, call.name)
  | _ => none

theorem Stage.flight?_eq_map_aboard?
    {Value : Type} (stage : Stage Value) :
    stage.flight? = stage.aboard?.map Prod.fst := by
  match stage with
  | .single _ => rfl
  | .batch _ => rfl
  | .called errand => cases errand <;> rfl
  | .asleep errand _ => cases errand <;> rfl
  | .waiting _ _ => rfl
  | .over _ => rfl

@[simp]
theorem Stage.aboard?_called_eq_none_iff
    {Value : Type} {errand : Errand Value} :
    (Stage.called errand).aboard? = none ↔ errand.flight? = none := by
  have same := Stage.flight?_eq_map_aboard? (.called errand)
  rw [Stage.flight?] at same
  rw [same, Option.map_eq_none_iff]

theorem Stage.ashore_of_isUnbegun
    {Value : Type} {stage : Stage Value} (unbegun : stage.isUnbegun = true) :
    stage.aboard? = none := by
  cases stage with
  | single call => rfl
  | batch call => rfl
  | called errand => cases unbegun
  | asleep errand wakeAt => cases unbegun
  | waiting flight call => cases unbegun
  | «over» verdict => cases unbegun

theorem Stage.isOver_of_isUnbegun
    {Value : Type} {stage : Stage Value} (unbegun : stage.isUnbegun = true) :
    stage.isOver = false := by
  cases stage with
  | «over» verdict => cases unbegun
  | _ => rfl

namespace Flight

variable {Value : Type}

/-- The tasks that take part in a flight. -/
def members (flight : Flight Value) : List TaskId :=
  flight.leader.toList ++ flight.waiting

/-- The flight after its leader has left: the first who waits leads. -/
def handedOver (flight : Flight Value) : Flight Value :=
  { flight with
    leader := flight.waiting.head?
    waiting := flight.waiting.tail }

/-- The flight after it has landed. -/
def landedWith
    (flight : Flight Value) (outcome : Except Failure Value) :
    Flight Value :=
  { flight with leader := none, waiting := [], outcome := some outcome }

@[simp]
theorem mem_members {flight : Flight Value} {task : TaskId} :
    task ∈ flight.members ↔
      flight.leader = some task ∨ task ∈ flight.waiting := by
  simp [Flight.members]

end Flight

namespace Crew

variable {Value : Type}

/-- Put a task into a stage. -/
def put (crew : Crew Value) (task : TaskId) (stage : Stage Value) :
    Crew Value :=
  { crew with tasks := crew.tasks.setIfInBounds task stage }

/-- Put a changed flight in its place. -/
def seat (crew : Crew Value) (flight : FlightId) (changed : Flight Value) :
    Crew Value :=
  { crew with flights := crew.flights.setIfInBounds flight changed }

/-- Land a flight that a task leads: the task ends with the outcome, and
everybody who waits can go on. -/
def land
    (crew : Crew Value) (task : TaskId) (flight : FlightId)
    (landing : Flight Value) (outcome : Except Failure Value) : Crew Value :=
  { (crew.put task (.over (.returned (outcome.map .one)))).seat flight
      (landing.landedWith outcome) with
    inFlight := crew.inFlight.erase landing.name
    ready := crew.ready ++ landing.waiting }

/-- Leave a flight that a task leads: the task ends, and the first who waits
can go on in its place. -/
def leave
    (crew : Crew Value) (task : TaskId) (flight : FlightId)
    (left : Flight Value) (verdict : Verdict Value) : Crew Value :=
  { (crew.put task (.over verdict)).seat flight left.handedOver with
    ready := crew.ready ++ left.waiting.head?.toList }

/-- Note that a fetch function was called. -/
def note (crew : Crew Value) (call : FetchCall) : Crew Value :=
  { crew with calls := crew.calls ++ [call] }

/-- Add a task that is ready. -/
def spawn (crew : Crew Value) (stage : Stage Value) : Crew Value :=
  { crew with
    tasks := crew.tasks.push stage
    ready := crew.ready ++ [crew.tasks.size] }

@[simp]
theorem put_put (crew : Crew Value) (task : TaskId)
    (first second : Stage Value) :
    (crew.put task first).put task second = crew.put task second := by
  simp [put]

@[simp]
theorem land_put
    (crew : Crew Value) (task : TaskId) (stage : Stage Value)
    (flight : FlightId) (landing : Flight Value)
    (outcome : Except Failure Value) :
    (crew.put task stage).land task flight landing outcome =
      crew.land task flight landing outcome := by
  simp [land, put]

@[simp]
theorem leave_put
    (crew : Crew Value) (task : TaskId) (stage : Stage Value)
    (flight : FlightId) (left : Flight Value) (verdict : Verdict Value) :
    (crew.put task stage).leave task flight left verdict =
      crew.leave task flight left verdict := by
  simp [leave, put]

theorem getElem?_setIfInBounds_of_found
    {Item : Type} {items : Array Item} {index : Nat} {old : Item}
    (found : items[index]? = some old) (new : Item) (other : Nat) :
    (items.setIfInBounds index new)[other]? =
      if other = index then some new else items[other]? := by
  have inside : index < items.size :=
    (Array.getElem?_eq_some_iff.mp found).1
  rw [Array.getElem?_setIfInBounds]
  by_cases same : other = index
  · simp [same, inside]
  · simp [same, Ne.symm same]

theorem getElem?_setIfInBounds_self_of_found
    {Item : Type} {items : Array Item} {index : Nat} {old : Item}
    (found : items[index]? = some old) (new : Item) :
    (items.setIfInBounds index new)[index]? = some new := by
  rw [getElem?_setIfInBounds_of_found found, if_pos rfl]

theorem getElem?_push_of_found
    {Item : Type} {items : Array Item} {index : Nat} {item : Item}
    (found : items[index]? = some item) (last : Item) :
    (items.push last)[index]? = some item := by
  have inside := (Array.getElem?_eq_some_iff.mp found).1
  rw [Array.getElem?_push, if_neg (Nat.ne_of_lt inside), found]

/-- What a task can do to the crew at once. -/
inductive Stroke (task : TaskId) (crew : Crew Value) : Crew Value → Prop
  /-- It calls a fetch for a batch. -/
  | notes (labels : List String) :
      Stroke task crew (crew.note (.many task labels))
  /-- It goes on outside of any flight. -/
  | settles {stage next : Stage Value}
      (found : crew.tasks[task]? = some stage)
      (running : stage.isOver = false)
      (ashore : stage.aboard? = none) (stays : next.aboard? = none)
      (begun : next.isUnbegun = false) :
      Stroke task crew (crew.put task next)
  /-- It calls a fetch and hands it over to a new task in the background. -/
  | delegates {stage next : Stage Value} {errand : Errand Value}
      {call : FetchCall}
      (found : crew.tasks[task]? = some stage)
      (unbegun : stage.isUnbegun = true) (stays : next.aboard? = none)
      (begun : next.isUnbegun = false) (free : errand.flight? = none)
      (own : ∀ caller name, call = .one caller name → caller = task) :
      Stroke task crew
        (((crew.note call).spawn (.called errand)).put task next)
  /-- It opens a flight and leads it. -/
  | opens {call : SingleCall Value}
      (found : crew.tasks[task]? = some (.single call))
      (vacant : crew.inFlight[call.name]? = none) :
      Stroke task crew
        { crew.put task (.waiting crew.flights.size call) with
          flights := crew.flights.push
            { name := call.name, leader := some task, waiting := [],
              outcome := none }
          inFlight := crew.inFlight.insert call.name crew.flights.size }
  /-- It leads a flight that nobody led. -/
  | takes {call : SingleCall Value} {flight : FlightId}
      {joined : Flight Value}
      (found : crew.tasks[task]? = some (.single call))
      (listed : crew.inFlight[call.name]? = some flight)
      (there : crew.flights[flight]? = some joined)
      (free : joined.leader = none) :
      Stroke task crew
        ((crew.put task (.waiting flight call)).seat flight
          { joined with leader := some task })
  /-- It waits for the leader of a flight. -/
  | joins {call : SingleCall Value} {flight : FlightId}
      {joined : Flight Value} {leader : TaskId}
      (found : crew.tasks[task]? = some (.single call))
      (listed : crew.inFlight[call.name]? = some flight)
      (there : crew.flights[flight]? = some joined)
      (led : joined.leader = some leader) :
      Stroke task crew
        ((crew.put task (.waiting flight call)).seat flight
          { joined with waiting := joined.waiting ++ [task] })
  /-- It calls its fetch for the flight that it leads. -/
  | fetches {call : SingleCall Value} {flight : FlightId}
      {joined : Flight Value} {wakeAt : Nat}
      (found : crew.tasks[task]? = some (.waiting flight call))
      (there : crew.flights[flight]? = some joined)
      (leads : joined.leader = some task) :
      Stroke task crew
        ((crew.note (.one task call.name)).put task
          (.asleep (.complete flight call) wakeAt))
  /-- It lands the flight that it leads. -/
  | lands {stage : Stage Value} {flight : FlightId} {name : String}
      {joined : Flight Value} (outcome : Except Failure Value)
      (found : crew.tasks[task]? = some stage)
      (aboard : stage.aboard? = some (flight, name))
      (there : crew.flights[flight]? = some joined)
      (leads : joined.leader = some task) :
      Stroke task crew (crew.land task flight joined outcome)
  /-- It leaves the flight that it leads, and the first who waits leads. -/
  | leaves {stage : Stage Value} {flight : FlightId} {name : String}
      {joined : Flight Value} (verdict : Verdict Value)
      (unanswered : ∀ result, verdict ≠ .returned result)
      (found : crew.tasks[task]? = some stage)
      (aboard : stage.aboard? = some (flight, name))
      (there : crew.flights[flight]? = some joined)
      (leads : joined.leader = some task) :
      Stroke task crew (crew.leave task flight joined verdict)
  /-- It waits no longer. -/
  | quits {call : SingleCall Value} {flight : FlightId}
      {joined : Flight Value}
      (found : crew.tasks[task]? = some (.waiting flight call))
      (there : crew.flights[flight]? = some joined)
      (follows : joined.leader ≠ some task) :
      Stroke task crew
        ((crew.put task (.over .cancelled)).seat flight
          { joined with waiting := joined.waiting.filter (· ≠ task) })
  /-- It learns the outcome of the flight that it waited for. -/
  | learns {call : SingleCall Value} {flight : FlightId}
      {joined : Flight Value} {outcome : Except Failure Value}
      (found : crew.tasks[task]? = some (.waiting flight call))
      (there : crew.flights[flight]? = some joined)
      (landed : joined.outcome = some outcome) :
      Stroke task crew
        (crew.put task (.over (.returned (outcome.map .one))))

end Crew

end ReadThrough
