import ReadThrough.Scheduler

/-!
# Flights

Calls of one name that miss at the same time share a flight.  A call boards the
flight of its name or opens a new one.  The first to board leads.  When a flight
lands, everybody who waits for it goes on; when its leader leaves it, the first
who waits leads in its place.
-/

namespace ReadThrough.Scheduler

variable {Value : Type}

/-- Change a flight. -/
def adjustFlight
    (scheduler : Scheduler Value) (flight : FlightId)
    (change : Flight Value → Flight Value) : Scheduler Value :=
  { scheduler with flights := scheduler.flights.modify flight change }

/-- The flight to join for a name; a new one without leader if there is none. -/
def boardFlight (scheduler : Scheduler Value) (name : String) :
    FlightId × Scheduler Value :=
  match scheduler.inFlight[name]? with
  | some flight => (flight, scheduler)
  | none =>
      let flight := scheduler.flights.size
      (flight, { scheduler with
        flights := scheduler.flights.push
          { name, leader := none, waiting := [], outcome := none }
        inFlight := scheduler.inFlight.insert name flight })

/-- Let no further call join a flight. -/
def closeFlight
    (scheduler : Scheduler Value) (flight : FlightId) (name : String) :
    Scheduler Value :=
  if scheduler.inFlight[name]? = some flight then
    { scheduler with inFlight := scheduler.inFlight.erase name }
  else
    scheduler

/-- Complete a flight: everybody who waits for it becomes ready. -/
def landFlight
    (scheduler : Scheduler Value) (flight : FlightId)
    (outcome : Except Failure Value) : Scheduler Value :=
  match scheduler.flights[flight]? with
  | none => scheduler
  | some landing =>
      { scheduler with
        flights := scheduler.flights.setIfInBounds flight
          { landing with
            leader := none, waiting := [], outcome := some outcome }
        ready := scheduler.ready ++ landing.waiting }

/-- Hand a flight over to the first task that waits for it. -/
def handOver (scheduler : Scheduler Value) (flight : FlightId) :
    Scheduler Value :=
  match scheduler.flights[flight]? with
  | none => scheduler
  | some abandoned =>
      match abandoned.waiting with
      | [] =>
          { scheduler with
            flights := scheduler.flights.setIfInBounds flight
              { abandoned with leader := none } }
      | next :: rest =>
          { scheduler with
            flights := scheduler.flights.setIfInBounds flight
              { abandoned with leader := some next, waiting := rest }
            ready := scheduler.ready ++ [next] }

/-- Take a task out of a flight.  A leader hands the flight over. -/
def leaveFlight
    (scheduler : Scheduler Value) (task : TaskId) (flight : FlightId) :
    Scheduler Value :=
  match scheduler.flights[flight]? with
  | none => scheduler
  | some left =>
      if left.leader = some task then
        scheduler.handOver flight
      else
        scheduler.adjustFlight flight fun flight =>
          { flight with waiting := flight.waiting.filter (· ≠ task) }

end ReadThrough.Scheduler
