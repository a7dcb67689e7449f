import ReadThrough.Fetch.Store

/-!
# Tasks

A task is a call that reads through the cache, or a refresh in the background.
Between two steps of its own it is in a stage: not begun, asleep until a fetch
ends, waiting for somebody else's fetch, or over.
-/

namespace ReadThrough

open Std (ExtTreeMap)

/-- Number of a task, in the order of creation. -/
abbrev TaskId := Nat

/-- Number of a flight, in the order of creation. -/
abbrev FlightId := Nat

/-- A call of the fetch function of a task. -/
inductive FetchCall where
  /-- A call for one name. -/
  | one (caller : TaskId) (name : String)
  /-- A call for several records. -/
  | many (caller : TaskId) (labels : List String)
  deriving DecidableEq, Repr

/-- A call that reads one name through the cache. -/
structure SingleCall (Value : Type) where
  name : String
  storing : Storing
  plan : Plan Value

/-- A call that reads several records through the cache. -/
structure BatchCall (Value : Type) where
  requests : List Request
  storing : Storing
  /-- The courses of the first, second, … fetch of the call; the last one is
  also that of every further fetch. -/
  plans : List (Plan (ExtTreeMap String Value))

/-- What a task does when the fetch it waits for is over. -/
inductive Errand (Value : Type) where
  /-- Complete the flight that it leads. -/
  | complete (flight : FlightId) (call : SingleCall Value)
  /-- Replace an entry. -/
  | refresh (call : SingleCall Value)
  /-- Store the response for the misses and answer it with the values found
  before. -/
  | collect
      (found : ExtTreeMap String Value) (misses : List Request)
      (storing : Storing) (plan : Plan (ExtTreeMap String Value))
  /-- Replace the entries of the requests. -/
  | refreshMany
      (requests : List Request)
      (storing : Storing) (plan : Plan (ExtTreeMap String Value))

/-- What a call answers. -/
inductive Reply (Value : Type) where
  | one (value : Value)
  | many (values : ExtTreeMap String Value)

/-- How a task ended. -/
inductive Verdict (Value : Type) where
  /-- It came to its end. -/
  | returned (result : Except Failure (Reply Value))
  /-- A fault broke it off. -/
  | broken (fault : Fault)
  /-- It was aborted. -/
  | cancelled

/-- How far a task has come. -/
inductive Stage (Value : Type) where
  /-- The call of one name has not begun. -/
  | single (call : SingleCall Value)
  /-- The call of a batch has not begun. -/
  | batch (call : BatchCall Value)
  /-- The fetch has been called, but nobody waits for it yet. -/
  | called (errand : Errand Value)
  /-- The task waits for its fetch until a time. -/
  | asleep (errand : Errand Value) (wakeAt : Nat)
  /-- The task waits for the leader of a flight. -/
  | waiting (flight : FlightId) (call : SingleCall Value)
  /-- The task has ended. -/
  | over (verdict : Verdict Value)

namespace BatchCall

/-- A fetch without result, for a call without plans. -/
def idlePlan {Value : Type} : Plan (ExtTreeMap String Value) :=
  { delay := 0, advance := 0, ending := .returns ∅ }

/-- The course of the fetch with a number, counted from zero. -/
def planAt {Value : Type} (call : BatchCall Value) (number : Nat) :
    Plan (ExtTreeMap String Value) :=
  (call.plans[number]?).getD (call.plans.getLastD idlePlan)

end BatchCall

namespace Errand

variable {Value : Type}

/-- Milliseconds that the fetch takes. -/
def delay : Errand Value → Nat
  | .complete _ call => call.plan.wait
  | .refresh call => call.plan.wait
  | .collect _ _ _ plan => plan.wait
  | .refreshMany _ _ plan => plan.wait

/-- The flight that the task leads. -/
def flight? : Errand Value → Option FlightId
  | .complete flight _ => some flight
  | _ => none

end Errand

namespace Stage

variable {Value : Type}

/-- Whether the task has ended. -/
def isOver : Stage Value → Bool
  | .over _ => true
  | _ => false

/-- Whether the task is a call that has not begun. -/
def isUnbegun : Stage Value → Bool
  | .single _ => true
  | .batch _ => true
  | _ => false

/-- The flight that the task takes part in. -/
def flight? : Stage Value → Option FlightId
  | .called errand => errand.flight?
  | .asleep errand _ => errand.flight?
  | .waiting flight _ => some flight
  | _ => none

/-- The time at which the task wants to go on. -/
def wakeAt? : Stage Value → Option Nat
  | .asleep _ wakeAt => some wakeAt
  | _ => none

/-- Milliseconds for which the task's own fetches can still hold it up. -/
def remainingDelay (time : Nat) : Stage Value → Nat
  | .single call => call.plan.wait
  | .batch call => call.plans.foldr (fun plan total => plan.wait + total) 0
  | .called errand => errand.delay
  | .asleep _ wakeAt => wakeAt - time
  | .waiting _ call => call.plan.wait
  | .over _ => 0

end Stage

end ReadThrough
