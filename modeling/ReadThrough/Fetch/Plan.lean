import ReadThrough.Cache

/-!
# Fetches

A fetch obtains a record from outside the cache.  Its plan says how long it
takes, how far the clock of the cache moves meanwhile, and how it ends: with a
result, with a failure, or by breaking off.
-/

namespace ReadThrough

/-- How a fetch ends. -/
inductive Ending (Result : Type) where
  | returns (result : Result)
  | fails (failure : Failure)
  | breaks (text : String)

/-- The course of a fetch. -/
structure Plan (Result : Type) where
  /-- Milliseconds for which the caller is to wait. -/
  delay : Nat
  /-- How far the clock of the cache moves after the delay. -/
  advance : Duration
  /-- How the fetch ends. -/
  ending : Ending Result

/-- Milliseconds for which the caller does wait. -/
def Plan.wait {Result : Type} (plan : Plan Result) : Nat :=
  Wait.length plan.delay

/-- How a fetched value is stored. -/
inductive Storing where
  /-- Under the key that the requested name stands for. -/
  | byName
  /-- Under the key that the value knows, with the requested name as one of its
  aliases. -/
  | byOwnKey
  deriving DecidableEq, Repr

/-- What happens when the delay of a fetch is over. -/
def Plan.play {Value Result : Type} (plan : Plan Result) :
    Cache.Action Value (Except Failure Result) := do
  Cache.advanceClock plan.advance
  match plan.ending with
  | .returns result => return .ok result
  | .fails failure => return .error failure
  | .breaks text => throw (.crash text)

end ReadThrough
