import ReadThrough.Settings
import ReadThrough.Shard
import ReadThrough.Statistics
import ReadThrough.Xxh3

/-!
# The cache

A cache consists of shards and of the registry that routes aliases to them.
Every name is routed to one shard: a registered alias to the shard it was
registered on, any other name by its hash.

Operations are actions on the cache.  An action that ends in a fault leaves the
cache as it was at that moment.
-/

namespace ReadThrough

open Std (ExtTreeMap)

/-- The state of a cache. -/
structure Cache (Value : Type) where
  /-- The shards, in the order of routing. -/
  shards : Array (Shard Value)
  /-- The shard of every alias that was ever registered. -/
  routes : ExtTreeMap String Nat
  /-- What has been counted. -/
  counters : Counters
  /-- The clock that decides on expiry and refresh. -/
  clock : Clock
  /-- The events since the journal was last emptied, the oldest first. -/
  journal : Array Event

namespace Cache

variable {Value Result : Type}

/-- An operation on a cache. -/
abbrev Action (Value : Type) : Type → Type :=
  EStateM Fault (Cache Value)

/-- A cache without entries.  `paddings` are the random numbers that the writes
to each shard will draw. -/
def empty (settings : Settings) (paddings : Nat → List Nat) : Cache Value :=
  { shards :=
      Array.ofFn fun index : Fin settings.shardCount =>
        Shard.empty settings.shardCapacity (paddings index)
    routes := ∅
    counters := .zero
    clock := .start settings.timeSource
    journal := #[] }

/-! ## Elementary actions -/

/-- End in a fault unless there is a result. -/
def demand (outcome : Except Fault Result) : Action Value Result :=
  match outcome with
  | .ok result => pure result
  | .error fault => throw fault

/-- Note an event and count it. -/
def record (event : Event) : Action Value Unit :=
  modify fun cache => { cache with
    counters := cache.counters.count event
    journal := cache.journal.push event }

/-- Take a reading of the clock. -/
def readClock : Action Value Instant := do
  let cache ← get
  let (outcome, clock) := cache.clock.read
  set { cache with clock }
  demand outcome

/-- Let the clock move on. -/
def advanceClock (duration : Duration) : Action Value Unit := do
  let cache ← get
  let clock ← demand (cache.clock.advance duration)
  set { cache with clock }

/-- The shard at an index. -/
def shardAt (index : Nat) : Action Value (Shard Value) := do
  let cache ← get
  match cache.shards[index]? with
  | some shard => pure shard
  | none => throw (.shardOutOfRange cache.shards.size index)

/-- Put a changed shard in its place. -/
def putShard (index : Nat) (shard : Shard Value) : Action Value Unit :=
  modify fun cache =>
    { cache with shards := cache.shards.setIfInBounds index shard }

/-! ## Routing -/

/-- The shard that a name is routed to. -/
def route (cache : Cache Value) (name : String) : Nat :=
  (cache.routes[name]?).getD
    ((Xxh3.hashText name).toNat % cache.shards.size)

/-- Route a name to its shard, and note it. -/
def shardIndex (name : String) : Action Value Nat := do
  let cache ← get
  if cache.shards.isEmpty ∧ name ∉ cache.routes then
    throw .noShards
  let index := cache.route name
  record (.routed index)
  return index

end Cache

end ReadThrough
