/-!
# Events and statistics

Everything that happens in a cache and concerns its statistics is an event.
Counters of 64 bits add the events up and start again at zero when they run
over.  Routing a name to a shard is an event, but it is not counted.
-/

namespace ReadThrough

/-- What a listener is told. -/
inductive Event where
  /-- A read found a live value. -/
  | hit
  /-- A read found no live entry. -/
  | miss
  /-- A read found a live missing record. -/
  | missingHit
  /-- A reader was elected to refresh. -/
  | refresh
  /-- A write had to evict entries. -/
  | forcedEviction
  /-- A number of entries was evicted or swept. -/
  | evicted (count : Nat)
  /-- A name was routed to a shard. -/
  | routed (shard : Nat)
  deriving DecidableEq, Repr

/-- The written form of an event. -/
def Event.text : Event → String
  | .hit => "hit"
  | .miss => "miss"
  | .missingHit => "missing"
  | .refresh => "refresh"
  | .forcedEviction => "forced"
  | .evicted count => "evicted:" ++ toString count
  | .routed shard => "shard:" ++ toString shard

/-- Counters of the events of a cache. -/
structure Counters where
  hits : UInt64
  misses : UInt64
  missingHits : UInt64
  refreshes : UInt64
  forcedEvictions : UInt64
  evictions : UInt64
  deriving DecidableEq, Repr

namespace Counters

/-- No events so far. -/
def zero : Counters :=
  { hits := 0, misses := 0, missingHits := 0, refreshes := 0,
    forcedEvictions := 0, evictions := 0 }

/-- The counters after an event. -/
def count (counters : Counters) : Event → Counters
  | .hit => { counters with hits := counters.hits + 1 }
  | .miss => { counters with misses := counters.misses + 1 }
  | .missingHit => { counters with missingHits := counters.missingHits + 1 }
  | .refresh => { counters with refreshes := counters.refreshes + 1 }
  | .forcedEviction =>
      { counters with forcedEvictions := counters.forcedEvictions + 1 }
  | .evicted number =>
      { counters with evictions := counters.evictions + number.toUInt64 }
  | .routed _ => counters

end Counters

/-- Counters together with the number of stored entries. -/
structure Statistics where
  counters : Counters
  totalEntries : Nat
  deriving DecidableEq, Repr

/-- The share of reads that were answered from the cache, missing records
included; zero before the first read. -/
def Statistics.hitRate (statistics : Statistics) : Float :=
  let answered :=
    statistics.counters.hits + statistics.counters.missingHits
  let reads := answered + statistics.counters.misses
  if reads = 0 then 0 else answered.toFloat / reads.toFloat

end ReadThrough
