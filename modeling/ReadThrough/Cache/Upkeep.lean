import ReadThrough.Cache
import ReadThrough.Shard.Election
import ReadThrough.Shard.Eviction

/-!
# Upkeep of a cache

Sweeping a shard removes its expired entries.  The other operations of this
module take stock of the whole cache without changing an entry.
-/

namespace ReadThrough.Cache

variable {Value : Type}

/-- Remove the expired entries of a shard.  The answer is their number. -/
def sweep (index : Nat) : Action Value Nat := do
  let shard ← shardAt index
  let now ← readClock
  let expired := shard.expiredKeys now
  putShard index (shard.eraseAll expired)
  if expired ≠ [] then
    record (.evicted expired.length)
  return expired.length

/-- The keys of the live entries of a shard. -/
def keysOf (index : Nat) : Action Value (List String) := do
  let shard ← shardAt index
  return shard.liveKeys (← readClock)

/-- The keys of the live entries of all shards, shard by shard. -/
def keys : Action Value (List String) := do
  let cache ← get
  (List.range cache.shards.size).foldlM
    (fun found index => return found ++ (← keysOf index)) []

/-- Number of stored entries, expired ones included. -/
def size (cache : Cache Value) : Nat :=
  cache.shards.toList.foldr (fun shard total => shard.size + total) 0

/-- The statistics of the cache. -/
def statistics (cache : Cache Value) : Statistics :=
  { counters := cache.counters, totalEntries := cache.size }

/-- The key and the aliases of the entry that a name leads to in a shard. -/
def bindingIn (index : Nat) (name : String) :
    Action Value (Option (String × List String)) := do
  return (← shardAt index).binding name

/-- The key that an alias is bound to in a shard. -/
def keyOfAliasIn (index : Nat) (name : String) :
    Action Value (Option String) := do
  return (← shardAt index).keyOfAlias[name]?

end ReadThrough.Cache
