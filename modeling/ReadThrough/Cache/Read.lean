import ReadThrough.Cache
import ReadThrough.Shard.Election

/-!
# Reading from a cache

A lookup routes the name, reads its shard and counts what it found.  All other
reads that take part in elections are made of lookups.
-/

namespace ReadThrough

/-- A record that a caller wants, by a label of the caller's own. -/
structure Request where
  /-- What the caller calls the record. -/
  label : String
  /-- The name of the record in the cache. -/
  name : String
  deriving DecidableEq, Repr

namespace Cache

open Std (ExtTreeMap)

variable {Value : Type}

/-- Read a name from a shard.  The clock is read once, and once more if the
entry turns out to be due. -/
def getFrom (settings : Settings) (index : Nat) (name : String) :
    Action Value (Lookup Value) := do
  let shard ← shardAt index
  let first ← readClock
  match shard.glance name first with
  | some lookup => return lookup
  | none =>
      let second ← readClock
      let (lookup, elected) := shard.elect settings.refresh name second
      putShard index elected
      return lookup

/-- Count a lookup. -/
def recordLookup (lookup : Lookup Value) : Action Value Unit := do
  match lookup with
  | .absent => record .miss
  | .found _ _ => record .hit
  | .missing _ => record .missingHit
  if lookup.refreshes then
    record .refresh

/-- Read a name and learn everything about its entry. -/
def lookup (settings : Settings) (name : String) :
    Action Value (Lookup Value) := do
  let index ← shardIndex name
  let lookup ← getFrom settings index name
  recordLookup lookup
  return lookup

/-- The live value under a name. -/
def get? (settings : Settings) (name : String) :
    Action Value (Option Value) := do
  return (← lookup settings name).value?

/-- The live values of requested records, by label.  Records without a value are
left out. -/
def getManyBy (settings : Settings) (requests : List Request) :
    Action Value (ExtTreeMap String Value) :=
  requests.foldlM
    (fun values request => do
      match ← get? settings request.name with
      | some value => return values.insert request.label value
      | none => return values) ∅

/-- The live values under names, by name. -/
def getMany (settings : Settings) (names : List String) :
    Action Value (ExtTreeMap String Value) :=
  getManyBy settings (names.map fun name => { label := name, name })

/-- Read a name without taking part in an election and without being counted.
The clock is read only when the name leads to an entry. -/
def peek (name : String) : Action Value (Lookup Value) := do
  let index ← shardIndex name
  let shard ← shardAt index
  if (shard.resolve name).isSome then
    return shard.peek name (← readClock)
  else
    return .absent

end Cache

end ReadThrough
