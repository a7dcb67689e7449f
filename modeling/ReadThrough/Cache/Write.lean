import ReadThrough.Cache
import ReadThrough.Shard.Eviction

/-!
# Writing to a cache

A write registers its aliases on the shard of its key, makes room if the shard
is full, and stores the entry with deadlines from one reading of the clock.

An alias is registered on one shard for good, and belongs to one key of that
shard as long as it is bound there.  A write whose alias is registered on
another shard or bound to another key ends in a fault.
-/

namespace ReadThrough

/-- Values that know the key and the aliases they are stored under. -/
class Keyed (Value : Type) where
  /-- The key of a value. -/
  key : Value → String
  /-- The aliases of a value. -/
  aliases : Value → List String

namespace Cache

variable {Value : Type}

/-! ## Aliases -/

/-- Register an alias of a key on the key's shard. -/
def registerAlias (key : String) (index : Nat) (name : String) :
    Action Value Unit := do
  let cache ← get
  match cache.routes[name]? with
  | some owner =>
      if owner ≠ index then
        throw (.aliasInOtherShard name)
  | none =>
      set { cache with routes := cache.routes.insert name index }
  let shard ← shardAt index
  if (shard.keyOfAlias[name]?).any (· ≠ key) then
    throw (.aliasOfOtherKey name)

/-- Register the aliases of a key one after the other; the key itself is no
alias. -/
def registerAliases (key : String) (index : Nat) (aliases : List String) :
    Action Value Unit :=
  (aliases.filter (· ≠ key)).forM (registerAlias key index)

/-- A shard stores no entry with an alias that it binds to another key. -/
def checkAliases (key : String) (index : Nat) (aliases : List String) :
    Action Value Unit := do
  let shard ← shardAt index
  (shard.foreignAlias? key aliases).forM fun taken =>
    throw (.aliasOnKey taken.1 taken.2)

/-! ## Storing -/

/-- The refresh time of an entry written at an instant: the earliest time of
the window and a random padding below its width. -/
def drawRefreshTime
    (refresh : Option RefreshWindow) (index : Nat) (now : Instant) :
    Action Value (Option Instant) := do
  match refresh with
  | none => return none
  | some window =>
      let shard ← shardAt index
      let (padding, drawn) :=
        shard.takePadding (window.latest - window.earliest)
      putShard index drawn
      if Duration.longest < window.earliest + padding then
        throw .durationOverflow
      return some (deadline now (window.earliest + padding))

/-- Write to a shard that has checked the aliases.  The answer tells whether
entries had to be evicted.  A full shard drops the write when the share to evict
is zero. -/
def writeTo
    (settings : Settings) (index : Nat) (key : String)
    (value : Option Value) (aliases : List String) : Action Value Bool := do
  let shard ← shardAt index
  let full := shard.isFullFor key
  if full ∧ settings.evictionPercentage = 0 then
    return false
  let victims :=
    if full then shard.victims settings.evictionPercentage else []
  putShard index (shard.eraseAll victims)
  let now ← readClock
  let refreshAt ← drawRefreshTime settings.refresh index now
  let roomy ← shardAt index
  let entry :=
    Entry.fresh key value (deadline now settings.timeToLive) refreshAt
  putShard index (roomy.upsert entry aliases)
  if full then
    record .forcedEviction
    if victims ≠ [] then
      record (.evicted victims.length)
  return full

/-- Write a value, or a missing record, under a key with aliases. -/
def write
    (settings : Settings) (key : String)
    (value : Option Value) (aliases : List String) : Action Value Bool := do
  let index ← shardIndex key
  registerAliases key index aliases
  checkAliases key index aliases
  writeTo settings index key value aliases

/-- Write a value under a key. -/
def insert (settings : Settings) (key : String) (value : Value) :
    Action Value Bool :=
  write settings key (some value) []

/-- Write a value under the key and aliases it knows. -/
def insertKeyed [Keyed Value] (settings : Settings) (value : Value) :
    Action Value Bool :=
  write settings (Keyed.key value) (some value) (Keyed.aliases value)

/-- Record that there is nothing to store under a key. -/
def insertMissing (settings : Settings) (key : String) :
    Action Value Bool :=
  write settings key none []

/-- Carry out writes one after the other.  The answer tells whether any of them
had to evict entries. -/
def writeAll (writes : List (Action Value Bool)) : Action Value Bool :=
  writes.foldlM (fun evicted write => return (← write) || evicted) false

/-- Remove the entry that a name leads to.  The answer tells whether there was
one. -/
def delete (name : String) : Action Value Bool := do
  let index ← shardIndex name
  let shard ← shardAt index
  let (existed, rest) := shard.delete name
  putShard index rest
  return existed

end Cache

end ReadThrough
