import ReadThrough.Settings.Written
import ReadThrough.Statistics
import ReadThrough.Task

/-!
# Answers

What a session answers to a command: results of operations on the cache,
surveys of its shards and names, and the ways in which a command ends without a
result.
-/

namespace ReadThrough

open Std (ExtTreeMap)

/-- How many of several readers saw what. -/
structure Tally where
  /-- Readers that found a live entry. -/
  found : Nat
  /-- Readers that found a missing record. -/
  missing : Nat
  /-- Readers that were elected to refresh. -/
  refreshes : Nat
  deriving DecidableEq, Repr

namespace Tally

/-- No readers so far. -/
def zero : Tally := { found := 0, missing := 0, refreshes := 0 }

/-- The tally after one more lookup. -/
def count {Value : Type} (tally : Tally) (lookup : Lookup Value) : Tally :=
  { found := tally.found + lookup.isLive.toNat
    missing := tally.missing + lookup.isMissing.toNat
    refreshes := tally.refreshes + lookup.refreshes.toNat }

end Tally

/-- Where a name is routed to and what it means there. -/
structure Location where
  name : String
  index : Nat
  binding : Option (String × List String)
  keyOfAlias : Option String
  deriving DecidableEq, Repr

/-- What can be seen of a shard from outside. -/
structure Inspection where
  index : Nat
  capacity : Nat
  size : Nat
  /-- The keys of the live entries, in order. -/
  keys : List String
  deriving DecidableEq, Repr

/-- The written form of a shard. -/
def Inspection.text
    (inspection : Inspection) (evictionPercentage : Nat) : String :=
  recordText "Shard"
    [("capacity", numberText inspection.capacity),
     ("size", numberText inspection.size),
     ("eviction_percentage", numberText evictionPercentage)]

/-- The written form of a cache: its settings and the number of registered
aliases. -/
def describe (settings : Settings) (routeCount : Nat) : String :=
  recordText "Client"
    [("config", settings.text), ("aliases", numberText routeCount)]

/-- The answer to a command. -/
inductive Answer (Value : Type) where
  /-- The command answers nothing. -/
  | nothing
  | flag (flag : Bool)
  | count (count : Nat)
  | counts (counts : List Nat)
  | duration (duration : Duration)
  | value (value : Option Value)
  | lookup (lookup : Lookup Value)
  /-- A lookup, told through its properties. -/
  | probe (lookup : Lookup Value)
  | values (values : ExtTreeMap String Value)
  /-- How many writes had to evict entries, and the number of the first. -/
  | forced (count : Nat) (first : Option Nat)
  | names (names : List String)
  | statistics (statistics : Statistics)
  | settings (settings : Settings)
  | inspection
      (shardCount evictionPercentage : Nat) (inspection : Inspection)
  | binding (binding : Option (String × List String))
  | key (key : Option String)
  | text (text : String)
  | survey
      (locations : List Location) (shards : List Inspection)
      (flightCount : Nat) (statistics : Statistics)
  | tally (tally : Tally)
  | verdict (verdict : Verdict Value)
  /-- A fault broke the command off. -/
  | fault (fault : Fault)
  /-- The command needs a handle, and the last one was dropped. -/
  | noHandle

end ReadThrough
