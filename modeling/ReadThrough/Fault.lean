/-!
# Faults

A fault breaks an operation off in the middle: what it changed before stays
changed.  Faults are no results.  They report a caller's inconsistent aliases,
a clock that has run out of representable instants, arithmetic without a
result, or a fetch function that broke off itself.
-/

namespace ReadThrough

/-- The causes that break an operation off. -/
inductive Fault where
  /-- The alias is registered on a shard other than the written key's. -/
  | aliasInOtherShard (taken : String)
  /-- The alias is bound to another key of the written key's shard. -/
  | aliasOfOtherKey (taken : String)
  /-- A shard is to store an entry with an alias that is bound to another of its
  keys. -/
  | aliasOnKey (taken owner : String)
  /-- The clock stands at an instant that cannot be represented. -/
  | instantOverflow
  /-- The sum of two durations is longer than the longest duration. -/
  | durationOverflow
  /-- A duration was divided by zero. -/
  | durationDividedByZero
  /-- There is no shard to spread names over. -/
  | noShards
  /-- There is no shard at the index. -/
  | shardOutOfRange (count index : Nat)
  /-- A fetch function broke off with a text of its own. -/
  | crash (text : String)
  deriving DecidableEq, Repr

namespace Fault

/-- The text that reports a fault. -/
def message : Fault → String
  | .aliasInOtherShard taken =>
      "alias '" ++ taken ++ "' already exists in a different shard"
  | .aliasOfOtherKey taken =>
      "alias '" ++ taken ++ "' already exists for a different key"
  | .aliasOnKey taken owner =>
      "alias '" ++ taken ++ "' already exists on key '" ++ owner ++ "'"
  | .instantOverflow => "overflow when adding duration to instant"
  | .durationOverflow => "overflow when adding durations"
  | .durationDividedByZero =>
      "divide by zero error when dividing duration by scalar"
  | .noShards =>
      "attempt to calculate the remainder with a divisor of zero"
  | .shardOutOfRange count index =>
      "index out of bounds: the len is " ++ toString count ++
        " but the index is " ++ toString index
  | .crash text => text

/-- A fault that refuses to register an alias, because it is wanted for two keys
or on two shards. -/
def IsAliasConflict : Fault → Prop
  | .aliasInOtherShard _ => True
  | .aliasOfOtherKey _ => True
  | _ => False

end Fault

end ReadThrough
