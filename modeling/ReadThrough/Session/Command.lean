import ReadThrough.Task

/-!
# Commands

What a caller can ask of a cache, of its clock, of the calls that were started
on it, and of the passage of time.
-/

namespace ReadThrough

/-- What a caller can ask of a cache. -/
inductive Command (Value : Type) where
  /-- Move the clock of the cache. -/
  | advance (duration : Duration)
  /-- The elapsed time of the clock. -/
  | now
  /-- Lay readings of the clock down. -/
  | layDown (readings : List Instant)
  /-- Put a further handle aside. -/
  | clone
  /-- Drop the handle and go on with the one put aside last. -/
  | drop
  | get (name : String)
  | lookup (name : String)
  | probe (name : String)
  | getMany (names : List String)
  /-- Read the names of labels. -/
  | getManyBy (requests : List Request)
  | insert (key : String) (value : Value)
  | insertAliased (key : String) (value : Value) (aliases : List String)
  | insertKeyed (value : Value)
  | insertMissing (key : String)
  | insertMany (records : List (String × Value))
  | insertManyKeyed (values : List Value)
  /-- Write records, and move the clock after each of them. -/
  | insertPaced (records : List (String × Value)) (pace : Duration)
  | delete (name : String)
  | keys
  | size
  | statistics
  | flightCount
  | settings
  | route (name : String)
  | routeMany (names : List String)
  /-- Read from a shard without counting. -/
  | getFrom (shard : Nat) (name : String)
  | inspect (shard : Nat)
  | binding (shard : Nat) (name : String)
  | keyOfAlias (shard : Nat) (name : String)
  | routeCount
  | describe
  | survey (names : List String)
  /-- Look a name up from several readers at once. -/
  | race (name : String) (readers : Nat)
  | fetch (call : SingleCall Value)
  | fetchMany (call : BatchCall Value)
  /-- Start a call under a name of its own. -/
  | startFetch (title : String) (call : SingleCall Value)
  | startFetchMany (title : String) (call : BatchCall Value)
  /-- Wait until a started call has ended. -/
  | await (title : String)
  | isOver (title : String)
  | abort (title : String)
  /-- Let time pass. -/
  | sleep (milliseconds : Nat)

namespace Command

variable {Value : Type}

/-- Commands that need no handle to the cache. -/
def needsNoHandle : Command Value → Bool
  | .advance _ => true
  | .now => true
  | .layDown _ => true
  | .drop => true
  | .await _ => true
  | .isOver _ => true
  | .abort _ => true
  | .sleep _ => true
  | _ => false

/-- Commands whose events have no order of their own. -/
def isRace : Command Value → Bool
  | .race _ _ => true
  | _ => false

end Command

end ReadThrough
