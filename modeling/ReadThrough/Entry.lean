import ReadThrough.Time

/-!
# Entries and lookups

An entry is what a shard stores under a key: a value or a missing record, with
the instants of its expiry and of its next refresh.  A lookup is what a reader
learns of an entry.

Both instants belong to the life before them: an entry is expired, or due, only
at a strictly later instant.
-/

namespace ReadThrough

/-- A stored value or missing record. -/
structure Entry (Value : Type) where
  /-- The key it is stored under. -/
  key : String
  /-- The value; nothing for a missing record. -/
  value : Option Value
  /-- The last instant of its life. -/
  expiresAt : Instant
  /-- The last instant at which it need not be refreshed, if it ever need. -/
  refreshAt : Option Instant
  /-- Number of elections of a refreshing reader since it was written. -/
  retries : Nat
  deriving DecidableEq, Repr

/-- What a reader learns under a name. -/
inductive Lookup (Value : Type) where
  /-- There is no live entry under the name. -/
  | absent
  /-- There is a live value.  `refresh` elects the reader to refresh it. -/
  | found (value : Value) (refresh : Bool)
  /-- There is a live missing record. -/
  | missing (refresh : Bool)
  deriving DecidableEq, Repr

namespace Entry

variable {Value : Type}

/-- An entry as it is when it has just been written. -/
def fresh
    (key : String) (value : Option Value)
    (expiresAt : Instant) (refreshAt : Option Instant) : Entry Value :=
  { key, value, expiresAt, refreshAt, retries := 0 }

/-- Whether the life of the entry is over. -/
def isExpired (entry : Entry Value) (now : Instant) : Bool :=
  entry.expiresAt < now

/-- Whether the entry should be refreshed. -/
def isDue (entry : Entry Value) (now : Instant) : Bool :=
  entry.refreshAt.any (· < now)

/-- Whether the entry records that there is nothing to store. -/
def isMissing (entry : Entry Value) : Bool :=
  entry.value.isNone

/-- What a reader learns of a live entry. -/
def lookup (entry : Entry Value) (refresh : Bool) : Lookup Value :=
  match entry.value with
  | some value => .found value refresh
  | none => .missing refresh

/-! ## Elections -/

/-- The largest number of elections an entry counts: all that 32 bits hold. -/
def mostRetries : Nat := 4294967295

/-- The largest exponent of the pause between two elections. -/
def maxBackoffExponent : Nat := 10

/-- The pause after an election that `retries` elections came before. -/
def backoff (base : Duration) (retries : Nat) : Duration :=
  base.scale (Nat.pow 2 (min retries maxBackoffExponent))

/-- The entry after an election at an instant. -/
def postponed
    (entry : Entry Value) (retryBase : Duration) (now : Instant) :
    Entry Value :=
  { entry with
    refreshAt := some (deadline now (backoff retryBase entry.retries))
    retries := min (entry.retries + 1) mostRetries }

end Entry

namespace Lookup

variable {Value : Type}

/-- Whether there is a live entry. -/
def isLive : Lookup Value → Bool
  | .absent => false
  | _ => true

/-- Whether there is a live missing record. -/
def isMissing : Lookup Value → Bool
  | .missing _ => true
  | _ => false

/-- Whether the reader is elected to refresh the entry. -/
def refreshes : Lookup Value → Bool
  | .absent => false
  | .found _ refresh => refresh
  | .missing refresh => refresh

/-- The live value, if there is one. -/
def value? : Lookup Value → Option Value
  | .found value _ => some value
  | _ => none

end Lookup

end ReadThrough
