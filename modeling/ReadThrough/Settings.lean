import ReadThrough.Clock
import ReadThrough.Failure

/-!
# Settings of a cache

Settings fix the capacity and its division into shards, the time to live, the
share of a full shard that a write may evict, the sweep, refreshing ahead of
expiry, whether a missing record is stored, and the clock.

`Settings.ofBasics` derives the sweep interval so that a round over all shards
takes one time to live.  `Settings.defect?` names the first reason for which a
cache cannot work with the settings.
-/

namespace ReadThrough

/-- When entries become due for a refresh, and how long an elected reader is
given before the next election. -/
structure RefreshWindow where
  /-- Earliest time after a write at which the entry is due. -/
  earliest : Duration
  /-- Latest time after a write at which the entry is due. -/
  latest : Duration
  /-- Pause after the first election; it doubles with every further one. -/
  retryBase : Duration
  deriving DecidableEq, Repr

/-- What listens to the events of a cache. -/
inductive Recorder where
  /-- Nobody listens. -/
  | absent
  /-- A listener that ignores every event. -/
  | silent
  /-- A listener that keeps every event. -/
  | log
  deriving DecidableEq, Repr

/-- The settings of a cache. -/
structure Settings where
  /-- Number of entries in all shards together. -/
  capacity : Nat
  /-- Number of shards. -/
  shardCount : Nat
  /-- Time to live of every entry. -/
  timeToLive : Duration
  /-- Share of a full shard that a write evicts, in percent; zero drops the
  write. -/
  evictionPercentage : Nat
  /-- Time between two ticks of the sweep. -/
  sweepInterval : Duration
  /-- Whether expired entries are swept in the background. -/
  sweeping : Bool
  /-- Refreshing ahead of expiry, if wanted. -/
  refresh : Option RefreshWindow
  /-- Whether a record that the source does not have is stored as missing. -/
  storesMissing : Bool
  /-- What the clock of the cache follows. -/
  timeSource : TimeSource
  /-- The listener. -/
  recorder : Recorder
  deriving DecidableEq, Repr

/-- The reasons for which settings are refused. -/
inductive Defect where
  | noCapacity
  | noShards
  | capacityBelowShards
  | noTimeToLive
  | percentageTooLarge
  | noSweepInterval
  | refreshWindowReversed
  | refreshAfterExpiry
  | noRetryBase
  deriving DecidableEq, Repr

namespace Defect

/-- The text that reports a defect. -/
def message : Defect → String
  | .noCapacity => "capacity must be greater than 0"
  | .noShards => "number of shards must be greater than 0"
  | .capacityBelowShards => "capacity must be at least the number of shards"
  | .noTimeToLive => "ttl must be greater than 0"
  | .percentageTooLarge => "eviction percentage must be between 0 and 100"
  | .noSweepInterval => "eviction interval must be greater than 0"
  | .refreshWindowReversed =>
      "min refresh time cannot exceed max refresh time"
  | .refreshAfterExpiry => "max refresh time cannot exceed the ttl"
  | .noRetryBase => "retry base delay must be greater than 0"

end Defect

namespace Settings

/-! ## Defaults -/

/-- The lower 32 bits of a number. -/
def lowerHalf (number : Nat) : Nat :=
  number % 4294967296

/-- The sweep interval of a number of shards: one round over them takes a time
to live.  Durations are divided by numbers of 32 bits, and of the number of
shards only these count. -/
def defaultInterval
    (shardCount : Nat) (timeToLive : Duration) : Except Fault Duration :=
  if shardCount = 0 then
    .ok timeToLive
  else if lowerHalf shardCount = 0 then
    .error .durationDividedByZero
  else
    .ok (timeToLive / lowerHalf shardCount)

/-- Settings from the four basic values; everything else has its default. -/
def ofBasics
    (capacity shardCount : Nat) (timeToLive : Duration)
    (evictionPercentage : Nat) : Except Fault Settings := do
  let sweepInterval ← defaultInterval shardCount timeToLive
  return {
    capacity, shardCount, timeToLive, evictionPercentage, sweepInterval
    sweeping := true
    refresh := none
    storesMissing := false
    timeSource := .running
    recorder := .absent }

/-- The settings of a cache about which nothing was said: ten thousand entries
in ten shards, which live for five minutes. -/
def standard : Except Fault Settings :=
  ofBasics 10000 10 (Duration.ofSeconds 300) 10

/-! ## Validation -/

/-- The first defect of a refresh window, given the time to live. -/
def windowDefect? (timeToLive : Duration) (window : RefreshWindow) :
    Option Defect :=
  if window.latest < window.earliest then some .refreshWindowReversed
  else if timeToLive < window.latest then some .refreshAfterExpiry
  else if window.retryBase = 0 then some .noRetryBase
  else none

/-- The first defect of the settings. -/
def defect? (settings : Settings) : Option Defect :=
  if settings.capacity = 0 then some .noCapacity
  else if settings.shardCount = 0 then some .noShards
  else if settings.capacity < settings.shardCount then
    some .capacityBelowShards
  else if settings.timeToLive = 0 then some .noTimeToLive
  else if 100 < settings.evictionPercentage then some .percentageTooLarge
  else if settings.sweeping ∧ settings.sweepInterval = 0 then
    some .noSweepInterval
  else settings.refresh.bind (windowDefect? settings.timeToLive)

/-- Settings without a defect. -/
def Valid (settings : Settings) : Prop :=
  settings.defect? = none

instance (settings : Settings) : Decidable settings.Valid :=
  inferInstanceAs (Decidable (settings.defect? = none))

/-- Accept the settings or report their first defect. -/
def validate (settings : Settings) : Except Failure Unit :=
  match settings.defect? with
  | none => .ok ()
  | some defect => .error (.invalidSettings defect.message)

/-- Number of entries that one shard holds. -/
def shardCapacity (settings : Settings) : Nat :=
  settings.capacity / settings.shardCount

end Settings

end ReadThrough
