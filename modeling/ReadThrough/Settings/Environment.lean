import ReadThrough.Settings
import ReadThrough.Settings.Numeral

/-!
# Settings from environment variables

A variable that is not set, or whose text is not a value of its kind, leaves
the default in place.  Refreshing ahead is on when all three of its variables
have a value.
-/

namespace ReadThrough.Settings

/-- The environment: the text of each variable that is set. -/
abbrev Environment := String → Option String

namespace Environment

/-- A number of 64 bits. -/
def word? (environment : Environment) (name : String) : Option Nat :=
  (environment name).bind (number? 18446744073709551616)

/-- A number of eight bits. -/
def byte? (environment : Environment) (name : String) : Option Nat :=
  (environment name).bind (number? 256)

/-- The refresh window, if all of its variables have a value. -/
def refreshWindow? (environment : Environment) : Option RefreshWindow := do
  let earliest ← environment.word? "CACHE_MIN_REFRESH_MS"
  let latest ← environment.word? "CACHE_MAX_REFRESH_MS"
  let retryBase ← environment.word? "CACHE_RETRY_BASE_MS"
  return {
    earliest := Duration.ofMilliseconds earliest
    latest := Duration.ofMilliseconds latest
    retryBase := Duration.ofMilliseconds retryBase }

end Environment

/-- The settings that an environment describes. -/
def ofEnvironment (environment : Environment) : Except Fault Settings := do
  let settings ← ofBasics
    ((environment.word? "CACHE_CAPACITY").getD 10000)
    ((environment.word? "CACHE_SHARDS").getD 10)
    (Duration.ofSeconds ((environment.word? "CACHE_TTL_SECS").getD 300))
    ((environment.byte? "CACHE_EVICTION_PERCENTAGE").getD 10)
  return { settings with
    refresh := environment.refreshWindow?
    storesMissing :=
      ((environment "CACHE_STORE_MISSING").bind flag?).getD false }

end ReadThrough.Settings
