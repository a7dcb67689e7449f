import ReadThrough.Settings
import ReadThrough.Time.Written

/-!
# The written form of settings

Settings are written as a record: its name, and its fields with their values
between braces.
-/

namespace ReadThrough

/-- A record with a name and named fields. -/
def recordText (name : String) (fields : List (String × String)) : String :=
  name ++ " \x7b " ++
    ", ".intercalate (fields.map fun field => field.1 ++ ": " ++ field.2) ++
    " \x7d"

/-- A truth value in a record. -/
def flagText (flag : Bool) : String :=
  if flag then "true" else "false"

/-- A natural number in a record. -/
def numberText (number : Nat) : String :=
  String.ofList (Nat.toDigits 10 number)

/-- A refresh window as a record. -/
def RefreshWindow.text (window : RefreshWindow) : String :=
  recordText "RefreshConfig"
    [("min_refresh_time", window.earliest.text),
     ("max_refresh_time", window.latest.text),
     ("retry_base_delay", window.retryBase.text)]

/-- A time source in a record. -/
def TimeSource.text : TimeSource → String
  | .running => "SystemClock"
  | .manual => "ManualClock"
  | .scripted => "ScriptedClock"

namespace Settings

/-- The refresh window in a record of settings. -/
def refreshText : Option RefreshWindow → String
  | none => "None"
  | some window => "Some(" ++ window.text ++ ")"

/-- Settings as a record. -/
def text (settings : Settings) : String :=
  recordText "Config"
    [("capacity", numberText settings.capacity),
     ("num_shards", numberText settings.shardCount),
     ("ttl", settings.timeToLive.text),
     ("eviction_percentage", numberText settings.evictionPercentage),
     ("eviction_interval", settings.sweepInterval.text),
     ("continuous_evictions", flagText settings.sweeping),
     ("refresh", refreshText settings.refresh),
     ("store_missing_records", flagText settings.storesMissing),
     ("clock", settings.timeSource.text),
     ("metrics", flagText (settings.recorder != .absent))]

end Settings

end ReadThrough
