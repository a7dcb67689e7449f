import ReadThrough.Scheduler.Passage
import ReadThrough.Session.Answer
import ReadThrough.Session.Command

/-!
# Sessions

A session gives commands to a cache, one after the other.  Each command is
carried out, everything it made ready is settled, and the report tells what the
command answered, which fetch functions were called and which events were
noted meanwhile.

A fault answers the command that met it.  The session goes on with the cache as
the fault left it.
-/

namespace ReadThrough

open Std (ExtTreeMap)

/-- A cache at the disposal of a caller. -/
structure Session (Value : Type) where
  settings : Settings
  scheduler : Scheduler Value
  /-- The started calls by their titles. -/
  titles : ExtTreeMap String TaskId

/-- What became of a command. -/
structure Report (Value : Type) where
  answer : Answer Value
  /-- The calls of fetch functions. -/
  fetchCalls : List FetchCall
  /-- The events, if they are kept. -/
  events : List Event

namespace Session

variable {Value Result : Type}

/-- Open a session on a new cache. -/
def start (settings : Settings) (hasBackground : Bool) :
    Except Failure (Session Value) := do
  let scheduler ← Scheduler.create settings hasBackground fun _ => []
  return { settings, scheduler, titles := ∅ }

/-! ## Elementary commands -/

/-- Carry out an action on the cache and answer its result. -/
def act
    (session : Session Value) (action : Cache.Action Value Result)
    (answer : Result → Answer Value) : Answer Value × Session Value :=
  match session.scheduler.attempt action with
  | (.ok result, scheduler) => (answer result, { session with scheduler })
  | (.error fault, scheduler) =>
      (.fault fault, { session with scheduler })

/-- Answer a question that changes nothing. -/
def ask (session : Session Value) (answer : Answer Value) :
    Answer Value × Session Value :=
  (answer, session)

/-- Let the scheduler change. -/
def change
    (session : Session Value) (next : Scheduler Value) :
    Answer Value × Session Value :=
  (.nothing, { session with scheduler := next })

/-- Write records one after the other and move the clock after each.  The
answer counts the writes that had to evict entries and gives the number of the
first of them. -/
def insertPaced (settings : Settings) (pace : Duration) :
    Nat → List (String × Value) → Nat × Option Nat →
      Cache.Action Value (Nat × Option Nat)
  | _, [], forced => return forced
  | number, (key, value) :: records, (count, first) => do
      let evicted ← Cache.insert settings key value
      Cache.advanceClock pace
      insertPaced settings pace (number + 1) records
        (if evicted then (count + 1, first <|> some number)
        else (count, first))

/-- Look a name up from several readers and count what they saw. -/
def race (settings : Settings) (name : String) (readers : Nat) :
    Cache.Action Value Tally :=
  (List.range readers).foldlM
    (fun tally _ => return tally.count (← Cache.lookup settings name))
    Tally.zero

/-! ## Surveys -/

/-- Where a name is routed to and what it means there. -/
def locate (name : String) : Cache.Action Value Location := do
  let index ← Cache.shardIndex name
  return {
    name, index
    binding := ← Cache.bindingIn index name
    keyOfAlias := ← Cache.keyOfAliasIn index name }

/-- The size and the live keys of a shard. -/
def inspect (index : Nat) : Cache.Action Value Inspection := do
  let shard ← Cache.shardAt index
  return {
    index
    capacity := shard.capacity
    size := shard.size
    keys := ← Cache.keysOf index }

/-- The names, and all shards that hold an entry. -/
def survey (names : List String) :
    Cache.Action Value (List Location × List Inspection) := do
  let locations ← names.mapM locate
  let cache ← get
  let held := (List.range cache.shards.size).filter fun index =>
    (cache.shards[index]?).any (0 < ·.size)
  return (locations, ← held.mapM inspect)

/-! ## Started calls -/

/-- Start a task under a title. -/
def launch
    (session : Session Value) (title : String) (stage : Stage Value) :
    Answer Value × Session Value :=
  (.nothing, { session with
    titles := session.titles.insert title session.scheduler.tasks.size
    scheduler := session.scheduler.spawn stage })

variable [Keyed Value]

/-- Wait until a task has ended and answer its verdict. -/
def awaitTask (session : Session Value) (task : TaskId) :
    Answer Value × Session Value :=
  let scheduler := session.scheduler.sleepUntilOver session.settings task
  let answer :=
    match scheduler.verdict? task with
    | some verdict => .verdict verdict
    | none => .nothing
  (answer, { session with scheduler })

/-- Run a task until it has ended. -/
def runTask (session : Session Value) (stage : Stage Value) :
    Answer Value × Session Value :=
  let task := session.scheduler.tasks.size
  let scheduler :=
    (session.scheduler.spawn stage).settle session.settings
  { session with scheduler }.awaitTask task

/-- Do something with the task that was started under a title. -/
def withTask
    (session : Session Value) (title : String)
    (use : TaskId → Answer Value × Session Value) :
    Answer Value × Session Value :=
  match session.titles[title]? with
  | some task => use task
  | none => session.ask .nothing

/-! ## Commands -/

/-- Carry out a command. -/
def perform (session : Session Value) :
    Command Value → Answer Value × Session Value
  | .advance duration =>
      session.act (Cache.advanceClock duration) fun _ => .nothing
  | .now =>
      session.act
        (do Cache.demand (← get).clock.ordinary) .duration
  | .layDown readings =>
      session.act
        (modify fun cache =>
          { cache with clock := cache.clock.layDown readings })
        fun _ => .nothing
  | .clone =>
      session.change { session.scheduler with
        handles := session.scheduler.handles + 1 }
  | .drop =>
      let handles := session.scheduler.handles - 1
      (.flag (decide (0 < handles)), { session with
        scheduler := { session.scheduler with handles } })
  | .get name => session.act (Cache.get? session.settings name) .value
  | .lookup name => session.act (Cache.lookup session.settings name) .lookup
  | .probe name => session.act (Cache.lookup session.settings name) .probe
  | .getMany names =>
      session.act (Cache.getMany session.settings names) .values
  | .getManyBy requests =>
      session.act (Cache.getManyBy session.settings requests) .values
  | .insert key value =>
      session.act (Cache.insert session.settings key value) .flag
  | .insertAliased key value aliases =>
      session.act
        (Cache.write session.settings key (some value) aliases) .flag
  | .insertKeyed value =>
      session.act (Cache.insertKeyed session.settings value) .flag
  | .insertMissing key =>
      session.act (Cache.insertMissing session.settings key) .flag
  | .insertMany records =>
      session.act
        (Cache.writeAll <| records.map fun record =>
          Cache.insert session.settings record.1 record.2) .flag
  | .insertManyKeyed values =>
      session.act
        (Cache.writeAll <| values.map (Cache.insertKeyed session.settings))
        .flag
  | .insertPaced records pace =>
      session.act (insertPaced session.settings pace 0 records (0, none))
        fun forced => .forced forced.1 forced.2
  | .delete name => session.act (Cache.delete name) .flag
  | .keys =>
      session.act Cache.keys fun keys =>
        .names (keys.mergeSort fun left right => left ≤ right)
  | .size => session.ask (.count session.scheduler.cache.size)
  | .statistics =>
      session.ask (.statistics session.scheduler.cache.statistics)
  | .flightCount => session.ask (.count session.scheduler.inFlight.size)
  | .settings => session.ask (.settings session.settings)
  | .route name => session.act (Cache.shardIndex name) .count
  | .routeMany names => session.act (names.mapM Cache.shardIndex) .counts
  | .getFrom index name =>
      session.act (Cache.getFrom session.settings index name) .lookup
  | .inspect index =>
      session.act (inspect index) fun inspection =>
        .inspection session.scheduler.cache.shards.size
          session.settings.evictionPercentage inspection
  | .binding index name =>
      session.act (Cache.bindingIn index name) .binding
  | .keyOfAlias index name =>
      session.act (Cache.keyOfAliasIn index name) .key
  | .routeCount => session.ask (.count session.scheduler.cache.routes.size)
  | .describe =>
      session.ask <| .text <|
        describe session.settings session.scheduler.cache.routes.size
  | .survey names =>
      session.act (survey names) fun (locations, shards) =>
        .survey locations shards
          session.scheduler.inFlight.size session.scheduler.cache.statistics
  | .race name readers =>
      session.act (race session.settings name readers) .tally
  | .fetch call => session.runTask (.single call)
  | .fetchMany call => session.runTask (.batch call)
  | .startFetch title call => session.launch title (.single call)
  | .startFetchMany title call => session.launch title (.batch call)
  | .await title => session.withTask title session.awaitTask
  | .isOver title =>
      session.withTask title fun task =>
        session.ask (.flag (session.scheduler.isOver task))
  | .abort title =>
      session.withTask title fun task =>
        session.change (session.scheduler.abort task)
  | .sleep milliseconds =>
      session.change (session.scheduler.sleep session.settings milliseconds)

/-- Empty the lists of fetch calls and events into a report. -/
def report
    (session : Session Value) (command : Command Value)
    (answer : Answer Value) : Report Value × Session Value :=
  let scheduler := session.scheduler
  let noted := scheduler.cache.journal.toList
  let events :=
    if session.settings.recorder ≠ .log then []
    else if command.isRace then
      noted.mergeSort fun left right => left.text ≤ right.text
    else noted
  ({ answer, fetchCalls := scheduler.fetchCalls.toList, events },
    { session with
      scheduler := { scheduler with
        fetchCalls := #[]
        cache := { scheduler.cache with journal := #[] } } })

/-- Carry out a command, settle, and report. -/
def execute (session : Session Value) (command : Command Value) :
    Report Value × Session Value :=
  if session.scheduler.handles = 0 ∧ !command.needsNoHandle then
    session.report command .noHandle
  else
    let (answer, next) := session.perform command
    let settled :=
      { next with scheduler := next.scheduler.settle next.settings }
    settled.report command answer

/-- Carry out commands one after the other. -/
def run : Session Value → List (Command Value) → List (Report Value)
  | _, [] => []
  | session, command :: commands =>
      let (report, next) := session.execute command
      report :: next.run commands

end Session

end ReadThrough
