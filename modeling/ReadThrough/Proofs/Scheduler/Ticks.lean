import ReadThrough.Proofs.Cache.Sweeping
import ReadThrough.Proofs.Scheduler.Hours
import ReadThrough.Proofs.Scheduler.Incidents
import ReadThrough.Proofs.Scheduler.Punctual

/-!
# The rounds of the sweeper

Neither the tasks nor the callers concern the sweeper: only a tick moves it on,
and only time that passes brings the next tick nearer.  So in a run that is
punctual and sustained the sweeper is `OnTime` after every move, and every tick
purges the shard whose turn it is.

A shard that a tick has swept is current from then on, because no act stores an
entry that has expired.  As many ticks as there are shards reach all of them.
`sweeps_go_round` says what follows for a whole run.
-/

namespace ReadThrough

/-! ## What turns lay down -/

theorem Act.Plain.laysFrom {Value : Type} {act : Act Value}
    (plain : act.Plain) (start : Instant) : act.LaysFrom start := by
  cases plain with
  | _ => exact True.intro

namespace Scheduler

variable {Value : Type} [Keyed Value] {settings : Settings}

/-- No task lays down readings of the clock. -/
theorem laysFrom_stepActs
    (scheduler : Scheduler Value) (task : TaskId) (start : Instant) :
    ∀ act ∈ stepActs settings scheduler task, act.LaysFrom start :=
  forall_mem_stepActs (fun _ plain => plain.laysFrom start)
    (fun _ => True.intro) scheduler task

end Scheduler

/-! ## Timers -/

/-- A duration is covered by its milliseconds, and by none less. -/
theorem Duration.coveringMilliseconds_bounds (duration : Duration) :
    duration ≤ ofMilliseconds duration.coveringMilliseconds ∧
      ofMilliseconds duration.coveringMilliseconds <
        duration + perMillisecond := by
  have covered : ∀ length : Nat,
      length ≤ (length + 999999) / 1000000 * 1000000 ∧
        (length + 999999) / 1000000 * 1000000 < length + 1000000 := by
    omega
  exact covered duration

theorem Duration.coveringMilliseconds_pos
    {duration : Duration} (lasting : 0 < duration) :
    0 < duration.coveringMilliseconds := by
  refine Nat.div_pos ?_ (by decide)
  exact Nat.add_le_add_right lasting (perMillisecond - 1)

namespace Timer

variable {timer : Timer} {interval : Duration}

theorem RoundsUp.pos
    (rounds : timer.RoundsUp interval) (lasting : 0 < interval) :
    0 < timer interval := by
  rw [rounds]
  exact Duration.coveringMilliseconds_pos lasting

/-- A timer that rounds up is never early, and late by less than a
millisecond. -/
theorem RoundsUp.covers (rounds : timer.RoundsUp interval) :
    interval ≤ .ofMilliseconds (timer interval) ∧
      Duration.ofMilliseconds (timer interval) <
        interval + Duration.perMillisecond := by
  rw [rounds]
  exact interval.coveringMilliseconds_bounds

end Timer

namespace Sweeper

/-- The timer of the sweeper rounds up what it can look ahead to. -/
theorem roundsUp_periodOf_iff {interval : Duration} :
    periodOf.RoundsUp interval ↔
      interval.coveringMilliseconds ≤ Wait.longest := by
  rw [Timer.RoundsUp, periodOf, Wait.length]
  exact ⟨fun same => same ▸ Nat.min_le_right _ _, Nat.min_eq_left⟩

theorem periodOf_pos {interval : Duration} (lasting : 0 < interval) :
    0 < periodOf interval :=
  Nat.lt_min.mpr ⟨Duration.coveringMilliseconds_pos lasting, by decide⟩

/-- The sweeper after a number of ticks. -/
def afterTicks (period shardCount ticks : Nat) : Sweeper :=
  { period
    nextTick := (ticks + 1) * period
    nextShard := ticks % shardCount }

theorem advance_afterTicks (period shardCount ticks : Nat) :
    (afterTicks period shardCount ticks).advance shardCount =
      afterTicks period shardCount (ticks + 1) := by
  rw [advance, afterTicks, afterTicks]
  dsimp only
  rw [Nat.add_mul (ticks + 1) 1, Nat.one_mul, Nat.mod_add_mod]

end Sweeper

/-- How long a move lasts. -/
def Move.duration {Value : Type} : Move Value → Nat
  | .pass milliseconds => milliseconds
  | _ => 0

/-- A move lays down no reading of the clock before an instant. -/
def Move.LaysFrom {Value : Type} (start : Instant) : Move Value → Prop
  | .act single => single.LaysFrom start
  | _ => True

namespace Logbook

variable {Value : Type}

/-- How often the sweeper ticks. -/
def ticks (moves : List (Move Value)) : Nat :=
  moves.countP Move.isTick

/-- The sweeper waits a period between two ticks.  It has ticked a number of
times, and its next tick is not overdue. -/
structure OnTime
    (settings : Settings) (period ticks : Nat) (logbook : Logbook Value) :
    Prop where
  coherent : logbook.scheduler.cache.Coherent
  count : logbook.scheduler.cache.shards.size = settings.shardCount
  sweeper : logbook.scheduler.sweeper =
    some (.afterTicks period settings.shardCount ticks)
  time : logbook.scheduler.time ≤ (ticks + 1) * period

theorem onTime_startOn
    {settings : Settings} (valid : settings.Valid)
    (sweeping : settings.sweeping = true)
    (timer : Timer) (paddings : Nat → List Nat) :
    (startOn timer settings paddings : Logbook Value).OnTime settings
      (timer settings.sweepInterval) 0 where
  coherent := Cache.coherent_empty valid paddings
  count := by simp [startOn, Scheduler.startOn, Cache.empty]
  sweeper := by
    simp [startOn, Scheduler.startOn, sweeping, Sweeper.start,
      Sweeper.afterTicks]
  time := Nat.zero_le _

variable [Keyed Value] {settings : Settings} {logbook : Logbook Value}
  {move : Move Value} {period passed : Nat}

omit [Keyed Value] in
theorem Sustains.active (sustains : logbook.Sustains move) :
    logbook.scheduler.activeSweeper? = logbook.scheduler.sweeper :=
  if_pos sustains.held

variable (settings logbook) in
/-- Only ticks concern the sweeper, and time passes only while it is let
pass. -/
theorem hours_after (notTick : move.isTick = false) :
    (after settings logbook move).scheduler.hours =
      (logbook.scheduler.time + move.duration,
        logbook.scheduler.sweeper) := by
  cases move with
  | turn task => exact Scheduler.hours_step _ task settings
  | abort task => exact Scheduler.hours_abort _ task
  | tick => cases notTick
  | _ => rfl

omit [Keyed Value] in
theorem Timely.time_le
    {sweeper : Sweeper} (timely : logbook.Timely move)
    (active : logbook.scheduler.activeSweeper? = some sweeper)
    (early : logbook.scheduler.time ≤ sweeper.nextTick) :
    logbook.scheduler.time + move.duration ≤ sweeper.nextTick := by
  cases move with
  | pass milliseconds =>
      exact (timely sweeper active).trans (Nat.max_le.mpr ⟨early, Nat.le_refl _⟩)
  | _ => exact early

/-- The tick of a sweeper that is on time purges the shard whose turn it is. -/
theorem OnTime.tick
    (onTime : logbook.OnTime settings period passed)
    (sustains : logbook.Sustains .tick) :
    (∃ now old new, Cache.Purges (passed % settings.shardCount) now
        logbook.scheduler.cache
        (after settings logbook .tick).scheduler.cache old new) ∧
      (after settings logbook .tick).scheduler.sweeper =
        some (.afterTicks period settings.shardCount (passed + 1)) ∧
      (after settings logbook .tick).scheduler.time =
        logbook.scheduler.time := by
  have inside : passed % settings.shardCount <
      logbook.scheduler.cache.shards.size := by
    rw [onTime.count]
    exact Nat.mod_lt _ (onTime.count ▸ onTime.coherent.inhabited)
  obtain ⟨now, read⟩ := sustains.readable rfl
  obtain ⟨⟨number, swept⟩, purges⟩ := Cache.purges_of_read onTime.coherent
    (Array.getElem?_eq_getElem inside) read
  have ticked := Scheduler.tick_eq
    (sustains.active.trans onTime.sweeper) swept
  have same := purges.reseats.size.trans onTime.count
  rw [after]
  dsimp only [Sweeper.afterTicks] at ticked ⊢
  rw [ticked]
  refine ⟨⟨now, _, _, purges⟩, ?_, rfl⟩
  rw [same]
  exact congrArg some (Sweeper.advance_afterTicks period _ passed)

/-- A move that keeps to the timer leaves the sweeper on time. -/
theorem OnTime.after
    (onTime : logbook.OnTime settings period passed)
    (timely : logbook.Timely move) (sustains : logbook.Sustains move) :
    (after settings logbook move).OnTime settings period
      (passed + ticks [move]) := by
  have active := sustains.active.trans onTime.sweeper
  have left : (Logbook.after settings logbook move).scheduler.cache = _ :=
    cache_after onTime.coherent move
  have coherent := coherent_undergo onTime.coherent settings (.move move)
  have count := (congrArg (·.shards.size) left).trans
    ((Cache.size_follow onTime.coherent _).trans onTime.count)
  by_cases isTick : move.isTick = true
  · cases move with
    | tick =>
        obtain ⟨_, sweeper, time⟩ := onTime.tick sustains
        refine ⟨coherent, count, sweeper, ?_⟩
        rw [time]
        exact onTime.time.trans
          (Nat.mul_le_mul_right _ (Nat.le_succ (passed + 1)))
    | _ => cases isTick
  · have still : ticks [move] = 0 := List.countP_cons_of_neg isTick
    have hours := hours_after settings logbook
      (Bool.not_eq_true _ ▸ isTick)
    have time := congrArg Prod.fst hours
    have sweeper := congrArg Prod.snd hours
    rw [still]
    exact ⟨coherent, count, sweeper.trans onTime.sweeper,
      time.trans_le (timely.time_le active onTime.time)⟩

/-- A run that keeps to the timer leaves the sweeper on time. -/
theorem OnTime.follow
    {moves : List (Move Value)} (onTime : logbook.OnTime settings period passed)
    (punctual : Punctual settings logbook moves)
    (sustained : Sustained settings logbook moves) :
    (follow settings logbook moves).OnTime settings period
      (passed + ticks moves) := by
  induction moves generalizing logbook passed with
  | nil => exact onTime
  | cons move moves inductionHypothesis =>
      have first := onTime.after punctual.1 sustained.1
      have split : ticks ([move] ++ moves) = ticks [move] + ticks moves :=
        List.countP_append
      rw [List.singleton_append] at split
      rw [split, ← Nat.add_assoc]
      exact inductionHypothesis first punctual.2 sustained.2

/-! ## Rounds -/

section Rounds

variable {instant : Instant} {index : Nat}

theorem laysFrom_moveActs
    (logbook : Logbook Value) (lays : move.LaysFrom instant) :
    ∀ act ∈ moveActs settings logbook move, act.LaysFrom instant := by
  cases move with
  | turn task => exact Scheduler.laysFrom_stepActs _ task instant
  | act act => exact List.forall_mem_singleton.mpr lays
  | tick =>
      rw [moveActs]
      cases logbook.scheduler.activeSweeper? with
      | none => exact List.forall_mem_nil _
      | some sweeper => exact List.forall_mem_singleton.mpr True.intro
  | _ => exact List.forall_mem_nil _

variable (settings) in
theorem notBefore_after
    (coherent : logbook.scheduler.cache.Coherent)
    (lays : move.LaysFrom instant)
    (notBefore : logbook.scheduler.cache.clock.NotBefore instant) :
    (after settings logbook move).scheduler.cache.clock.NotBefore
      instant := by
  rw [cache_after coherent]
  exact Cache.notBefore_follow notBefore (laysFrom_moveActs logbook lays)

/-- As long as no reading of the clock shows an earlier instant, a shard that is
current from it stays so. -/
theorem current_follow
    {moves : List (Move Value)}
    (coherent : logbook.scheduler.cache.Coherent)
    (lays : ∀ move ∈ moves, move.LaysFrom instant)
    (notBefore : logbook.scheduler.cache.clock.NotBefore instant)
    (current : logbook.scheduler.cache.Current instant index) :
    (follow settings logbook moves).scheduler.cache.Current instant
      index := by
  induction moves generalizing logbook with
  | nil => exact current
  | cons move moves inductionHypothesis =>
      obtain ⟨first, rest⟩ := List.forall_mem_cons.mp lays
      have later := notBefore_after settings coherent first notBefore
      have next := coherent_undergo coherent settings (.move move)
      refine inductionHypothesis next rest later ?_
      rw [cache_after coherent]
      exact Cache.current_follow coherent (laysFrom_moveActs logbook first)
        notBefore current

/-- Every tick of a run leaves a shard current at the end of the run. -/
theorem current_of_ticks
    {moves : List (Move Value)} (onTime : logbook.OnTime settings period passed)
    (punctual : Punctual settings logbook moves)
    (sustained : Sustained settings logbook moves)
    (lays : ∀ move ∈ moves, move.LaysFrom instant)
    (notBefore : logbook.scheduler.cache.clock.NotBefore instant)
    {number : Nat} (ticked : number < ticks moves) :
    (follow settings logbook moves).scheduler.cache.Current instant
      ((passed + number) % settings.shardCount) := by
  induction moves generalizing logbook passed number with
  | nil => cases ticked
  | cons move moves inductionHypothesis =>
      obtain ⟨first, rest⟩ := List.forall_mem_cons.mp lays
      have onTimeThen := onTime.after punctual.1 sustained.1
      have later := notBefore_after settings onTime.coherent first notBefore
      by_cases isTick : move.isTick = true
      · have counted : ticks (move :: moves) = ticks moves + 1 :=
          List.countP_cons_of_pos isTick
        have one : ticks [move] = 1 := List.countP_cons_of_pos isTick
        rw [one] at onTimeThen
        -- The first tick is number zero, the others are one nearer.
        cases number with
        | zero =>
            cases move with
            | tick =>
                obtain ⟨⟨now, old, new, purges⟩, _⟩ :=
                  onTime.tick sustained.1
                have late := notBefore.le_read
                  (congrArg Prod.fst purges.reading)
                rw [follow_cons]
                exact current_follow onTimeThen.coherent rest later
                  (purges.current late)
            | _ => cases isTick
        | succ number =>
            have before : number < ticks moves := by
              rw [counted] at ticked
              exact Nat.lt_of_succ_lt_succ ticked
            have found := inductionHypothesis onTimeThen punctual.2
              sustained.2 rest later before
            rwa [Nat.add_assoc, Nat.add_comm 1] at found
      · have counted : ticks (move :: moves) = ticks moves :=
          List.countP_cons_of_neg isTick
        have none : ticks [move] = 0 := List.countP_cons_of_neg isTick
        rw [none] at onTimeThen
        rw [counted] at ticked
        exact inductionHypothesis onTimeThen punctual.2 sustained.2 rest
          later ticked

/-- As many ticks as there are shards reach every shard. -/
theorem exists_tick_of_shard
    {count : Nat} (passed : Nat) (inside : index < count) :
    ∃ number < count, (passed + number) % count = index := by
  have some : 0 < count := Nat.zero_lt_of_lt inside
  refine ⟨(index + (count - passed % count)) % count, Nat.mod_lt _ some, ?_⟩
  have within := Nat.mod_lt passed some
  have whole := Nat.mod_add_div passed count
  have sum : passed + (index + (count - passed % count)) =
      index + count * (passed / count + 1) := by
    rw [Nat.mul_add, Nat.mul_one]
    omega
  rw [Nat.add_mod_mod, sum, Nat.add_mul_mod_self_left,
    Nat.mod_eq_of_lt inside]

end Rounds

/-- In a run, the sweeper of a cache goes round: it waits a period between two
ticks, and each of its ticks purges the shard next to the one before. -/
structure GoesRound
    (settings : Settings) (period : Nat) (new : Logbook Value)
    (moves : List (Move Value)) : Prop where
  /-- No more than one period passes without a tick. -/
  prompt : ∀ early, early <+: moves →
    (follow settings new early).scheduler.time ≤
      (ticks early + 1) * period
  /-- As many periods have passed at a tick as there have been ticks with it. -/
  spaced : ∀ early, early ++ [.tick] <+: moves →
    (follow settings new early).scheduler.time =
      (ticks early + 1) * period
  /-- A tick purges one shard and touches nothing else; so nothing that is live
  at its reading of the clock is swept. -/
  purges : ∀ early, early ++ [.tick] <+: moves →
    ∃ now before after,
      Cache.Purges (ticks early % settings.shardCount) now
        (follow settings new early).scheduler.cache
        (follow settings new (early ++ [.tick])).scheduler.cache
        before after
  /-- If the clock does not go back, a round of ticks leaves no entry that had
  expired before it. -/
  clears : ∀ early late, early ++ late = moves →
    settings.shardCount ≤ ticks late →
      ∀ instant,
        (follow settings new early).scheduler.cache.clock.NotBefore
            instant →
          (∀ move ∈ late, move.LaysFrom instant) →
            ∀ index,
              (follow settings new moves).scheduler.cache.Current
                instant index

/-- The sweeper of a new cache goes round, whatever timer it waits by.  Its
period is what the timer makes of the interval: with a timer that rounds up to
whole milliseconds, the interval so rounded. -/
theorem sweeps_go_round
    {settings : Settings} (valid : settings.Valid)
    (sweeping : settings.sweeping = true)
    (timer : Timer) (paddings : Nat → List Nat)
    {moves : List (Move Value)}
    (punctual : Punctual settings (startOn timer settings paddings) moves)
    (sustained : Sustained settings (startOn timer settings paddings) moves) :
    let period := timer settings.sweepInterval
    GoesRound settings period (startOn timer settings paddings) moves ∧
      (timer.RoundsUp settings.sweepInterval →
        0 < period ∧ settings.sweepInterval ≤ .ofMilliseconds period ∧
          Duration.ofMilliseconds period <
            settings.sweepInterval + Duration.perMillisecond) := by
  intro period
  have fresh : (startOn timer settings paddings : Logbook Value).OnTime
      settings period 0 := onTime_startOn valid sweeping timer paddings
  have reached : ∀ {early late : List (Move Value)}, early ++ late = moves →
      let now := follow settings (startOn timer settings paddings) early
      now.OnTime settings period (ticks early) ∧
        Punctual settings now late ∧ Sustained settings now late := by
    rintro early late rfl
    obtain ⟨earlyPunctual, latePunctual⟩ := each_append.mp punctual
    obtain ⟨earlySustained, lateSustained⟩ := each_append.mp sustained
    have onTime := fresh.follow earlyPunctual earlySustained
    rw [Nat.zero_add] at onTime
    exact ⟨onTime, latePunctual, lateSustained⟩
  refine ⟨⟨?prompt, ?spaced, ?purges, ?clears⟩, ?timer⟩
  case prompt =>
    rintro early ⟨late, whole⟩
    exact (reached whole).1.time
  case spaced =>
    rintro early ⟨late, whole⟩
    rw [List.append_assoc, List.singleton_append] at whole
    obtain ⟨onTime, ⟨timely, _⟩, ⟨sustains, _⟩⟩ := reached whole
    have due := timely _ (sustains.active.trans onTime.sweeper)
    exact Nat.le_antisymm onTime.time due
  case purges =>
    rintro early ⟨late, whole⟩
    rw [List.append_assoc, List.singleton_append] at whole
    obtain ⟨onTime, _, ⟨sustains, _⟩⟩ := reached whole
    rw [follow_append_singleton]
    exact (onTime.tick sustains).1
  case clears =>
    rintro early late whole round instant notBefore lays index
    obtain ⟨onTime, latePunctual, lateSustained⟩ := reached whole
    rw [← whole, follow_append]
    by_cases inside : index < settings.shardCount
    · obtain ⟨number, below, rfl⟩ := exists_tick_of_shard (ticks early) inside
      exact current_of_ticks onTime latePunctual lateSustained lays notBefore
        (below.trans_le round)
    · -- There is no such shard.
      intro shard key entry seat
      obtain ⟨within, _⟩ := Array.getElem?_eq_some_iff.mp seat
      rw [(onTime.follow latePunctual lateSustained).count] at within
      exact absurd within inside
  case timer =>
    intro rounds
    exact ⟨rounds.pos (valid.operable.sweeps sweeping), rounds.covers⟩

/-- One entry in each of two shards, and both expire. -/
def spoilt : List (Move NameTag) :=
  [.act (.write ⟨"d", some ⟨"d", ["x"]⟩, ["x"]⟩),
    .act (.write ⟨"a", some ⟨"a", []⟩, []⟩), .act (.quiet (.advance 2000))]

/-- The sweeper ticks twice. -/
def twice : List (Move NameTag) :=
  [.pass 1, .tick, .pass 1, .tick]

theorem sweeps_go_round_twice :
    let settings := { Settings.twoShards with sweeping := true }
    let period := Sweeper.periodOf settings.sweepInterval
    let new : Logbook NameTag := start settings fun _ => []
    let before := follow settings new (spoilt ++ [.pass 1, .tick, .pass 1])
    let cache := (follow settings new (spoilt ++ twice)).scheduler.cache
    settings.Valid ∧ Punctual settings new (spoilt ++ twice) ∧
      Sustained settings new (spoilt ++ twice) ∧
        Sweeper.periodOf.RoundsUp settings.sweepInterval ∧
          (follow settings new spoilt).scheduler.cache.size = 2 ∧
            (∀ index, cache.Current 2000 index) ∧ cache.size = 0 ∧
              (before.scheduler.time = 2 * period ∧
                ∃ now old new,
                  Cache.Purges 1 now before.scheduler.cache cache old new) ∧
                0 < period ∧
                  settings.sweepInterval ≤ .ofMilliseconds period ∧
                    Duration.ofMilliseconds period <
                      settings.sweepInterval + Duration.perMillisecond := by
  intro settings period new before cache
  have valid : settings.Valid := by decide
  have punctual : Punctual settings new (spoilt ++ twice) := by
    decide +kernel
  have sustained : Sustained settings new (spoilt ++ twice) := by
    decide +kernel
  have rounds : Sweeper.periodOf.RoundsUp settings.sweepInterval :=
    Sweeper.roundsUp_periodOf_iff.mpr (by decide)
  obtain ⟨goes, waits⟩ : GoesRound settings period new (spoilt ++ twice) ∧ _ :=
    sweeps_go_round valid rfl Sweeper.periodOf (fun _ => []) punctual
      sustained
  have clock : (follow settings new spoilt).scheduler.cache.clock =
      ⟨.manual, 2000, [], 0⟩ := by decide +kernel
  have lays : ∀ move ∈ twice, move.LaysFrom 2000 := by
    simp [twice, Move.LaysFrom]
  have last : spoilt ++ [.pass 1, .tick, .pass 1] ++ [.tick] <+:
      spoilt ++ twice := List.prefix_refl _
  refine ⟨valid, punctual, sustained, rounds, by decide +kernel, ?_,
    by decide +kernel, ⟨goes.spaced _ last, goes.purges _ last⟩,
    waits rounds⟩
  refine goes.clears spoilt twice rfl (by decide) 2000 ?_ lays
  rw [clock]
  exact Nat.le_refl 2000

/-- The interval is half a microsecond.  After a millisecond, that is two
thousand intervals, the sweeper has ticked once, what has expired in the second
shard is still there, and the next tick is not due. -/
theorem ticks_await_whole_milliseconds :
    let settings := { Settings.twoShards with sweeping := true }
    let new : Logbook NameTag := start settings fun _ => []
    let logbook := follow settings new (spoilt ++ [.pass 1, .tick])
    settings.Valid ∧ Punctual settings new (spoilt ++ [.pass 1, .tick]) ∧
      Sustained settings new (spoilt ++ [.pass 1, .tick]) ∧
        logbook.scheduler.time * Duration.perMillisecond =
            2000 * settings.sweepInterval ∧
          ticks (spoilt ++ [.pass 1, .tick]) = 1 ∧
            logbook.scheduler.cache.clock.read.1 = .ok 2000 ∧
              ((logbook.scheduler.cache.shards[1]?).bind
                  (·.entries["a"]?)).map (·.expiresAt) = some 1000 ∧
                ¬ logbook.Timely .tick := by
  refine ⟨by decide, by decide +kernel, by decide +kernel, by decide +kernel,
    by decide, by decide +kernel, by decide +kernel, by decide +kernel⟩

end Logbook

end ReadThrough
