import ReadThrough.Proofs.Scheduler.Moves

/-!
# Punctual runs

A run of moves is punctual when it keeps to the timer of the sweeper: the sweeper
ticks when its time has come, and no time passes beyond that without a tick.  A
sweeper of a cache that nobody holds does not matter any more.
-/

namespace ReadThrough

/-- Whether a move is a tick of the sweeper. -/
def Move.isTick {Value : Type} : Move Value → Bool
  | .tick => true
  | _ => false

theorem Move.isTick_iff {Value : Type} {move : Move Value} :
    move.isTick = true ↔ move = .tick := by
  cases move with
  | tick => simp [isTick]
  | _ => simp [isTick]

theorem toBool_iff_exists_ok
    {Error Result : Type} {answer : Except Error Result} :
    answer.toBool = true ↔ ∃ result, answer = .ok result := by
  cases answer with
  | ok result => simp [Except.toBool]
  | error fault => simp [Except.toBool]

theorem Scheduler.sweeper_of_active
    {Value : Type} {scheduler : Scheduler Value} {sweeper : Sweeper}
    (active : sweeper ∈ scheduler.activeSweeper?) :
    scheduler.sweeper = some sweeper := by
  rw [Option.mem_def, activeSweeper?] at active
  split at active
  · exact active
  · cases active

namespace Logbook

variable {Value : Type} [Keyed Value] {settings : Settings}

/-- Every move meets a condition when it is made. -/
def Each
    (settings : Settings) (condition : Logbook Value → Move Value → Prop) :
    Logbook Value → List (Move Value) → Prop
  | _, [] => True
  | logbook, move :: moves =>
      condition logbook move ∧
        Each settings condition (after settings logbook move) moves

instance decidableEach
    {condition : Logbook Value → Move Value → Prop}
    [∀ logbook move, Decidable (condition logbook move)] :
    ∀ (logbook : Logbook Value) (moves : List (Move Value)),
      Decidable (Each settings condition logbook moves)
  | _, [] => inferInstanceAs (Decidable True)
  | logbook, move :: moves =>
      have : Decidable
          (Each settings condition (after settings logbook move) moves) :=
        decidableEach _ moves
      inferInstanceAs (Decidable (condition logbook move ∧
        Each settings condition (after settings logbook move) moves))

theorem each_append
    {condition : Logbook Value → Move Value → Prop}
    {logbook : Logbook Value} {early late : List (Move Value)} :
    Each settings condition logbook (early ++ late) ↔
      Each settings condition logbook early ∧
        Each settings condition (follow settings logbook early) late := by
  induction early generalizing logbook with
  | nil => simp [Each]
  | cons move early inductionHypothesis =>
      rw [List.cons_append, Each, inductionHypothesis, Each, follow_cons,
        and_assoc]

/-- A move keeps to the timer of the sweeper. -/
def Timely (logbook : Logbook Value) : Move Value → Prop
  | .pass milliseconds =>
      ∀ sweeper ∈ logbook.scheduler.activeSweeper?,
        logbook.scheduler.time + milliseconds ≤
          max logbook.scheduler.time sweeper.nextTick
  | .tick =>
      ∀ sweeper ∈ logbook.scheduler.activeSweeper?,
        sweeper.nextTick ≤ logbook.scheduler.time
  | _ => True

instance (logbook : Logbook Value) :
    ∀ move, Decidable (logbook.Timely move)
  | .pass milliseconds =>
      inferInstanceAs (Decidable
        (∀ sweeper ∈ logbook.scheduler.activeSweeper?,
          logbook.scheduler.time + milliseconds ≤
            max logbook.scheduler.time sweeper.nextTick))
  | .tick =>
      inferInstanceAs (Decidable
        (∀ sweeper ∈ logbook.scheduler.activeSweeper?,
          sweeper.nextTick ≤ logbook.scheduler.time))
  | .call _ | .callMany _ | .turn _ | .abort _ | .act _ | .wake | .hold _
  | .report => inferInstanceAs (Decidable True)

/-- All moves keep to the timer of the sweeper. -/
def Punctual (settings : Settings) (logbook : Logbook Value)
    (moves : List (Move Value)) : Prop :=
  Each settings Timely logbook moves

instance (logbook : Logbook Value) (moves : List (Move Value)) :
    Decidable (Punctual settings logbook moves) :=
  inferInstanceAs (Decidable (Each settings Timely logbook moves))

/-- Somebody holds the cache when a move is made, and if it is a tick then the
clock can be read. -/
structure Sustains (logbook : Logbook Value) (move : Move Value) : Prop where
  held : logbook.scheduler.isHeld = true
  readable : move = .tick →
    ∃ now, logbook.scheduler.cache.clock.read.1 = .ok now

instance (logbook : Logbook Value) (move : Move Value) :
    Decidable (logbook.Sustains move) :=
  decidable_of_iff (logbook.scheduler.isHeld = true ∧
    (move.isTick = true →
      logbook.scheduler.cache.clock.read.1.toBool = true)) (by
    rw [Move.isTick_iff, toBool_iff_exists_ok]
    exact ⟨fun both => ⟨both.1, both.2⟩, fun both => ⟨both.1, both.2⟩⟩)

/-- Somebody holds the cache at all moves, and all ticks can read the clock. -/
def Sustained (settings : Settings) (logbook : Logbook Value)
    (moves : List (Move Value)) : Prop :=
  Each settings Sustains logbook moves

instance (logbook : Logbook Value) (moves : List (Move Value)) :
    Decidable (Sustained settings logbook moves) :=
  inferInstanceAs (Decidable (Each settings Sustains logbook moves))

end Logbook

end ReadThrough
