import Mathlib.Data.List.Induction
import ReadThrough.Proofs.Scheduler.Punctual
import ReadThrough.Proofs.Scheduler.Settling
import ReadThrough.Proofs.Session

/-!
# Sessions between two commands

Whatever a session is commanded to do, and whatever its scheduler does
meanwhile, is a punctual run of moves: what holds after every such run holds of
every session.

Between two commands a session is at rest.  Nobody is ready, so whoever waits
for a flight waits for somebody who fetches.
-/

namespace ReadThrough

open Cache (Runs)

namespace Scheduler

variable {Value : Type} {scheduler : Scheduler Value} {sweeper : Sweeper}

/-- The next tick is due, if nothing is before. -/
theorem exists_nextDue_le (active : sweeper ∈ scheduler.activeSweeper?) :
    ∃ due, scheduler.nextDue? = some due ∧ due ≤ sweeper.nextTick := by
  rw [Option.mem_def] at active
  rw [nextDue?, active]
  generalize listed : scheduler.tasks.toList.filterMap Stage.wakeAt? ++ _ =
    times
  have member : sweeper.nextTick ∈ times := by
    rw [← listed]
    exact List.mem_append_right _ (List.mem_singleton.mpr rfl)
  obtain ⟨due, least⟩ := Option.isSome_iff_exists.mp
    (List.isSome_min?_of_mem member)
  exact ⟨due, least, (List.min?_eq_some_iff.mp least).2 _ member⟩

end Scheduler

namespace Logbook

variable {Value : Type} [Keyed Value] {settings : Settings}

/-- Some punctual run of moves leads from one logbook to another. -/
def Reaches (settings : Settings) (before after : Logbook Value) : Prop :=
  ∃ moves, Punctual settings before moves ∧
    follow settings before moves = after

instance : IsPreorder (Logbook Value) (Reaches settings) where
  refl _ := ⟨[], True.intro, rfl⟩
  trans _ _ _ := by
    intro earlier later
    obtain ⟨early, firstPunctual, rfl⟩ := earlier
    obtain ⟨late, thenPunctual, rfl⟩ := later
    exact ⟨early ++ late, each_append.mpr ⟨firstPunctual, thenPunctual⟩,
      follow_append settings _ early late⟩

variable (settings)

theorem reaches_after
    (logbook : Logbook Value) (move : Move Value)
    (timely : logbook.Timely move) :
    Reaches settings logbook (after settings logbook move) :=
  ⟨[move], ⟨timely, True.intro⟩, rfl⟩

theorem reaches_acts
    (scheduler : Scheduler Value) (reported : List FetchCall)
    (acts : List (Act Value)) :
    Reaches settings ⟨scheduler, reported⟩
      ⟨{ scheduler with cache := Cache.follow settings scheduler.cache acts },
        reported⟩ := by
  induction acts generalizing scheduler with
  | nil => exact refl_of (Reaches settings) _
  | cons act acts inductionHypothesis =>
      exact trans_of (Reaches settings)
        (reaches_after settings ⟨scheduler, reported⟩ (.act act) True.intro)
        (inductionHypothesis _)

/-- What acts make of the cache, moves make of it. -/
theorem reaches_of_runs
    {scheduler next : Scheduler Value} {reported : List FetchCall}
    (runs : Runs settings scheduler.cache next.cache)
    (same : next = { scheduler with cache := next.cache }) :
    Reaches settings ⟨scheduler, reported⟩ ⟨next, reported⟩ := by
  obtain ⟨acts, reached⟩ := runs
  rw [same, ← reached]
  exact reaches_acts settings scheduler reported acts

theorem reaches_settleWithin
    (limit : Nat) (scheduler : Scheduler Value)
    (reported : List FetchCall) :
    Reaches settings ⟨scheduler, reported⟩
      ⟨Scheduler.settleWithin settings limit scheduler, reported⟩ := by
  induction limit generalizing scheduler with
  | zero => exact refl_of (Reaches settings) _
  | succ limit inductionHypothesis =>
      rw [Scheduler.settleWithin]
      split
      · exact refl_of (Reaches settings) _
      next task rest ready =>
        have turn := reaches_after settings ⟨scheduler, reported⟩
          (.turn task) True.intro
        simp only [after, ready, List.erase_cons_head] at turn
        exact trans_of (Reaches settings) turn (inductionHypothesis _)

theorem reaches_settle
    (scheduler : Scheduler Value) (reported : List FetchCall) :
    Reaches settings ⟨scheduler, reported⟩
      ⟨scheduler.settle settings, reported⟩ :=
  reaches_settleWithin settings scheduler.pendingSteps scheduler reported

theorem reaches_fire
    (scheduler : Scheduler Value) (reported : List FetchCall) :
    Reaches settings ⟨scheduler, reported⟩
      ⟨scheduler.fire settings, reported⟩ := by
  have wakes : ∀ scheduler : Scheduler Value,
      Reaches settings ⟨scheduler, reported⟩
        ⟨scheduler.wake.settle settings, reported⟩ := fun scheduler =>
    trans_of (Reaches settings)
      (reaches_after settings ⟨scheduler, reported⟩ .wake True.intro)
      (reaches_settle settings scheduler.wake reported)
  rw [Scheduler.fire]
  split
  next due =>
    have timely : (⟨scheduler, reported⟩ : Logbook Value).Timely .tick := by
      intro sweeper active
      rw [Scheduler.sweeper_of_active active] at due
      exact of_decide_eq_true due
    exact trans_of (Reaches settings) (reaches_after settings _ _ timely)
      (wakes scheduler.tick)
  · exact wakes scheduler

theorem reaches_time
    (scheduler : Scheduler Value) (reported : List FetchCall)
    {target : Nat} (early : ∀ sweeper ∈ scheduler.activeSweeper?,
      target ≤ sweeper.nextTick) :
    Reaches settings ⟨scheduler, reported⟩
      ⟨{ scheduler with time := max scheduler.time target }, reported⟩ := by
  have reached : scheduler.time + (target - scheduler.time) =
      max scheduler.time target := by omega
  have timely : (⟨scheduler, reported⟩ : Logbook Value).Timely
      (.pass (target - scheduler.time)) := by
    intro sweeper active
    dsimp only
    rw [reached]
    exact Nat.max_le.mpr ⟨Nat.le_max_left _ _,
      Nat.le_trans (early sweeper active) (Nat.le_max_right _ _)⟩
  have passes := reaches_after settings _ _ timely
  rw [after, reached] at passes
  exact passes

theorem reaches_passWithin
    (stop : Scheduler Value → Bool) (target limit : Nat)
    (scheduler : Scheduler Value) (reported : List FetchCall) :
    Reaches settings ⟨scheduler, reported⟩
      ⟨Scheduler.passWithin settings stop target limit scheduler,
        reported⟩ := by
  induction limit generalizing scheduler with
  | zero => exact refl_of (Reaches settings) _
  | succ limit inductionHypothesis =>
      rw [Scheduler.passWithin]
      split
      · exact refl_of (Reaches settings) _
      · split
        next distant =>
          refine reaches_time settings scheduler reported ?_
          intro sweeper active
          obtain ⟨due, next, soon⟩ := Scheduler.exists_nextDue_le active
          rw [next, Option.filter_eq_none_iff] at distant
          have beyond := of_decide_eq_false
            (Bool.not_eq_true _ ▸ distant due rfl)
          omega
        next due near =>
          have nextDue := (Option.filter_eq_some_iff.mp near).1
          have early : ∀ sweeper ∈ scheduler.activeSweeper?,
              due ≤ sweeper.nextTick := by
            intro sweeper active
            obtain ⟨least, next, soon⟩ := Scheduler.exists_nextDue_le active
            cases nextDue.symm.trans next
            exact soon
          exact trans_of (Reaches settings)
            (reaches_time settings scheduler reported early)
            (trans_of (Reaches settings)
              (reaches_fire settings _ reported)
              (inductionHypothesis _))

end Logbook

namespace Session

open Logbook (Reaches)

variable {Value Result : Type}

theorem scheduler_act
    (session : Session Value) (action : Cache.Action Value Result)
    (answer : Result → Answer Value) :
    (session.act action answer).2.scheduler =
      { session.scheduler with
        cache := (session.act action answer).2.scheduler.cache } := by
  rw [act, Scheduler.attempt]
  cases action.run session.scheduler.cache with
  | ok result cache => rfl
  | error fault cache => rfl

section Commands

variable [Keyed Value] (session : Session Value) (reported : List FetchCall)

theorem reaches_awaitTask (task : TaskId) :
    Reaches session.settings ⟨session.scheduler, reported⟩
      ⟨(session.awaitTask task).2.scheduler, reported⟩ :=
  Logbook.reaches_passWithin session.settings _ _ _ session.scheduler
    reported

theorem reaches_runTask {stage : Stage Value}
    (started : Reaches session.settings ⟨session.scheduler, reported⟩
      ⟨session.scheduler.spawn stage, reported⟩) :
    Reaches session.settings ⟨session.scheduler, reported⟩
      ⟨(session.runTask stage).2.scheduler, reported⟩ := by
  have settles := Logbook.reaches_settle session.settings
    (session.scheduler.spawn stage) reported
  have waits := reaches_awaitTask
    { session with
      scheduler :=
        (session.scheduler.spawn stage).settle session.settings }
    reported session.scheduler.tasks.size
  exact trans_of (Reaches session.settings) started
    (trans_of (Reaches session.settings) settles waits)

theorem reaches_withTask
    (title : String) {use : TaskId → Answer Value × Session Value}
    (uses : ∀ task, Reaches session.settings ⟨session.scheduler, reported⟩
      ⟨(use task).2.scheduler, reported⟩) :
    Reaches session.settings ⟨session.scheduler, reported⟩
      ⟨(session.withTask title use).2.scheduler, reported⟩ := by
  rw [withTask]
  split
  next task _ => exact uses task
  · exact refl_of (Reaches session.settings) _

theorem reaches_perform (command : Command Value) :
    Reaches session.settings ⟨session.scheduler, reported⟩
      ⟨(session.perform command).2.scheduler, reported⟩ := by
  have runs := (session.leads_perform command).runs
  have unchanged := refl_of (Reaches session.settings)
    (⟨session.scheduler, reported⟩ : Logbook Value)
  have starts := Logbook.reaches_after session.settings
    ⟨session.scheduler, reported⟩
  cases command with
  | clone => exact starts (.hold (session.scheduler.handles + 1)) True.intro
  | drop => exact starts (.hold (session.scheduler.handles - 1)) True.intro
  | size => exact unchanged
  | statistics => exact unchanged
  | flightCount => exact unchanged
  | settings => exact unchanged
  | routeCount => exact unchanged
  | describe => exact unchanged
  | fetch call =>
      exact session.reaches_runTask reported (starts (.call call) True.intro)
  | fetchMany call =>
      exact session.reaches_runTask reported
        (starts (.callMany call) True.intro)
  | startFetch title call => exact starts (.call call) True.intro
  | startFetchMany title call => exact starts (.callMany call) True.intro
  | await title =>
      exact session.reaches_withTask reported title
        (session.reaches_awaitTask reported)
  | isOver title =>
      exact session.reaches_withTask reported title fun _ => unchanged
  | abort title =>
      exact session.reaches_withTask reported title fun task =>
        starts (.abort task) True.intro
  | sleep milliseconds =>
      exact Logbook.reaches_passWithin session.settings _ _ _
        session.scheduler reported
  | _ =>
      -- All other commands are actions of the cache.
      exact Logbook.reaches_of_runs session.settings runs
        (session.scheduler_act _ _)

theorem reaches_report (command : Command Value) (answer : Answer Value) :
    Reaches session.settings ⟨session.scheduler, reported⟩
      ⟨(session.report command answer).2.scheduler,
        reported ++ (session.report command answer).1.fetchCalls⟩ :=
  ⟨[.report, .act (.quiet .emptyJournal)],
    ⟨True.intro, True.intro, True.intro⟩, rfl⟩

/-- A command is a run of moves, and its report tells which fetch functions
were called. -/
theorem reaches_execute (command : Command Value) :
    Reaches session.settings ⟨session.scheduler, reported⟩
      ⟨(session.execute command).2.scheduler,
        reported ++ (session.execute command).1.fetchCalls⟩ := by
  rw [execute]
  split
  · exact session.reaches_report reported command .noHandle
  · have sameSettings := (session.leads_perform command).settings_eq
    have performs := session.reaches_perform reported command
    have settles := Logbook.reaches_settle session.settings
      (session.perform command).2.scheduler reported
    have reports := reaches_report
      { (session.perform command).2 with
        scheduler := (session.perform command).2.scheduler.settle
          (session.perform command).2.settings }
      reported command (session.perform command).1
    dsimp only at reports ⊢
    rw [sameSettings] at reports ⊢
    exact trans_of (Reaches session.settings) performs
      (trans_of (Reaches session.settings) settles reports)

theorem reaches_follow (commands : List (Command Value)) :
    Reaches session.settings ⟨session.scheduler, reported⟩
      ⟨(session.follow commands).scheduler,
        reported ++ (session.run commands).flatMap (·.fetchCalls)⟩ := by
  induction commands generalizing session reported with
  | nil =>
      rw [run, List.flatMap_nil, List.append_nil]
      exact refl_of (Reaches session.settings) _
  | cons command commands inductionHypothesis =>
      have sameSettings := (session.leads_execute command).settings_eq
      have early := session.reaches_execute reported command
      have late := inductionHypothesis (session.execute command).2
        (reported ++ (session.execute command).1.fetchCalls)
      rw [sameSettings, List.append_assoc] at late
      exact trans_of (Reaches session.settings) early late

/-! ## At rest -/

/-- Between two commands nobody is ready, and the lists that a report empties
are empty. -/
structure AtRest (session : Session Value) : Prop where
  ready : session.scheduler.ready = []
  calls : session.scheduler.fetchCalls = #[]
  journal : session.scheduler.cache.journal = #[]

variable {session reported}

theorem atRest_execute
    (orderly : (session.scheduler.crew reported).Orderly)
    (atRest : session.AtRest) (command : Command Value) :
    (session.execute command).2.AtRest := by
  rw [execute]
  split
  · exact ⟨atRest.ready, rfl, rfl⟩
  · obtain ⟨moves, _, reached⟩ := session.reaches_perform reported command
    have ordered : (⟨session.scheduler, reported⟩ :
        Logbook Value).crew.Orderly := orderly
    have orderlyThen := Logbook.orderly_follow session.settings ordered moves
    rw [reached] at orderlyThen
    have settled := Scheduler.ready_settle
      (session.perform command).2.settings orderlyThen.manned
    exact ⟨settled, rfl, rfl⟩

end Commands

section Started

variable {settings : Settings} {hasBackground : Bool}
  {session : Session Value}
  (started : start settings hasBackground = .ok session)

include started

theorem scheduler_of_start :
    session.scheduler = Scheduler.start settings fun _ => [] := by
  rw [start, Scheduler.create] at started
  cases defect : settings.validate with
  | error failure =>
      rw [defect] at started
      cases started
  | ok _ =>
      rw [defect] at started
      dsimp only [bind, Except.bind] at started
      split at started
      next => cases started
      next scheduler created =>
        split at created
        · cases created
        · cases created
          cases started
          rfl

variable [Keyed Value]

/-- A session is a punctual run of moves from the start, and its reports tell
which fetch functions were called. -/
theorem exists_moves_of_follow (commands : List (Command Value)) :
    ∃ moves,
      Logbook.Punctual settings (.start settings fun _ => []) moves ∧
        Logbook.follow settings (.start settings fun _ => []) moves =
          ⟨(session.follow commands).scheduler,
            (session.run commands).flatMap (·.fetchCalls)⟩ := by
  have reached := session.reaches_follow [] commands
  rw [(start_inversion started).2.1, scheduler_of_start started] at reached
  exact reached

theorem orderly_follow (commands : List (Command Value)) :
    ((session.follow commands).scheduler.crew
      ((session.run commands).flatMap (·.fetchCalls))).Orderly := by
  obtain ⟨moves, _, reached⟩ := exists_moves_of_follow started commands
  have fresh : (Logbook.start settings fun _ => [] :
      Logbook Value).crew.Orderly :=
    Logbook.orderly_start settings fun _ => []
  have orderly := Logbook.orderly_follow settings fresh moves
  rw [reached] at orderly
  exact orderly

theorem atRest_follow (commands : List (Command Value)) :
    (session.follow commands).AtRest := by
  have sameScheduler := scheduler_of_start started
  have settled : session.AtRest := by
    constructor
    · rw [sameScheduler]
      rfl
    · rw [sameScheduler]
      rfl
    · rw [sameScheduler]
      rfl
  induction commands using List.reverseRecOn with
  | nil => exact settled
  | append_singleton commands command inductionHypothesis =>
      rw [follow, List.foldl_append]
      exact atRest_execute (orderly_follow started commands)
        inductionHypothesis command

/-- Between two commands, whoever waits for a flight waits for its leader, and
the leader fetches the name. -/
theorem fetches_of_waiting
    (commands : List (Command Value)) {task : TaskId} {flight : FlightId}
    {call : SingleCall Value}
    (waits : (session.follow commands).scheduler.tasks[task]? =
      some (.waiting flight call)) :
    ∃ joined leader,
      (session.follow commands).scheduler.flights[flight]? = some joined ∧
        joined.leader = some leader ∧ task ∈ joined.waiting ∧
          ((session.follow commands).scheduler.crew
            ((session.run commands).flatMap (·.fetchCalls))).Fetches
              leader joined.name := by
  have orderly := orderly_follow started commands
  have nobody := (atRest_follow started commands).ready
  have idle : ∀ other, other ∉ (session.follow commands).scheduler.ready := by
    intro other isReady
    rw [nobody] at isReady
    cases isReady
  obtain ⟨joined, there, _, rank⟩ := orderly.manned.aboard waits rfl
  have stuck := orderly.attends task flight call joined waits there
  have unlanded : joined.outcome = none := by
    by_contra landed
    exact idle task (stuck (Or.inr landed))
  have follows : joined.leader ≠ some task := by
    intro leads
    exact idle task (stuck (Or.inl leads))
  obtain ⟨leader, leads, place, fetches | isReady⟩ :=
    orderly.led waits there unlanded
  · refine ⟨joined, leader, there, leads, ?_, fetches⟩
    refine place.resolve_left fun same => ?_
    rw [same] at follows
    exact follows leads
  · exact absurd isReady (idle leader)

end Started

end Session

end ReadThrough
