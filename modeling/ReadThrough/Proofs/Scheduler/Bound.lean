import Mathlib.Data.List.Induction
import ReadThrough.Proofs.Scheduler.Errands
import ReadThrough.Proofs.Scheduler.Moves

/-!
# Calls that are left to themselves

From its first turn on, a call that is left to itself is bound for one `Outcome`:
what it will have made of the cache, how many fetches will have been called, and
how it will have ended, the refresh in the background included (`Bound`).

`outcome_of_attended` says that it comes to its outcome and to no other.
-/

namespace ReadThrough

open Std (ExtTreeMap)

variable {Value : Type}

/-- What comes of a call and of the refresh that it may delegate. -/
structure Outcome (Value : Type) where
  cache : Cache Value
  /-- The number of calls of fetch functions. -/
  calls : Nat
  verdict : Verdict Value

/-- Whoever is left to a task and the next one does no more than let time pass
and let these two take turns. -/
def Move.Attends (task : TaskId) : Move Value → Prop
  | .pass _ => True
  | .wake => True
  | .turn other => other = task ∨ other = task + 1
  | _ => False

instance (task : TaskId) : (move : Move Value) → Decidable (move.Attends task)
  | .pass _ => inferInstanceAs (Decidable True)
  | .wake => inferInstanceAs (Decidable True)
  | .turn other =>
      inferInstanceAs (Decidable (other = task ∨ other = task + 1))
  | .call _ => inferInstanceAs (Decidable False)
  | .callMany _ => inferInstanceAs (Decidable False)
  | .abort _ => inferInstanceAs (Decidable False)
  | .act _ => inferInstanceAs (Decidable False)
  | .tick => inferInstanceAs (Decidable False)
  | .hold _ => inferInstanceAs (Decidable False)
  | .report => inferInstanceAs (Decidable False)

namespace Scheduler

variable [Keyed Value] {settings : Settings} {scheduler : Scheduler Value}
  {task : TaskId} {outcome : Outcome Value}

/-- A task and the next one, its refresh, are bound for an outcome. -/
inductive Bound (settings : Settings) (task : TaskId)
    (outcome : Outcome Value) (scheduler : Scheduler Value) : Prop
  /-- Both are over. -/
  | ended
      (own : scheduler.tasks[task]? = some (.over outcome.verdict))
      (others : ∀ stage, scheduler.tasks[task + 1]? = some stage →
        stage.isOver = true)
      (cache : scheduler.cache = outcome.cache)
      (calls : scheduler.fetchCalls.size = outcome.calls)
  /-- The task has called its fetch and delegates nothing. -/
  | fetches {errand : Errand Value} {stage : Stage Value}
      (own : scheduler.tasks[task]? = some stage)
      (pends : stage.Pends errand)
      (alone : scheduler.tasks[task + 1]? = none)
      (cache : errand.leaves settings scheduler.cache = outcome.cache)
      (calls : scheduler.fetchCalls.size = outcome.calls)
      (verdict : errand.verdict settings scheduler.cache = outcome.verdict)
  /-- The task is over, and its refresh has called its fetch. -/
  | refreshes {errand : Errand Value} {stage : Stage Value}
      (own : scheduler.tasks[task]? = some (.over outcome.verdict))
      (other : scheduler.tasks[task + 1]? = some stage)
      (pends : stage.Pends errand)
      (cache : errand.leaves settings scheduler.cache = outcome.cache)
      (calls : scheduler.fetchCalls.size = outcome.calls)

/-- Nothing but the tasks, the cache and the calls of fetches matters. -/
theorem Bound.of_eq {next : Scheduler Value}
    (bound : Bound settings task outcome scheduler)
    (tasks : next.tasks = scheduler.tasks)
    (cached : next.cache = scheduler.cache)
    (called : next.fetchCalls = scheduler.fetchCalls) :
    Bound settings task outcome next := by
  cases bound with
  | ended own others cache calls =>
      refine .ended ?_ ?_ ?_ ?_
      · rw [tasks, own]
      · rwa [tasks]
      · rw [cached, cache]
      · rw [called, calls]
  | fetches own pends alone cache calls verdict =>
      refine .fetches ?_ pends ?_ ?_ ?_ ?_
      · rw [tasks, own]
      · rw [tasks, alone]
      · rw [cached, cache]
      · rw [called, calls]
      · rw [cached, verdict]
  | refreshes own other pends cache calls =>
      refine .refreshes ?_ ?_ pends ?_ ?_
      · rw [tasks, own]
      · rw [tasks, other]
      · rw [cached, cache]
      · rw [called, calls]

theorem Bound.of_ashore {next : Scheduler Value}
    (bound : Bound settings task outcome scheduler)
    (same : next.ashore = scheduler.ashore) :
    Bound settings task outcome next :=
  bound.of_eq (tasks_of_ashore same) (cache_of_ashore same)
    (fetchCalls_of_ashore same)

theorem Bound.step_own (bound : Bound settings task outcome scheduler) :
    Bound settings task outcome (step settings scheduler task) := by
  cases bound with
  | ended own others cache calls =>
      rw [step_of_over own]
      exact .ended own others cache calls
  | refreshes own other pends cache calls =>
      rw [step_of_over own]
      exact .refreshes own other pends cache calls
  | @fetches errand stage own pends alone cache calls verdict =>
      have stages := Crew.getElem?_setIfInBounds_of_found own
      rcases step_of_pending scheduler task settings pends own with
        same | ⟨wakeAt, sleeps⟩ | ends
      · rw [same]
        exact .fetches own pends alone cache calls verdict
      · rw [sleeps]
        refine .fetches ?_ (Or.inr ⟨wakeAt, rfl⟩) ?_ cache calls verdict
        · simp only [setStage, stages, if_true]
        · simp only [setStage, stages, Nat.succ_ne_self, if_false, alone]
      · rw [ends]
        refine Bound.of_ashore ?_
          (ashore_conclude scheduler task settings errand)
        refine .ended ?_ ?_ cache calls
        · simp only [finish, setStage, stages, if_true, verdict]
        · simp only [finish, setStage, stages, Nat.succ_ne_self, if_false,
            alone]
          exact fun stage absurdity => by cases absurdity

theorem Bound.step_next (bound : Bound settings task outcome scheduler) :
    Bound settings task outcome
      (step settings scheduler (task + 1)) := by
  cases bound with
  | ended own others cache calls =>
      have idle : step settings scheduler (task + 1) = scheduler := by
        cases found : scheduler.tasks[task + 1]? with
        | none => exact step_of_none found
        | some stage =>
            have finished := others stage found
            cases stage with
            | «over» verdict => exact step_of_over found
            | _ => cases finished
      rw [idle]
      exact .ended own others cache calls
  | fetches own pends alone cache calls verdict =>
      rw [step_of_none alone]
      exact .fetches own pends alone cache calls verdict
  | @refreshes errand stage own other pends cache calls =>
      have stages := Crew.getElem?_setIfInBounds_of_found other
      rcases step_of_pending scheduler (task + 1) settings pends other with
        same | ⟨wakeAt, sleeps⟩ | ends
      · rw [same]
        exact .refreshes own other pends cache calls
      · rw [sleeps]
        refine .refreshes ?_ ?_ (Or.inr ⟨wakeAt, rfl⟩) cache calls
        · simp only [setStage, stages, (Nat.succ_ne_self task).symm,
            if_false, own]
        · simp only [setStage, stages, if_true]
      · rw [ends]
        refine Bound.of_ashore ?_
          (ashore_conclude scheduler (task + 1) settings errand)
        refine .ended ?_ ?_ cache calls
        · simp only [finish, setStage, stages,
            (Nat.succ_ne_self task).symm, if_false, own]
        · simp only [finish, setStage, stages, if_true]
          intro stage sameStage
          cases sameStage
          rfl

/-- Once both tasks are over, the outcome is there. -/
theorem Bound.of_over
    (bound : Bound settings task outcome scheduler)
    (own : scheduler.isOver task = true)
    (others : scheduler.isOver (task + 1) = true) :
    scheduler.tasks[task]? = some (.over outcome.verdict) ∧
      scheduler.cache = outcome.cache ∧
        scheduler.fetchCalls.size = outcome.calls := by
  have running : ∀ {errand : Errand Value} {stage : Stage Value},
      stage.Pends errand → stage.isOver = false := by
    rintro errand stage (rfl | ⟨wakeAt, rfl⟩)
    · rfl
    · rfl
  cases bound with
  | ended found _ cache calls => exact ⟨found, cache, calls⟩
  | fetches found pends =>
      rw [isOver, found, Option.all_some, running pends] at own
      cases own
  | refreshes _ found pends =>
      rw [isOver, found, Option.all_some, running pends] at others
      cases others

/-! ## First turns -/

section Opening

variable {stage : Stage Value} (count : scheduler.tasks.size = task + 1)
  (found : scheduler.tasks[task]? = some stage)

include count found

variable (settings scheduler) in
theorem bound_finish (verdict : Verdict Value) :
    Bound settings task
      ⟨scheduler.cache, scheduler.fetchCalls.size, verdict⟩
      (scheduler.finish task verdict) := by
  refine .ended ?_ ?_ rfl rfl
  · exact Crew.getElem?_setIfInBounds_self_of_found found _
  · intro other there
    have inside := (Array.getElem?_eq_some_iff.mp there).1
    simp only [finish, setStage, Array.size_setIfInBounds, count] at inside
    exact absurd inside (Nat.lt_irrefl _)

variable (settings scheduler) in
/-- A call that delegates a refresh. -/
theorem bound_delegate
    (call : FetchCall) (errand : Errand Value) (verdict : Verdict Value) :
    Bound settings task
      ⟨errand.leaves settings scheduler.cache,
        scheduler.fetchCalls.size + 1, verdict⟩
      (((scheduler.noteCall call).spawn (.called errand)).finish task
        verdict) := by
  have pushed := Crew.getElem?_push_of_found found (.called errand)
  have stages := Crew.getElem?_setIfInBounds_of_found pushed
    (.over verdict)
  refine Bound.refreshes ?_ ?_ (Or.inl rfl) rfl ?_
  · exact (stages task).trans (if_pos rfl)
  · refine (stages (task + 1)).trans ?_
    rw [if_neg (Nat.succ_ne_self task), ← count]
    exact Array.getElem?_push_size
  · exact Array.size_push _

variable (settings scheduler) in
/-- A call that waits for its fetch. -/
theorem bound_await (errand : Errand Value) :
    Bound settings task
      ⟨errand.leaves settings scheduler.cache, scheduler.fetchCalls.size,
        errand.verdict settings scheduler.cache⟩
      (await settings scheduler task errand) := by
  rcases await_eq scheduler task settings errand with sleeps | ⟨_, ends⟩
  · rw [sleeps]
    refine .fetches (Crew.getElem?_setIfInBounds_self_of_found found _)
      (Or.inr ⟨_, rfl⟩) ?_ rfl rfl rfl
    rw [Array.getElem?_eq_none_iff]
    simp only [setStage, Array.size_setIfInBounds, count, Nat.le_refl]
  · rw [ends]
    refine Bound.of_ashore ?_
      (ashore_conclude scheduler task settings errand)
    exact bound_finish settings { scheduler with
      cache := errand.leaves settings scheduler.cache } count found _

end Opening

end Scheduler

/-! ## Runs of a call that is left to itself -/

namespace Logbook

variable [Keyed Value] {settings : Settings} {base : Scheduler Value}
  {task : TaskId} {outcome : Outcome Value} {moves : List (Move Value)}

open Scheduler (Bound)

/-- A call that is left to itself has not had its first turn or is bound for
its outcome. -/
inductive Fares (settings : Settings) (task : TaskId)
    (outcome : Outcome Value) (base : Scheduler Value) :
    Scheduler Value → Prop
  | waits (time : Nat) (ready : List TaskId) :
      Fares settings task outcome base
        { base with time := time, ready := ready }
  | bound {scheduler : Scheduler Value}
      (bound : Bound settings task outcome scheduler) :
      Fares settings task outcome base scheduler

section Fares

variable (count : base.tasks.size = task + 1)
  (opens : ∀ time ready, Bound settings task outcome
    (Scheduler.step settings
      { base with time := time, ready := ready } task))

include count opens

theorem fares_after
    {logbook : Logbook Value} {move : Move Value}
    (attends : move.Attends task)
    (fares : Fares settings task outcome base logbook.scheduler) :
    Fares settings task outcome base
      (after settings logbook move).scheduler := by
  obtain ⟨scheduler, reported⟩ := logbook
  cases move with
  | pass milliseconds =>
      cases fares with
      | waits time ready => exact .waits (time + milliseconds) ready
      | bound bound => exact .bound (bound.of_eq rfl rfl rfl)
  | wake =>
      cases fares with
      | waits time ready => exact .waits time _
      | bound bound => exact .bound (bound.of_eq rfl rfl rfl)
  | turn other =>
      cases fares with
      | waits time ready =>
          rcases attends with rfl | rfl
          · exact .bound (opens time (ready.erase other))
          · have nobody : base.tasks[task + 1]? = none :=
              Array.getElem?_eq_none_iff.mpr (Nat.le_of_eq count)
            let next : Scheduler Value :=
              { base with time := time, ready := ready.erase (task + 1) }
            have idle : Scheduler.step settings next (task + 1) = next :=
              Scheduler.step_of_none nobody
            rw [after]
            dsimp only
            rw [idle]
            exact .waits time (ready.erase (task + 1))
      | bound bound =>
          have noted : Bound settings task outcome
              { scheduler with ready := scheduler.ready.erase other } :=
            bound.of_eq rfl rfl rfl
          rcases attends with rfl | rfl
          · exact .bound noted.step_own
          · exact .bound noted.step_next
  | _ => exact attends.elim

theorem fares_follow
    (reported : List FetchCall)
    (attended : ∀ move ∈ moves, move.Attends task) :
    Fares settings task outcome base
      (follow settings ⟨base, reported⟩ moves).scheduler := by
  induction moves using List.reverseRecOn with
  | nil => exact .waits base.time base.ready
  | append_singleton moves move inductionHypothesis =>
      obtain ⟨early, last⟩ := List.forall_mem_append.mp attended
      rw [follow_append_singleton]
      exact fares_after count opens (last move List.mem_cons_self)
        (inductionHypothesis early)

end Fares

/-- A task comes to its end, and the others go on as they are. -/
structure Retires (task : TaskId) (before after : Scheduler Value) :
    Prop where
  own : after.isOver task = true
  others : ∀ other, other ≠ task →
    after.tasks[other]? = before.tasks[other]?

theorem retires_conclude
    (settings : Settings) (scheduler : Scheduler Value) {stage : Stage Value}
    (found : scheduler.tasks[task]? = some stage) (errand : Errand Value) :
    Retires task scheduler
      (Scheduler.conclude settings scheduler task errand) := by
  have tasks := Scheduler.tasks_of_ashore
    (Scheduler.ashore_conclude scheduler task settings errand)
  have stages := Crew.getElem?_setIfInBounds_of_found found
    (.over (errand.verdict settings scheduler.cache))
  constructor
  · rw [Scheduler.isOver, tasks]
    exact congrArg (Option.all Stage.isOver)
      ((stages task).trans (if_pos rfl))
  · intro other apart
    rw [tasks]
    exact (stages other).trans (if_neg apart)

theorem retires_of_asleep
    (settings : Settings) {scheduler : Scheduler Value}
    {errand : Errand Value} {wakeAt : Nat}
    (asleep : scheduler.tasks[task]? = some (.asleep errand wakeAt))
    (reported : List FetchCall) :
    Retires task scheduler
      (follow settings ⟨scheduler, reported⟩
        [.pass wakeAt, .turn task]).scheduler := by
  have due : wakeAt ≤ scheduler.time + wakeAt := Nat.le_add_left _ _
  have retires := retires_conclude settings
    { scheduler with
      time := scheduler.time + wakeAt
      ready := scheduler.ready.erase task } asleep errand
  simp only [follow_cons, follow_nil, after, Scheduler.step, asleep,
    if_pos due]
  exact ⟨retires.own, retires.others⟩

/-- A task that has called a fetch for an errand comes to its end if it is
attended. -/
theorem exists_moves_of_pending
    (settings : Settings) {scheduler : Scheduler Value} {errand : Errand Value}
    {stage : Stage Value}
    (found : scheduler.tasks[task]? = some stage)
    (pends : stage.Pends errand) (reported : List FetchCall) :
    ∃ moves : List (Move Value),
      (∀ move ∈ moves, (∃ wait, move = .pass wait) ∨ move = .turn task) ∧
        Retires task scheduler
          (follow settings ⟨scheduler, reported⟩ moves).scheduler := by
  rcases pends with rfl | ⟨wakeAt, rfl⟩
  · -- After its turn the task is asleep, unless its fetch takes no time.
    let noted : Scheduler Value :=
      { scheduler with ready := scheduler.ready.erase task }
    have turn : after settings ⟨scheduler, reported⟩ (.turn task) =
        ⟨Scheduler.await settings noted task errand, reported⟩ := by
      simp only [after, Scheduler.step, found]
      rfl
    rcases Scheduler.await_eq noted task settings errand with
      sleeps | ⟨_, instantly⟩
    · have stages := Crew.getElem?_setIfInBounds_of_found found
        (.asleep errand (noted.time + errand.delay))
      have asleep : (noted.setStage task (.asleep errand
          (noted.time + errand.delay))).tasks[task]? = some (.asleep errand _) :=
        (stages task).trans (if_pos rfl)
      have retires := retires_of_asleep settings asleep reported
      refine ⟨[.turn task, .pass (noted.time + errand.delay),
        .turn task], by simp, ?_⟩
      rw [follow_cons, turn, sleeps]
      refine ⟨retires.own, fun other apart => ?_⟩
      exact (retires.others other apart).trans
        ((stages other).trans (if_neg apart))
    · have retires := retires_conclude settings noted found errand
      refine ⟨[.turn task], by simp, ?_⟩
      rw [follow_cons, follow_nil, turn, instantly]
      exact ⟨retires.own, retires.others⟩
  · exact ⟨[.pass wakeAt, .turn task], by simp,
      retires_of_asleep settings found reported⟩

/-- A task and the next one, its refresh, have come to their ends. -/
def Finished (logbook : Logbook Value) (task : TaskId) : Prop :=
  logbook.scheduler.isOver task = true ∧
    logbook.scheduler.isOver (task + 1) = true

instance (logbook : Logbook Value) (task : TaskId) :
    Decidable (logbook.Finished task) :=
  inferInstanceAs (Decidable (_ ∧ _))

/-- Whatever is bound for an outcome comes to it if it is attended. -/
theorem exists_moves_of_bound
    {scheduler : Scheduler Value}
    (bound : Bound settings task outcome scheduler)
    (reported : List FetchCall) :
    ∃ moves : List (Move Value), (∀ move ∈ moves, move.Attends task) ∧
      (follow settings ⟨scheduler, reported⟩ moves).Finished task := by
  cases bound with
  | ended own others cache calls =>
      refine ⟨[], by simp, ?_, ?_⟩
      · simp [Scheduler.isOver, own, Stage.isOver]
      · rw [follow_nil, Scheduler.isOver, Option.all_eq_true]
        exact others
  | fetches own pends alone cache calls verdict =>
      obtain ⟨moves, attends, retires⟩ :=
        exists_moves_of_pending settings own pends reported
      refine ⟨moves, ?_, retires.own, ?_⟩
      · intro move member
        rcases attends move member with ⟨wait, rfl⟩ | rfl
        · trivial
        · exact Or.inl rfl
      · rw [Scheduler.isOver,
          retires.others _ (Nat.succ_ne_self task), alone]
        rfl
  | refreshes own other pends cache calls =>
      obtain ⟨moves, attends, retires⟩ :=
        exists_moves_of_pending settings other pends reported
      refine ⟨moves, ?_, ?_, retires.own⟩
      · intro move member
        rcases attends move member with ⟨wait, rfl⟩ | rfl
        · trivial
        · exact Or.inr rfl
      · rw [Scheduler.isOver,
          retires.others _ (Nat.succ_ne_self task).symm, own]
        rfl

/-- A call that has not begun and is left to itself comes to its outcome and to
no other. -/
theorem outcome_of_attended
    (settings : Settings) (base : Scheduler Value)
    (reported : List FetchCall) (outcome : Outcome Value)
    {stage : Stage Value}
    (count : base.tasks.size = task + 1)
    (unbegun : base.tasks[task]? = some stage)
    (waits : stage.isOver = false)
    (opens : ∀ time ready, Bound settings task outcome
      (Scheduler.step settings
        { base with time := time, ready := ready } task)) :
    (∃ moves : List (Move Value), (∀ move ∈ moves, move.Attends task) ∧
        (follow settings ⟨base, reported⟩ moves).Finished task) ∧
      ∀ moves : List (Move Value), (∀ move ∈ moves, move.Attends task) →
        (follow settings ⟨base, reported⟩ moves).Finished task →
          (follow settings ⟨base, reported⟩ moves).scheduler.tasks[task]? =
              some (.over outcome.verdict) ∧
            (follow settings ⟨base, reported⟩ moves).scheduler.cache =
                outcome.cache ∧
              (follow settings ⟨base, reported⟩
                  moves).scheduler.fetchCalls.size = outcome.calls := by
  constructor
  · have opened := opens base.time (base.ready.erase task)
    obtain ⟨moves, attends, finished⟩ :=
      exists_moves_of_bound opened reported
    refine ⟨.turn task :: moves, ?_, finished⟩
    exact List.forall_mem_cons.mpr ⟨Or.inl rfl, attends⟩
  · intro moves attends finished
    have fares := fares_follow count opens reported attends
    obtain ⟨own, others⟩ := finished
    generalize (follow settings ⟨base, reported⟩ moves).scheduler =
      scheduler at *
    cases fares with
    | waits time ready =>
        change Option.all Stage.isOver base.tasks[task]? = true at own
        rw [unbegun, Option.all_some, waits] at own
        cases own
    | bound bound => exact bound.of_over own others

end Logbook

end ReadThrough
