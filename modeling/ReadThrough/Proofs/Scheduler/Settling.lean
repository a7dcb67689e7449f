import Mathlib.Algebra.Ring.Nat
import ReadThrough.Proofs.Scheduler.Turns

/-!
# Settling comes to an end

A ready task is worth one turn, and so is everybody who waits for a flight and
every call that has not begun.  No stroke adds to what they are worth together,
and a turn begins by spending one.  So when as many turns have been taken as
`pendingSteps` says, nobody is ready any more.
-/

namespace ReadThrough

open Relation (ReflTransGen)

namespace Crew

variable {Value Item : Type}

/-- What the items of an array are worth together. -/
def worth (weight : Item → Nat) (items : Array Item) : Nat :=
  (items.toList.map weight).sum

@[simp]
theorem worth_push (weight : Item → Nat) (items : Array Item) (item : Item) :
    worth weight (items.push item) = worth weight items + weight item := by
  simp [worth]

theorem worth_setIfInBounds
    {items : Array Item} {index : Nat} {old : Item}
    (found : items[index]? = some old) (weight : Item → Nat) (new : Item) :
    worth weight (items.setIfInBounds index new) + weight old =
      worth weight items + weight new := by
  obtain ⟨items⟩ := items
  simp only [worth, List.setIfInBounds_toArray, List.getElem?_toArray] at *
  induction items generalizing index with
  | nil => cases found
  | cons item items inductionHypothesis =>
      cases index with
      | zero =>
          cases found
          simp only [List.set_cons_zero, List.map_cons, List.sum_cons]
          omega
      | succ index =>
          have rest := inductionHypothesis found
          simp only [List.set_cons_succ, List.map_cons, List.sum_cons]
          omega

/-- How many turns can be taken without time passing, at most. -/
def pendingTurns (crew : Crew Value) : Nat :=
  crew.ready.length + worth (·.waiting.length) crew.flights +
    worth (·.isUnbegun.toNat) crew.tasks

variable {crew next : Crew Value} {task : TaskId}

theorem Stroke.pendingTurns_le (stroke : Stroke task crew next) :
    next.pendingTurns ≤ crew.pendingTurns := by
  have placed : ∀ {tasks : Array (Stage Value)} {stage : Stage Value}
      (rest : Stage Value), tasks[task]? = some stage →
        rest.isUnbegun = false →
          worth (·.isUnbegun.toNat) (tasks.setIfInBounds task rest) +
            stage.isUnbegun.toNat = worth (·.isUnbegun.toNat) tasks := by
    intro tasks stage rest found begun
    have sum := worth_setIfInBounds found (·.isUnbegun.toNat) rest
    simp only [begun] at sum
    exact sum
  have seated : ∀ {flight : FlightId} {joined : Flight Value}
      (changed : Flight Value), crew.flights[flight]? = some joined →
        worth (·.waiting.length) (crew.flights.setIfInBounds flight changed) +
            joined.waiting.length =
          worth (·.waiting.length) crew.flights + changed.waiting.length :=
    fun changed there => worth_setIfInBounds there (·.waiting.length) changed
  simp only [pendingTurns]
  cases stroke with
  | notes labels => exact Nat.le_refl _
  | settles found running ashore stays begun =>
      have tasks := placed _ found begun
      simp only [put]
      omega
  | @delegates stage rest errand call found unbegun stays begun free own =>
      have still := getElem?_push_of_found found (.called errand)
      have tasks := placed rest still begun
      have hired : (Stage.called errand).isUnbegun.toNat = 0 := rfl
      simp only [worth_push, unbegun, Bool.toNat_true, hired] at tasks
      simp only [put, spawn, note, List.length_append, List.length_singleton]
      omega
  | @opens call found vacant =>
      have tasks := placed (.waiting crew.flights.size call) found rfl
      simp only [put, worth_push, List.length_nil]
      omega
  | @takes call flight joined found listed there free =>
      have tasks := placed (.waiting flight call) found rfl
      have flights := seated { joined with leader := some task } there
      dsimp only at flights
      simp only [put, seat]
      omega
  | @joins call flight joined leader found listed there led =>
      have tasks := placed (.waiting flight call) found rfl
      have flights := seated
        { joined with waiting := joined.waiting ++ [task] } there
      have unbegun : (Stage.single call).isUnbegun.toNat = 1 := rfl
      simp only [List.length_append, List.length_singleton] at flights
      simp only [put, seat]
      omega
  | @fetches call flight joined wakeAt found there leads =>
      have tasks := placed (.asleep (.complete flight call) wakeAt) found rfl
      simp only [put, note]
      omega
  | @lands stage flight name joined outcome found aboard there leads =>
      have tasks := placed (.over (.returned (outcome.map .one))) found rfl
      have flights := seated (joined.landedWith outcome) there
      have nobody : (joined.landedWith outcome).waiting.length = 0 := rfl
      simp only [land, put, seat, List.length_append]
      omega
  | @leaves stage flight name joined verdict unanswered found aboard there
      leads =>
      have tasks := placed (.over verdict) found rfl
      have flights := seated joined.handedOver there
      have promoted : joined.handedOver.waiting.length +
          joined.waiting.head?.toList.length = joined.waiting.length := by
        rw [Flight.handedOver]
        cases joined.waiting with
        | nil => rfl
        | cons first rest => rfl
      simp only [leave, put, seat, List.length_append]
      omega
  | @quits call flight joined found there follows =>
      have tasks := placed (.over .cancelled) found rfl
      have flights := seated
        { joined with waiting := joined.waiting.filter (· ≠ task) } there
      have fewer := List.length_filter_le (· ≠ task) joined.waiting
      dsimp only at flights
      simp only [put, seat]
      omega
  | @learns call flight joined outcome found there landed =>
      have tasks := placed (.over (.returned (outcome.map .one))) found rfl
      simp only [put]
      omega

theorem pendingTurns_le_of_strokes
    (strokes : ReflTransGen (Stroke task) crew next) :
    next.pendingTurns ≤ crew.pendingTurns := by
  induction strokes with
  | refl => exact Nat.le_refl _
  | tail _ stroke inductionHypothesis =>
      exact Nat.le_trans stroke.pendingTurns_le inductionHypothesis

end Crew

namespace Scheduler

variable {Value : Type} {scheduler : Scheduler Value}
  {reported : List FetchCall}

theorem pendingSteps_eq :
    scheduler.pendingSteps = (scheduler.crew reported).pendingTurns := by
  have waiting : ∀ flights : List (Flight Value),
      flights.foldr (fun flight total => flight.waiting.length + total) 0 =
        (flights.map (·.waiting.length)).sum := by
    intro flights
    induction flights with
    | nil => rfl
    | cons flight flights inductionHypothesis =>
        rw [List.foldr_cons, List.map_cons, List.sum_cons,
          inductionHypothesis]
  have unbegun : ∀ tasks : List (Stage Value),
      tasks.countP Stage.isUnbegun =
        (tasks.map (·.isUnbegun.toNat)).sum := by
    intro tasks
    induction tasks with
    | nil => rfl
    | cons stage tasks inductionHypothesis =>
        rw [List.countP_cons, List.map_cons, List.sum_cons,
          inductionHypothesis]
        cases stage.isUnbegun with
        | true => simp [Nat.add_comm]
        | false => simp
  rw [pendingSteps, Crew.pendingTurns, waiting, ← Array.countP_toList,
    unbegun]
  rfl

variable [Keyed Value] (settings : Settings)

theorem ready_settleWithin {limit : Nat}
    (manned : (scheduler.crew reported).Manned)
    (enough : (scheduler.crew reported).pendingTurns ≤ limit) :
    (settleWithin settings limit scheduler).ready = [] := by
  induction limit generalizing scheduler with
  | zero =>
      have nobody : scheduler.ready.length = 0 := by
        have bound : scheduler.ready.length ≤
            (scheduler.crew reported).pendingTurns := by
          simp only [Crew.pendingTurns, crew]
          omega
        omega
      exact List.length_eq_zero_iff.mp nobody
  | succ limit inductionHypothesis =>
      rw [settleWithin]
      split
      next nobody => exact nobody
      next task rest ready =>
        have mannedRest : (crew { scheduler with ready := rest }
            reported).Manned := manned.noting _ _
        have turn : Crew.Turn task _ _ := turn_step settings mannedRest
        have mannedAfter := mannedRest.strokes turn.strokes
        apply inductionHypothesis mannedAfter
        -- Taking the task out of the ready ones spends what the turn costs.
        have less := Crew.pendingTurns_le_of_strokes turn.strokes
        have spent : (crew { scheduler with ready := rest }
            reported).pendingTurns + 1 =
              (scheduler.crew reported).pendingTurns := by
          simp only [Crew.pendingTurns, crew, ready, List.length_cons]
          omega
        omega

/-- When a scheduler has settled, nobody is ready. -/
theorem ready_settle (manned : (scheduler.crew reported).Manned) :
    (settle settings scheduler).ready = [] := by
  have enough : (scheduler.crew reported).pendingTurns ≤
      scheduler.pendingSteps := Nat.le_of_eq pendingSteps_eq.symm
  exact ready_settleWithin settings manned enough

end Scheduler

end ReadThrough
