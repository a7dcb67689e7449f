import Mathlib.Logic.Relation
import ReadThrough.Proofs.Scheduler.Turns

/-!
# What strokes keep

A stroke of one task leaves the stages of the others as they are, and a task
that has ended as it is.  It calls no fetch of another task, and nobody calls
its own fetch twice.
-/

namespace ReadThrough

open Relation (ReflTransGen)

/-- The task that called a fetch of its own. -/
def FetchCall.caller? : FetchCall → Option TaskId
  | .one caller _ => some caller
  | .many _ _ => none

/-- The name whose fetch was called. -/
def FetchCall.name? : FetchCall → Option String
  | .one _ name => some name
  | .many _ _ => none

/-- Whether the task may still call its own fetch. -/
def Stage.isPending {Value : Type} : Stage Value → Bool
  | .single _ => true
  | .batch _ => true
  | .waiting _ _ => true
  | _ => false

theorem Stage.isPending_eq_false
    {Value : Type} {stage : Stage Value} (ashore : stage.aboard? = none)
    (begun : stage.isUnbegun = false) : stage.isPending = false := by
  cases stage with
  | single call => cases begun
  | batch call => cases begun
  | called errand => rfl
  | asleep errand wakeAt => rfl
  | waiting flight call => cases ashore
  | «over» verdict => rfl

theorem Stage.isPending_of_isUnbegun
    {Value : Type} {stage : Stage Value} (unbegun : stage.isUnbegun = true) :
    stage.isPending = true := by
  cases stage with
  | single call => rfl
  | batch call => rfl
  | called errand => cases unbegun
  | asleep errand wakeAt => cases unbegun
  | waiting flight call => rfl
  | «over» verdict => cases unbegun

namespace Crew

variable {Value : Type} {crew next : Crew Value} {task other : TaskId}
  {flight : FlightId} {joined : Flight Value}

/-- What every stroke keeps, a whole turn keeps. -/
theorem Manned.keeps {holds : Crew Value → Prop}
    (manned : crew.Manned)
    (step : ∀ {before after : Crew Value}, before.Manned →
      Stroke task before after → holds before → holds after)
    (strokes : ReflTransGen (Stroke task) crew next) (base : holds crew) :
    holds next := by
  induction strokes with
  | refl => exact base
  | tail earlier stroke inductionHypothesis =>
      exact step (manned.strokes earlier) stroke inductionHypothesis

/-! ## Stages -/

theorem Stroke.stage_other {stage : Stage Value}
    (stroke : Stroke task crew next) (apart : other ≠ task)
    (found : crew.tasks[other]? = some stage) :
    next.tasks[other]? = some stage := by
  have kept : ∀ {tasks : Array (Stage Value)} (rest : Stage Value),
      tasks[other]? = some stage →
        (tasks.setIfInBounds task rest)[other]? = some stage := by
    intro tasks rest before
    rw [Array.getElem?_setIfInBounds_ne (Ne.symm apart), before]
  cases stroke with
  | notes labels => exact found
  | delegates atTask unbegun stays begun free own =>
      exact kept _ (getElem?_push_of_found found _)
  | settles => exact kept _ found
  | opens => exact kept _ found
  | takes => exact kept _ found
  | joins => exact kept _ found
  | fetches => exact kept _ found
  | lands => exact kept _ found
  | leaves => exact kept _ found
  | quits => exact kept _ found
  | learns => exact kept _ found

/-- Nobody makes a stroke after the end, unless to note a call. -/
theorem Stroke.of_over {verdict : Verdict Value}
    (stroke : Stroke task crew next)
    (finished : crew.tasks[task]? = some (.over verdict)) :
    ∃ labels, next = crew.note (.many task labels) := by
  cases stroke with
  | notes labels => exact ⟨labels, rfl⟩
  | settles found running =>
      cases finished.symm.trans found
      cases running
  | delegates found unbegun =>
      cases finished.symm.trans found
      cases unbegun
  | opens found => cases finished.symm.trans found
  | takes found => cases finished.symm.trans found
  | joins found => cases finished.symm.trans found
  | fetches found => cases finished.symm.trans found
  | lands outcome found aboard =>
      cases finished.symm.trans found
      cases aboard
  | leaves verdict unanswered found aboard =>
      cases finished.symm.trans found
      cases aboard
  | quits found => cases finished.symm.trans found
  | learns found => cases finished.symm.trans found

/-- A task that has ended stays as it is. -/
theorem Stroke.over {verdict : Verdict Value}
    (stroke : Stroke task crew next)
    (finished : crew.tasks[other]? = some (.over verdict)) :
    next.tasks[other]? = some (.over verdict) := by
  by_cases same : other = task
  · subst same
    obtain ⟨labels, rfl⟩ := stroke.of_over finished
    exact finished
  · exact stroke.stage_other same finished

/-! ## Calls -/

/-- How often a task has called its own fetch. -/
def callsBy (crew : Crew Value) (task : TaskId) : Nat :=
  crew.calls.countP fun call => call.caller? = some task

/-- How often a fetch of a name alone was called. -/
def callsOf (crew : Crew Value) (name : String) : Nat :=
  crew.calls.countP fun call => call.name? = some name

/-- Whether a task, if there is one, may still call its own fetch. -/
def Pending (crew : Crew Value) (task : TaskId) : Prop :=
  ∀ stage, crew.tasks[task]? = some stage → stage.isPending = true

/-- Nobody has called its fetch twice, or before its time. -/
structure Sparing (crew : Crew Value) : Prop where
  once : ∀ task, crew.callsBy task ≤ 1
  pending : ∀ task, crew.Pending task → crew.callsBy task = 0

theorem callsBy_note_one (name : String) :
    (crew.note (.one task name)).callsBy other =
      crew.callsBy other + if other = task then 1 else 0 := by
  by_cases same : other = task
  · simp [callsBy, note, FetchCall.caller?, same]
  · simp [callsBy, note, FetchCall.caller?, same, Ne.symm same]

@[simp]
theorem callsBy_note_many (caller : TaskId) (labels : List String) :
    (crew.note (.many caller labels)).callsBy other =
      crew.callsBy other := by
  simp [callsBy, note, FetchCall.caller?]

/-- A task that is put into a stage may call its fetch only if it could
before. -/
theorem pending_of_put {stage rest : Stage Value}
    (found : crew.tasks[task]? = some stage)
    (spends : rest.isPending = true → stage.isPending = true)
    (pending : (crew.put task rest).Pending other) : crew.Pending other := by
  intro before beforeFound
  by_cases same : other = task
  · subst same
    have inside := (Array.getElem?_eq_some_iff.mp found).1
    have restPending :=
      pending rest (Array.getElem?_setIfInBounds_self_of_lt inside)
    cases found.symm.trans beforeFound
    exact spends restPending
  · have still : (crew.put task rest).tasks[other]? = some before := by
      rw [put, Array.getElem?_setIfInBounds_ne (Ne.symm same), beforeFound]
    exact pending before still

theorem pending_of_spawn {stage : Stage Value}
    (pending : (crew.spawn stage).Pending other) : crew.Pending other := by
  intro before found
  exact pending before (getElem?_push_of_found found stage)

theorem Sparing.of_same
    (sparing : crew.Sparing)
    (calls : ∀ task, next.callsBy task = crew.callsBy task)
    (pending : ∀ task, next.Pending task → crew.Pending task) :
    next.Sparing := by
  constructor
  · intro caller
    rw [calls caller]
    exact sparing.once caller
  · intro caller isPending
    rw [calls caller]
    exact sparing.pending caller (pending caller isPending)

/-- A task that could call its fetch has done so, and cannot again. -/
theorem Sparing.spend {rest : Stage Value}
    (sparing : crew.Sparing)
    (unspent : crew.Pending task)
    (found : next.tasks[task]? = some rest)
    (spent : rest.isPending = false)
    (calls : ∀ caller, next.callsBy caller =
      crew.callsBy caller + if caller = task then 1 else 0)
    (pending : ∀ caller, next.Pending caller → crew.Pending caller) :
    next.Sparing := by
  constructor
  · intro caller
    rw [calls caller]
    split
    next same =>
      have unused := sparing.pending task unspent
      rw [same]
      omega
    next => exact sparing.once caller
  · intro caller isPending
    have apart : caller ≠ task := by
      intro same
      subst same
      rw [isPending rest found] at spent
      cases spent
    rw [calls caller, if_neg apart]
    exact sparing.pending caller (pending caller isPending)

theorem Stroke.sparing
    (stroke : Stroke task crew next) (sparing : crew.Sparing) :
    next.Sparing := by
  cases stroke with
  | notes labels =>
      exact sparing.of_same (fun _ => callsBy_note_many _ _) fun _ => id
  | settles found running ashore stays begun =>
      have spent := Stage.isPending_eq_false stays begun
      refine sparing.of_same (fun _ => rfl) fun _ =>
        pending_of_put found fun pending => ?_
      rw [spent] at pending
      cases pending
  | @delegates stage rest errand call found unbegun stays begun free own =>
      -- The hired task only carries out the errand; the call is the task's own.
      have spent := Stage.isPending_eq_false stays begun
      have still : (crew.spawn (.called errand)).tasks[task]? =
          some stage := getElem?_push_of_found found _
      have pending : ∀ caller,
          ((crew.spawn (.called errand)).put task rest).Pending caller →
            crew.Pending caller := by
        intro caller isPending
        apply pending_of_spawn
        refine pending_of_put still (fun pending => ?_) isPending
        rw [spent] at pending
        cases pending
      cases call with
      | many caller labels =>
          exact sparing.of_same (fun _ => callsBy_note_many _ _) pending
      | one caller name =>
          obtain rfl := own caller name rfl
          refine sparing.spend ?_ (Array.getElem?_setIfInBounds_self_of_lt ?_)
            spent (fun _ => callsBy_note_one name) pending
          · intro before beforeFound
            cases found.symm.trans beforeFound
            exact Stage.isPending_of_isUnbegun unbegun
          · exact (Array.getElem?_eq_some_iff.mp still).1
  | opens found vacant =>
      exact sparing.of_same (fun _ => rfl) fun _ =>
        pending_of_put found fun _ => rfl
  | takes found listed there free =>
      exact sparing.of_same (fun _ => rfl) fun _ =>
        pending_of_put found fun _ => rfl
  | joins found listed there led =>
      exact sparing.of_same (fun _ => rfl) fun _ =>
        pending_of_put found fun _ => rfl
  | fetches found there leads =>
      refine sparing.spend ?_ (Array.getElem?_setIfInBounds_self_of_lt
        (Array.getElem?_eq_some_iff.mp found).1)
        rfl (fun _ => callsBy_note_one _) fun _ =>
          pending_of_put found fun _ => rfl
      intro before beforeFound
      cases found.symm.trans beforeFound
      rfl
  | lands outcome found aboard there leads =>
      refine sparing.of_same (fun _ => rfl) fun _ =>
        pending_of_put found fun finished => ?_
      cases finished
  | leaves verdict unanswered found aboard there leads =>
      refine sparing.of_same (fun _ => rfl) fun _ =>
        pending_of_put found fun finished => ?_
      cases finished
  | quits found there follows =>
      exact sparing.of_same (fun _ => rfl) fun _ =>
        pending_of_put found fun _ => rfl
  | learns found there landed =>
      exact sparing.of_same (fun _ => rfl) fun _ =>
        pending_of_put found fun _ => rfl

/-- A stroke calls no fetch of another task. -/
theorem Stroke.callsBy_other
    (stroke : Stroke task crew next) (apart : other ≠ task) :
    next.callsBy other = crew.callsBy other := by
  cases stroke with
  | notes labels => exact callsBy_note_many _ _
  | @delegates stage rest errand call found unbegun stays begun free own =>
      cases call with
      | many caller labels => exact callsBy_note_many caller labels
      | one caller name =>
          obtain rfl := own caller name rfl
          have called : (crew.note (.one caller name)).callsBy other = _ :=
            callsBy_note_one name
          rw [if_neg apart] at called
          exact called
  | @fetches call =>
      have called : (crew.note (.one task call.name)).callsBy other = _ :=
        callsBy_note_one call.name
      rw [if_neg apart] at called
      exact called
  | _ => rfl

theorem Stroke.callsBy_of_over {verdict : Verdict Value}
    (stroke : Stroke task crew next)
    (finished : crew.tasks[other]? = some (.over verdict)) :
    next.callsBy other = crew.callsBy other := by
  by_cases same : other = task
  · subst same
    obtain ⟨labels, rfl⟩ := stroke.of_over finished
    exact callsBy_note_many _ _
  · exact stroke.callsBy_other same

end Crew

end ReadThrough
