import Mathlib.Logic.Relation
import ReadThrough.Proofs.Scheduler.Leading

/-!
# Turns are strokes

When a task takes its turn, it takes a step.  In a manned crew the step is made
of strokes, and afterwards the task rests: if it is to wait for a flight, then
it stands among those who wait.  An abort is a single stroke.
-/

namespace ReadThrough

open Std (ExtTreeMap)
open Relation (ReflTransGen)

namespace Crew

variable {Value : Type} {crew middle next : Crew Value} {task : TaskId}

/-- If the task waits for a flight, it is one of those the flight knows. -/
def Rested (crew : Crew Value) (task : TaskId) : Prop :=
  ∀ (flight : FlightId) (call : SingleCall Value),
    crew.tasks[task]? = some (.waiting flight call) →
      ∃ joined, crew.flights[flight]? = some joined ∧ task ∈ joined.waiting

/-- What a task does when it takes its turn. -/
structure Turn (task : TaskId) (crew next : Crew Value) : Prop where
  strokes : ReflTransGen (Stroke task) crew next
  rested : next.Rested task

theorem Turn.after
    (stroke : Stroke task crew middle) (turn : Turn task middle next) :
    Turn task crew next :=
  ⟨.head stroke turn.strokes, turn.rested⟩

theorem Turn.ofStroke
    (stroke : Stroke task crew next) (rested : next.Rested task) :
    Turn task crew next :=
  ⟨.single stroke, rested⟩

/-- Whoever is put into a stage without waiting has come to rest. -/
theorem rested_of_put {stage : Stage Value} {tasks : Array (Stage Value)}
    (placed : next.tasks = tasks.setIfInBounds task stage)
    (idle : ∀ flight call, stage ≠ .waiting flight call) :
    next.Rested task := by
  intro flight call found
  rw [placed, Array.getElem?_setIfInBounds_self] at found
  split at found
  · exact absurd (Option.some.inj found) (idle flight call)
  · cases found

theorem rested_of_ashore {stage : Stage Value} {tasks : Array (Stage Value)}
    (placed : next.tasks = tasks.setIfInBounds task stage)
    (ashore : stage.aboard? = none) : next.Rested task := by
  apply rested_of_put placed
  intro flight call waits
  rw [waits] at ashore
  cases ashore

theorem Turn.settling {stage rest : Stage Value}
    (found : crew.tasks[task]? = some stage)
    (running : stage.isOver = false)
    (ashore : stage.aboard? = none) (stays : rest.aboard? = none)
    (begun : rest.isUnbegun = false) :
    Turn task crew (crew.put task rest) :=
  .ofStroke (.settles found running ashore stays begun)
    (rested_of_ashore rfl stays)

theorem Manned.strokes
    (manned : crew.Manned) (strokes : ReflTransGen (Stroke task) crew next) :
    next.Manned := by
  induction strokes with
  | refl => exact manned
  | tail _ stroke inductionHypothesis =>
      exact inductionHypothesis.stroke stroke

theorem rested_of_idle {stage : Stage Value}
    (found : crew.tasks[task]? = some stage)
    (idle : ∀ flight call, stage ≠ .waiting flight call) :
    crew.Rested task := by
  intro flight call waits
  rw [found] at waits
  exact absurd (Option.some.inj waits) (idle flight call)

section Leading

variable {flight : FlightId} {joined : Flight Value} {stage : Stage Value}
  {call : SingleCall Value}

theorem Concluded.turn
    (concluded : Concluded task flight joined crew next) {name : String}
    (found : crew.tasks[task]? = some stage)
    (aboard : stage.aboard? = some (flight, name))
    (there : crew.flights[flight]? = some joined)
    (leads : joined.leader = some task) : Turn task crew next := by
  cases concluded with
  | lands outcome =>
      have stroke := Stroke.lands outcome found aboard there leads
      exact .ofStroke stroke (rested_of_ashore rfl rfl)
  | leaves fault =>
      refine .ofStroke (.leaves _ ?_ found aboard there leads)
        (rested_of_ashore rfl rfl)
      intro result same
      cases same

theorem Led.turn
    (led : Led task flight joined call crew next)
    (found : crew.tasks[task]? = some (.waiting flight call))
    (there : crew.flights[flight]? = some joined)
    (leads : joined.leader = some task) : Turn task crew next := by
  cases led with
  | concludes concluded => exact concluded.turn found rfl there leads
  | fetches fetched =>
      cases fetched with
      | sleeps wakeAt =>
          refine .ofStroke (.fetches found there leads) (rested_of_put rfl ?_)
          intro flight call waits
          cases waits
      | concludes concluded =>
          -- A fetch without delay is a sleep that ends at once.
          have fetching : Stroke task crew
              ((crew.note (.one task call.name)).put task
                (.asleep (.complete flight call) 0)) :=
            .fetches found there leads
          have inside : task < crew.tasks.size :=
            (Array.getElem?_eq_some_iff.mp found).1
          have asleep : (crew.tasks.setIfInBounds task
              (.asleep (.complete flight call) 0))[task]? = some _ :=
            Array.getElem?_setIfInBounds_self_of_lt inside
          exact .after fetching
            ((concluded.put _).turn asleep rfl there leads)

end Leading

end Crew

namespace Scheduler

open Crew (Stroke Turn Led Fetched Concluded)

variable {Value Result : Type} {scheduler next : Scheduler Value}
  {reported : List FetchCall} {task : TaskId}

theorem crew_finish_of_attempt
    {action : Cache.Action Value Result} {result : Except Fault Result}
    (attempted : scheduler.attempt action = (result, next))
    (verdict : Verdict Value) :
    (next.finish task verdict).crew reported =
      (scheduler.crew reported).put task (.over verdict) := by
  rw [crew_of_attempt attempted]
  rfl

section Ashore

variable [Keyed Value] (settings : Settings) {errand : Errand Value}
  (free : errand.flight? = none)

include free

variable (scheduler reported task) in
/-- The end of a fetch that is for no flight ends the task. -/
theorem crew_conclude :
    ∃ verdict, (conclude settings scheduler task errand).crew reported =
      (scheduler.crew reported).put task (.over verdict) := by
  cases errand with
  | complete flight call => cases free
  | refresh call =>
      rw [conclude]
      split
      next fault next attempted =>
        exact ⟨_, crew_finish_of_attempt attempted (.broken fault)⟩
      next _ next attempted =>
        exact ⟨_, crew_finish_of_attempt attempted (.returned _)⟩
  | collect found misses storing plan =>
      rw [conclude]
      split
      next fault next attempted =>
        exact ⟨_, crew_finish_of_attempt attempted (.broken fault)⟩
      next outcome next attempted =>
        exact ⟨_, crew_finish_of_attempt attempted (.returned _)⟩
  | refreshMany requests storing plan =>
      rw [conclude]
      split
      next fault next attempted =>
        exact ⟨_, crew_finish_of_attempt attempted (.broken fault)⟩
      next _ next attempted =>
        exact ⟨_, crew_finish_of_attempt attempted (.returned _)⟩

variable (scheduler reported task) in
theorem crew_await :
    ∃ stage, (await settings scheduler task errand).crew reported =
        (scheduler.crew reported).put task stage ∧
      stage.aboard? = none ∧ stage.isUnbegun = false := by
  rw [await]
  split
  · obtain ⟨verdict, same⟩ :=
      crew_conclude scheduler reported task settings free
    exact ⟨_, same, rfl, rfl⟩
  · refine ⟨_, crew_setStage _, ?_, rfl⟩
    cases errand with
    | complete flight call => cases free
    | refresh call => rfl
    | collect found misses storing plan => rfl
    | refreshMany requests storing plan => rfl

variable {stage : Stage Value}
  (found : (scheduler.crew reported).tasks[task]? = some stage)
  (running : stage.isOver = false) (ashore : stage.aboard? = none)

include found running ashore

theorem turn_conclude :
    Turn task (scheduler.crew reported)
      ((conclude settings scheduler task errand).crew reported) := by
  obtain ⟨verdict, same⟩ := crew_conclude scheduler reported task settings free
  rw [same]
  exact .settling found running ashore rfl rfl

/-- A task outside of any flight stays there while it waits for a fetch. -/
theorem turn_await :
    Turn task (scheduler.crew reported)
      ((await settings scheduler task errand).crew reported) := by
  obtain ⟨rest, same, stays, begun⟩ :=
    crew_await scheduler reported task settings free
  rw [same]
  exact .settling found running ashore stays begun

end Ashore

section Beginning

variable {stage : Stage Value}
  (found : (scheduler.crew reported).tasks[task]? = some stage)
  (unbegun : stage.isUnbegun = true)

include found unbegun

/-- A task can end before it has called a fetch. -/
theorem turn_finish (verdict : Verdict Value) :
    Turn task (scheduler.crew reported)
      ((scheduler.finish task verdict).crew reported) :=
  .settling found (Stage.isOver_of_isUnbegun unbegun)
    (Stage.ashore_of_isUnbegun unbegun) rfl rfl

/-- A task can hand a fetch over to a new one. -/
theorem stroke_delegate {next : Stage Value} {errand : Errand Value}
    {call : FetchCall} (stays : next.aboard? = none)
    (begun : next.isUnbegun = false) (free : errand.flight? = none)
    (own : ∀ caller name, call = .one caller name → caller = task) :
    Stroke task (scheduler.crew reported)
      ((((scheduler.noteCall call).spawn (.called errand)).setStage
        task next).crew reported) := by
  rw [crew_setStage, crew_spawn, crew_noteCall]
  exact .delegates found unbegun stays begun free own

end Beginning

theorem turn_refreshIf {call : SingleCall Value}
    (found : (scheduler.crew reported).tasks[task]? = some (.single call))
    (elected : Bool) (result : Except Failure (Reply Value)) :
    Turn task (scheduler.crew reported)
      (((scheduler.refreshIf task elected call).answer
        task result).crew reported) := by
  rw [refreshIf]
  split
  · refine .ofStroke (stroke_delegate found rfl rfl rfl rfl ?_) ?_
    · intro caller name same
      cases same
      rfl
    · exact Crew.rested_of_ashore rfl rfl
  · exact turn_finish found rfl _

theorem turn_beginBatch [Keyed Value]
    (settings : Settings) {call : BatchCall Value}
    (found : scheduler.tasks[task]? = some (.batch call)) :
    Turn task (scheduler.crew reported)
      ((beginBatch settings scheduler task call).crew reported) := by
  have found' : (scheduler.crew reported).tasks[task]? =
      some (.batch call) := found
  rw [beginBatch]
  dsimp only
  split
  next fault next attempted =>
    rw [crew_of_attempt attempted] at found' ⊢
    exact turn_finish found' rfl _
  next gathered next attempted =>
    rw [crew_of_attempt attempted] at found' ⊢
    have ending : ∀ {caller : Scheduler Value}
        (errand : Errand Value) (free : errand.flight? = none),
        ∃ rest, (await settings caller task errand).crew reported =
          (caller.crew reported).put task rest ∧
            rest.aboard? = none ∧ rest.isUnbegun = false :=
      fun errand free => crew_await _ reported task settings free
    by_cases noneDue : gathered.refreshes.isEmpty = true
    · simp only [if_pos noneDue]
      split
      · exact turn_finish found' rfl _
      · obtain ⟨rest, same, stays, begun⟩ := ending (.collect _ _ _ _) rfl
        rw [same, crew_noteCall]
        refine ⟨?_, Crew.rested_of_ashore rfl stays⟩
        -- Noting a call does not touch the stages, so it can come last.
        have settles : Stroke task (next.crew reported) _ :=
          .settles found' rfl rfl stays begun
        exact .tail (.single settles) (.notes _)
    · simp only [if_neg noneDue]
      have own : ∀ labels caller name,
          FetchCall.many task labels = .one caller name → caller = task := by
        intro labels caller name same
        cases same
      split
      · exact .ofStroke
          (stroke_delegate found' rfl rfl rfl rfl (own _))
          (Crew.rested_of_ashore rfl rfl)
      · obtain ⟨rest, same, stays, begun⟩ := ending (.collect _ _ _ _) rfl
        rw [same, crew_noteCall]
        refine ⟨?_, Crew.rested_of_ashore rfl stays⟩
        have free : Errand.flight? (.refreshMany gathered.refreshes
            call.storing (call.planAt 0)) = none := rfl
        have delegates : Stroke task (next.crew reported) _ :=
          stroke_delegate found' rfl stays begun free
            (own (gathered.refreshes.map (·.label)))
        exact .tail (.single delegates) (.notes _)

section Turns

variable [Keyed Value] (settings : Settings)
  (manned : (scheduler.crew reported).Manned)

include manned

/-- Whoever boards a flight that nobody led leads it. -/
theorem turn_lead {boarded : Scheduler Value} {call : SingleCall Value}
    {flight : FlightId} {joined : Flight Value}
    (found : scheduler.tasks[task]? = some (.single call))
    (sameTasks : boarded.tasks = scheduler.tasks)
    (boards : Stroke task (scheduler.crew reported)
      ((boarded.crew reported).put task (.waiting flight call)))
    (there : (boarded.crew reported).flights[flight]? = some joined)
    (leads : joined.leader = some task) :
    Turn task (scheduler.crew reported)
      ((lead settings boarded task flight call).crew reported) := by
  have seated := manned.stroke boards
  have inside : task < boarded.tasks.size :=
    sameTasks ▸ (Array.getElem?_eq_some_iff.mp found).1
  have waits : (boarded.tasks.setIfInBounds task
      (.waiting flight call))[task]? = some (.waiting flight call) :=
    Array.getElem?_setIfInBounds_self_of_lt inside
  obtain ⟨again, againThere, sameName, _⟩ := seated.aboard waits rfl
  have sameFlight : joined = again :=
    Option.some.inj (there.symm.trans againThere)
  subst sameFlight
  have unlanded := seated.open_of_leader there leads
  have listed := seated.listed.mpr ⟨joined, there, rfl, unlanded⟩
  have led := led_lead there listed leads sameName settings
  exact .after boards ((led.put _).turn waits there leads)

theorem turn_join {call : SingleCall Value}
    (found : scheduler.tasks[task]? = some (.single call)) :
    Turn task (scheduler.crew reported)
      ((join settings scheduler task call).crew reported) := by
  rw [join, boardFlight]
  cases listed : scheduler.inFlight[call.name]? with
  | none =>
      have opens : Stroke task (scheduler.crew reported) _ :=
        .opens found listed
      dsimp only
      rw [Array.getElem?_push_size]
      dsimp only
      rw [adjustFlight]
      dsimp only
      rw [Crew.modify_eq_setIfInBounds Array.getElem?_push_size,
        Crew.setIfInBounds_push]
      exact turn_lead settings manned found rfl opens
        Array.getElem?_push_size rfl
  | some flight =>
      obtain ⟨joined, there, sameName, unlanded⟩ := manned.listed.mp listed
      have isThere : scheduler.flights[flight]? = some joined := there
      have inside := (Array.getElem?_eq_some_iff.mp isThere).1
      dsimp only
      rw [isThere]
      dsimp only
      rw [unlanded]
      cases leads : joined.leader with
      | none =>
          have takes : Stroke task (scheduler.crew reported) _ :=
            .takes found listed there leads
          dsimp only
          rw [adjustFlight, Crew.modify_eq_setIfInBounds isThere]
          exact turn_lead settings manned found rfl takes
            (Array.getElem?_setIfInBounds_self_of_lt inside) rfl
      | some leader =>
          have joins : Stroke task (scheduler.crew reported) _ :=
            .joins found listed there leads
          dsimp only
          rw [adjustFlight, Crew.modify_eq_setIfInBounds isThere]
          refine .ofStroke joins ?_
          intro place waited waits
          refine ⟨{ joined with waiting := joined.waiting ++ [task] }, ?_, ?_⟩
          · have stage : (scheduler.tasks.setIfInBounds task
                (.waiting flight call))[task]? = some (.waiting flight call) :=
              Array.getElem?_setIfInBounds_self_of_lt
                (Array.getElem?_eq_some_iff.mp found).1
            cases stage.symm.trans waits
            exact Array.getElem?_setIfInBounds_self_of_lt inside
          · simp

theorem turn_beginSingle {call : SingleCall Value}
    (found : scheduler.tasks[task]? = some (.single call)) :
    Turn task (scheduler.crew reported)
      ((beginSingle settings scheduler task call).crew reported) := by
  have found' : (scheduler.crew reported).tasks[task]? =
      some (.single call) := found
  rw [beginSingle]
  split
  next fault next attempted =>
    rw [crew_of_attempt attempted] at found' ⊢
    exact turn_finish found' rfl _
  next value refresh next attempted =>
    rw [crew_of_attempt attempted] at found' manned ⊢
    exact turn_refreshIf found' refresh _
  next refresh next attempted =>
    rw [crew_of_attempt attempted] at found' manned ⊢
    exact turn_refreshIf found' refresh _
  next next attempted =>
    rw [crew_of_attempt attempted] at found' manned ⊢
    exact turn_join settings manned found'

theorem turn_resume {flight : FlightId} {call : SingleCall Value}
    (found : scheduler.tasks[task]? = some (.waiting flight call)) :
    Turn task (scheduler.crew reported)
      ((resume settings scheduler task flight call).crew reported) := by
  obtain ⟨joined, there, sameName, rank⟩ := manned.aboard found rfl
  have isThere : scheduler.flights[flight]? = some joined := there
  rw [resume, isThere]
  dsimp only
  cases landed : joined.outcome with
  | some outcome =>
      have unlisted : ¬ scheduler.inFlight[call.name]? = some flight := by
        intro listed
        obtain ⟨again, againThere, _, unlanded⟩ := manned.listed.mp listed
        cases there.symm.trans againThere
        rw [landed] at unlanded
        cases unlanded
      dsimp only
      rw [closeFlight, if_neg unlisted]
      exact .ofStroke (.learns found there landed)
        (Crew.rested_of_ashore rfl rfl)
  | none =>
      dsimp only
      split
      next leads =>
        have listed := manned.listed.mpr ⟨joined, there, rfl, landed⟩
        have led := led_lead there listed leads sameName settings
        exact led.turn found there leads
      next follows =>
        -- A turn out of turn: nothing happens, and the task goes on waiting.
        refine ⟨.refl, ?_⟩
        intro place other waits
        cases found.symm.trans waits
        rcases rank with leads | ⟨_, isWaiting | hasLanded⟩
        · exact absurd leads follows
        · exact ⟨joined, there, isWaiting⟩
        · exact absurd landed hasLanded

theorem turn_step :
    Turn task (scheduler.crew reported)
      ((step settings scheduler task).crew reported) := by
  rw [step]
  split
  next absent =>
    refine ⟨.refl, ?_⟩
    intro flight call waits
    cases absent.symm.trans waits
  next call found => exact turn_beginSingle settings manned found
  next call found => exact turn_beginBatch settings found
  next errand found =>
    have free := manned.awaited found
    exact turn_await settings free found rfl
      (Stage.aboard?_called_eq_none_iff.mpr free)
  next errand wakeAt found =>
    have idle : (scheduler.crew reported).Rested task := by
      apply Crew.rested_of_idle found
      intro flight call waits
      cases waits
    split
    · cases errand with
      | complete flight call =>
          obtain ⟨joined, there, sameName, leads | ⟨⟨_, isWaiting⟩, _⟩⟩ :=
            manned.aboard found rfl
          · have unlanded := manned.open_of_leader there leads
            have listed := manned.listed.mpr ⟨joined, there, rfl, unlanded⟩
            have concluded :=
              concluded_conclude there listed leads sameName settings
            exact concluded.turn found rfl there leads
          · cases isWaiting
      | refresh call => exact turn_conclude settings rfl found rfl rfl
      | collect labels misses storing plan =>
          exact turn_conclude settings rfl found rfl rfl
      | refreshMany requests storing plan =>
          exact turn_conclude settings rfl found rfl rfl
    · exact ⟨.refl, idle⟩
  next flight call found => exact turn_resume settings manned found
  next verdict found =>
    refine ⟨.refl, Crew.rested_of_idle found ?_⟩
    intro flight call waits
    cases waits

omit [Keyed Value] in
theorem turn_abort :
    Turn task (scheduler.crew reported)
      ((abort scheduler task).crew reported) := by
  rw [abort]
  split
  next absent =>
    refine ⟨.refl, ?_⟩
    intro flight call waits
    cases absent.symm.trans waits
  next stage found =>
    split
    next finished =>
      refine ⟨.refl, Crew.rested_of_idle found ?_⟩
      intro flight call same
      rw [same] at finished
      cases finished
    next running =>
      have goesOn : stage.isOver = false := by simpa using running
      have place := stage.flight?_eq_map_aboard?
      cases aboard : stage.aboard? with
      | none =>
          rw [place, aboard]
          exact .settling found goesOn aboard rfl rfl
      | some seat =>
          obtain ⟨flight, name⟩ := seat
          obtain ⟨joined, there, sameName, rank⟩ :=
            manned.aboard found aboard
          rw [place, aboard]
          dsimp only [Option.map_some]
          by_cases leads : joined.leader = some task
          · rw [crew_leaveFlight there leads]
            refine .ofStroke (.leaves _ ?_ found aboard there leads) ?_
            · intro result same
              cases same
            · exact Crew.rested_of_ashore rfl rfl
          · obtain ⟨⟨call, rfl⟩, _⟩ := rank.resolve_left leads
            have isThere : scheduler.flights[flight]? = some joined := there
            rw [leaveFlight, isThere]
            dsimp only
            rw [if_neg leads, adjustFlight,
              Crew.modify_eq_setIfInBounds isThere]
            exact .ofStroke (.quits found there leads)
              (Crew.rested_of_ashore rfl rfl)

end Turns

end Scheduler

end ReadThrough
