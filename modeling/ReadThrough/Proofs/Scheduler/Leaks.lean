import ReadThrough.Proofs.Scheduler.Boarding
import ReadThrough.Proofs.Scheduler.SingleFlight

/-!
# Names that stay in flight

A call that has missed a name awaits what the flight of the name gives, until
the flight has landed.  The names in flight are meant to be those that somebody
awaits.  A call that lands its flight takes the name out; a call that is aborted
or broken off does not.  If it was the only one to await the name, the name
stays in flight although nobody fetches it: the call has abandoned it.

`listed_iff_awaited` says that nothing else can go wrong.
-/

namespace ReadThrough

open Std (ExtTreeMap)

namespace Crew

variable {Value : Type} {crew next : Crew Value} {task : TaskId}
  {flight : FlightId} {joined : Flight Value} {name : String}

/-- A call that has missed the name is pending: its flight has not landed. -/
def Awaits (crew : Crew Value) (task : TaskId) (name : String) : Prop :=
  ∃ stage flight joined, crew.tasks[task]? = some stage ∧
    stage.aboard? = some (flight, name) ∧
      crew.flights[flight]? = some joined ∧ joined.outcome = none

/-- The name has a flight, and nobody leads it. -/
def Deserted (crew : Crew Value) (name : String) : Prop :=
  ∃ flight joined, crew.inFlight[name]? = some flight ∧
    crew.flights[flight]? = some joined ∧ joined.leader = none

section Manned

variable (manned : crew.Manned)

include manned

theorem Manned.listed_of_awaits (awaits : crew.Awaits task name) :
    ∃ flight joined, crew.inFlight[name]? = some flight ∧
      crew.flights[flight]? = some joined ∧ task ∈ joined.members := by
  obtain ⟨stage, flight, joined, found, aboard, there, unlanded⟩ := awaits
  obtain ⟨again, againThere, sameName, rank⟩ := manned.aboard found aboard
  cases there.symm.trans againThere
  have listed := manned.listed.mpr ⟨joined, there, sameName, unlanded⟩
  refine ⟨flight, joined, listed, there, Flight.mem_members.mpr ?_⟩
  rcases rank with leads | ⟨_, isWaiting | landed⟩
  · exact Or.inl leads
  · exact Or.inr isWaiting
  · exact absurd unlanded landed

theorem Manned.awaits_iff_mem
    (listed : crew.inFlight[name]? = some flight)
    (there : crew.flights[flight]? = some joined) :
    crew.Awaits task name ↔ task ∈ joined.members := by
  constructor
  · intro awaits
    obtain ⟨place, other, alsoListed, otherThere, member⟩ :=
      manned.listed_of_awaits awaits
    cases listed.symm.trans alsoListed
    cases there.symm.trans otherThere
    exact member
  · intro member
    obtain ⟨again, againThere, sameName, unlanded⟩ := manned.listed.mp listed
    cases there.symm.trans againThere
    obtain ⟨stage, found, aboard⟩ := manned.members there member
    rw [sameName] at aboard
    exact ⟨stage, flight, joined, found, aboard, there, unlanded⟩

/-- A flight that somebody awaits has a leader, who awaits it. -/
theorem Manned.deserted_iff :
    crew.Deserted name ↔
      name ∈ crew.inFlight ∧ ∀ task, ¬ crew.Awaits task name := by
  constructor
  · rintro ⟨flight, joined, listed, there, free⟩
    have inside := (ExtTreeMap.getElem?_eq_some_iff.mp listed).1
    refine ⟨inside, fun task awaits => ?_⟩
    have member := (manned.awaits_iff_mem listed there).mp awaits
    have alone := manned.led there free
    simp [free, alone] at member
  · rintro ⟨inside, unawaited⟩
    have listed := ExtTreeMap.getElem?_eq_some_getElem inside
    obtain ⟨joined, there, _, _⟩ := manned.listed.mp listed
    refine ⟨_, joined, listed, there, ?_⟩
    cases leads : joined.leader with
    | none => rfl
    | some leader =>
        have member : leader ∈ joined.members :=
          Flight.mem_members.mpr (Or.inl leads)
        have awaits := (manned.awaits_iff_mem listed there).mpr member
        exact absurd awaits (unawaited leader)

/-- Whoever is the only one to take part in a flight leads it. -/
theorem Manned.leads_of_only
    (there : crew.flights[flight]? = some joined)
    (member : task ∈ joined.members)
    (only : ∀ other, other ∈ joined.members → other = task) :
    joined.leader = some task ∧ joined.waiting = [] := by
  have leads : joined.leader = some task := by
    cases leads : joined.leader with
    | none =>
        have alone := manned.led there leads
        simp [leads, alone] at member
    | some leader =>
        have same := only leader (Flight.mem_members.mpr (Or.inl leads))
        rw [same]
  refine ⟨leads, List.eq_nil_iff_forall_not_mem.mpr ?_⟩
  intro other waits
  have same := only other (Flight.mem_members.mpr (Or.inr waits))
  -- The leader would take part twice.
  have distinct := manned.nodup there
  simp [Flight.members, leads, same ▸ waits] at distinct

end Manned

/-- The names in flight are those that somebody awaits. -/
def Tidy (crew : Crew Value) : Prop :=
  ∀ name, name ∈ crew.inFlight ↔ ∃ task, crew.Awaits task name

theorem Manned.tidy_iff (manned : crew.Manned) :
    crew.Tidy ↔ ∀ name, ¬ crew.Deserted name := by
  constructor
  · intro tidy name deserted
    obtain ⟨inside, unawaited⟩ := manned.deserted_iff.mp deserted
    obtain ⟨task, awaits⟩ := (tidy name).mp inside
    exact unawaited task awaits
  · intro nowhere name
    constructor
    · intro inside
      by_contra nobody
      have unawaited := not_exists.mp nobody
      exact nowhere name (manned.deserted_iff.mpr ⟨inside, unawaited⟩)
    · rintro ⟨task, awaits⟩
      obtain ⟨flight, joined, listed, _⟩ := manned.listed_of_awaits awaits
      exact (ExtTreeMap.getElem?_eq_some_iff.mp listed).1

theorem Tidy.size_eq_zero (tidy : crew.Tidy)
    (idle : ∀ task name, ¬ crew.Awaits task name) :
    crew.inFlight.size = 0 := by
  rw [← ExtTreeMap.eq_empty_iff_size_eq_zero,
    ExtTreeMap.eq_empty_iff_forall_not_mem]
  intro name inside
  obtain ⟨task, awaits⟩ := (tidy name).mp inside
  exact idle task name awaits

/-- When nobody is ready, whoever takes part in a flight awaits it. -/
theorem Orderly.awaits_of_rest
    (orderly : crew.Orderly) (rest : crew.ready = [])
    {stage : Stage Value} (found : crew.tasks[task]? = some stage)
    (aboard : stage.aboard? = some (flight, name)) :
    crew.Awaits task name := by
  obtain ⟨joined, there, _, rank⟩ := orderly.manned.aboard found aboard
  refine ⟨stage, flight, joined, found, aboard, there, ?_⟩
  by_contra landed
  rcases rank with leads | ⟨⟨call, rfl⟩, _⟩
  · exact landed (orderly.manned.open_of_leader there leads)
  · cases aboard
    have ready :=
      orderly.attends task flight call joined found there (Or.inr landed)
    rw [rest] at ready
    cases ready

/-! ## Leaders that are alone -/

/-- How a flight lost its leader in a turn of the task. -/
inductive Left (task : TaskId) (flight : FlightId) (name : String)
    (crew next : Crew Value) : Prop
  /-- The leader has left it, and nobody waited. -/
  | byLeader {joined : Flight Value} {leader : TaskId}
      {verdict : Verdict Value}
      (there : crew.flights[flight]? = some joined)
      (leads : joined.leader = some leader)
      (alone : joined.waiting = [])
      (finished : next.tasks[leader]? = some (.over verdict))
      (unanswered : ∀ result, verdict ≠ .returned result)
  /-- A call that had not begun came to lead it and left it. -/
  | byCaller {call : SingleCall Value} {verdict : Verdict Value}
      (unbegun : crew.tasks[task]? = some (.single call))
      (named : call.name = name)
      (sole : ∀ place, crew.inFlight[call.name]? = some place →
        place = flight)
      (unled : ∀ joined, crew.flights[flight]? = some joined →
        joined.leader = none)
      (finished : next.tasks[task]? = some (.over verdict))
      (unanswered : ∀ result, verdict ≠ .returned result)

/-- A leader that has left its flight without a leader has left it alone. -/
theorem Captaincy.leaves_of_free {changed : Flight Value}
    (captaincy : Captaincy task flight joined next)
    (leads : joined.leader = some task)
    (changedThere : next.flights[flight]? = some changed)
    (free : changed.leader = none) (unlanded : changed.outcome = none) :
    joined.waiting = [] ∧ ∃ verdict,
      next.tasks[task]? = some (.over verdict) ∧
        ∀ result, verdict ≠ .returned result := by
  cases captaincy with
  | leads stillThere =>
      cases changedThere.symm.trans stillThere
      cases leads.symm.trans free
  | lands outcome landedThere =>
      cases changedThere.symm.trans landedThere
      cases unlanded
  | leaves verdict unanswered leftThere finished =>
      cases changedThere.symm.trans leftThere
      have alone := List.head?_eq_none_iff.mp free
      exact ⟨alone, verdict, finished, unanswered⟩

theorem Turn.left {changed : Flight Value}
    (turn : Turn task crew next) (manned : crew.Manned)
    (changedThere : next.flights[flight]? = some changed)
    (free : changed.leader = none) (unlanded : changed.outcome = none)
    (changes : next.flights[flight]? ≠ crew.flights[flight]?) :
    Left task flight changed.name crew next := by
  rcases led_or_unled crew flight with
    ⟨joined, leader, there, leads⟩ | unled
  · rcases turn.captaincy manned there leads with
      captaincy | ⟨_, other, otherThere, spared⟩
    · obtain ⟨alone, verdict, finished, unanswered⟩ :=
        captaincy.leaves_of_free leads changedThere free unlanded
      exact .byLeader there leads alone finished unanswered
    · cases changedThere.symm.trans otherThere
      have stillLed := spared.leader.trans leads
      cases stillLed.symm.trans free
  · cases turn.vacancy manned unled with
    | stays same => exact absurd same changes
    | @fills call joined unbegun sole sameName leads captaincy =>
        obtain ⟨_, verdict, finished, unanswered⟩ :=
          captaincy.leaves_of_free leads changedThere free unlanded
        have named := sameName.symm.trans (captaincy.named changedThere).symm
        exact .byCaller unbegun named sole unled finished unanswered

section Alone

variable {call : SingleCall Value} {verdict : Verdict Value}
  (there : crew.flights[flight]? = some joined)
  (listed : crew.inFlight[joined.name]? = some flight)
  (alone : joined.waiting = [])
  (inside : task < crew.tasks.size)
  (finished : next.tasks[task]? = some (.over verdict))
  (unanswered : ∀ result, verdict ≠ .returned result)

include there listed alone inside finished unanswered

theorem Concluded.deserted
    (concluded : Concluded task flight joined crew next) :
    next.Deserted joined.name := by
  cases concluded with
  | lands outcome =>
      have landed := (Array.getElem?_setIfInBounds_self_of_lt inside).symm.trans
        finished
      cases landed
      exact absurd rfl (unanswered _)
  | leaves fault =>
      have seated :=
        getElem?_setIfInBounds_self_of_found there joined.handedOver
      refine ⟨flight, joined.handedOver, listed, seated, ?_⟩
      rw [Flight.handedOver, alone]
      rfl

theorem Led.deserted (led : Led task flight joined call crew next) :
    next.Deserted joined.name := by
  rcases led.sleeps_or_concludes with ⟨wakeAt, rfl⟩ | ⟨calls, concluded⟩
  · have asleep :=
      (Array.getElem?_setIfInBounds_self_of_lt inside).symm.trans finished
    cases asleep
  · have stillThere : ({ crew with calls := calls } : Crew
        Value).flights[flight]? = some joined := there
    exact Concluded.deserted stillThere listed alone inside finished unanswered
      concluded

end Alone

end Crew

namespace Scheduler

variable {Value : Type} [Keyed Value] (settings : Settings)
  {scheduler next : Scheduler Value} {reported : List FetchCall}
  {task : TaskId} {call : SingleCall Value}

/-- A call that ends without a result in the turn in which it joins leaves a
flight that nobody leads. -/
theorem Joined.deserted {verdict : Verdict Value}
    (joins : Joined settings scheduler task call next)
    (inside : task < scheduler.tasks.size)
    (finished : next.tasks[task]? = some (.over verdict))
    (unanswered : ∀ result, verdict ≠ .returned result) :
    (next.crew reported).Deserted call.name := by
  cases joins with
  | waits listed there led =>
      rw [Array.getElem?_setIfInBounds_self_of_lt inside] at finished
      cases finished
  | @leads flight boarded boards =>
      have aboard : task < boarded.tasks.size := boards.tasks ▸ inside
      have led : Crew.Led task flight _ call (boarded.crew reported)
          ((lead settings boarded task flight call).crew reported) :=
        led_lead boards.seat boards.listed rfl rfl settings
      exact led.deserted boards.seat boards.listed rfl aboard finished
        unanswered

end Scheduler

namespace Logbook

variable {Value : Type} [Keyed Value] (settings : Settings)

/-- In its turn the task begins a call of the name and finds nothing. -/
def Misses (logbook : Logbook Value) (move : Move Value) (task : TaskId)
    (name : String) : Prop :=
  move = .turn task ∧ ∃ call : SingleCall Value,
    logbook.crew.tasks[task]? = some (.single call) ∧ call.name = name ∧
      Cache.result? (Cache.lookup settings name) logbook.scheduler.cache =
        some .absent

/-- The only call that has missed the name and is pending ends without a
result. -/
def Abandons (logbook : Logbook Value) (move : Move Value)
    (name : String) : Prop :=
  ∃ task verdict,
    (logbook.crew.Awaits task name ∨
      Misses settings logbook move task name) ∧
    (∀ other, logbook.crew.Awaits other name → other = task) ∧
    (after settings logbook move).crew.tasks[task]? =
      some (.over verdict) ∧
    ∀ result, verdict ≠ .returned result

/-- No move abandons a name. -/
def Unabandoned : Logbook Value → List (Move Value) → Prop
  | _, [] => True
  | logbook, move :: moves =>
      (∀ name, ¬ Abandons settings logbook move name) ∧
        Unabandoned (after settings logbook move) moves

variable {logbook : Logbook Value} {move : Move Value} {name : String}

theorem flights_abort_of_single {task : TaskId} {call : SingleCall Value}
    (unbegun : logbook.crew.tasks[task]? = some (.single call)) :
    (after settings logbook (.abort task)).crew.flights =
      logbook.crew.flights := by
  have found : logbook.scheduler.tasks[task]? = some (.single call) := unbegun
  simp only [after, crew, Scheduler.abort, found]
  rfl

theorem deserted_of_abandons (orderly : logbook.crew.Orderly)
    (abandons : Abandons settings logbook move name) :
    (after settings logbook move).crew.Deserted name := by
  obtain ⟨task, verdict, pending, last, finished, unanswered⟩ := abandons
  have manned := orderly.manned
  have moved := moved_after settings manned move
  rcases pending with awaits | ⟨rfl, call, unbegun, rfl, absent⟩
  · obtain ⟨flight, joined, listed, there, member⟩ :=
      manned.listed_of_awaits awaits
    have only : ∀ other, other ∈ joined.members → other = task := by
      intro other otherMember
      exact last other ((manned.awaits_iff_mem listed there).mpr otherMember)
    obtain ⟨leads, alone⟩ := manned.leads_of_only there member only
    have mannedAfter := (moved.orderly orderly).manned
    rcases moved.captaincy manned there leads with
      captaincy | ⟨_, stage, _, _, found, running⟩
    · cases captaincy with
      | leads stillThere =>
          obtain ⟨stage, found, aboard⟩ :=
            mannedAfter.members stillThere member
          cases finished.symm.trans found
          cases aboard
      | lands outcome landedThere ended =>
          cases finished.symm.trans ended
          exact absurd rfl (unanswered _)
      | leaves _ _ leftThere =>
          obtain ⟨again, againThere, sameName, unlanded⟩ :=
            manned.listed.mp listed
          cases there.symm.trans againThere
          refine ⟨flight, _, ?_, leftThere, ?_⟩
          · exact mannedAfter.listed.mpr ⟨_, leftThere, sameName, unlanded⟩
          · rw [Flight.handedOver, alone]
            rfl
    · cases finished.symm.trans found
      cases running
  · have inside := (Array.getElem?_eq_some_iff.mp unbegun).1
    have begun := begun_after settings manned unbegun
    cases begun with
    | breaks fault broken =>
        cases broken.symm.trans absent
    | hits looked found =>
        cases looked.symm.trans absent
        cases found
    | misses _ joins =>
        exact joins.deserted settings inside finished unanswered

/-- A call that changes flights in its first turn has missed its name. -/
theorem misses_of_changes {task : TaskId} {call : SingleCall Value}
    (manned : logbook.crew.Manned)
    (own : move = .turn task ∨ move = .abort task)
    (unbegun : logbook.crew.tasks[task]? = some (.single call))
    (changes : (after settings logbook move).crew.flights ≠
      logbook.crew.flights) :
    Misses settings logbook move task call.name := by
  rcases own with rfl | rfl
  · refine ⟨rfl, call, unbegun, rfl, ?_⟩
    cases begun_after settings manned unbegun with
    | breaks fault broken flights => exact absurd flights changes
    | hits looked found flights => exact absurd flights changes
    | misses absent => exact absent
  · exact absurd (flights_abort_of_single settings unbegun) changes

theorem abandons_of_deserted (orderly : logbook.crew.Orderly)
    (deserted : (after settings logbook move).crew.Deserted name)
    (before : ¬ logbook.crew.Deserted name) :
    Abandons settings logbook move name := by
  have manned := orderly.manned
  have moved := moved_after settings manned move
  obtain ⟨flight, changed, listedAfter, changedThere, free⟩ := deserted
  obtain ⟨again, againThere, changedName, unlanded⟩ :=
    (moved.orderly orderly).manned.listed.mp listedAfter
  cases changedThere.symm.trans againThere
  -- A flight without a leader that is still the same was deserted before.
  have changes : (after settings logbook move).crew.flights[flight]? ≠
      logbook.crew.flights[flight]? := by
    intro same
    rw [same] at changedThere
    have listed := manned.listed.mpr
      ⟨changed, changedThere, changedName, unlanded⟩
    exact before ⟨flight, changed, listed, changedThere, free⟩
  cases stirred_after settings manned move with
  | byNobody flights inFlight stages => exact absurd (by rw [flights]) changes
  | @bySomebody task ready own turn =>
      have left := turn.left (manned.noting ready logbook.crew.calls)
        changedThere free unlanded changes
      cases left with
      | @byLeader joined leader verdict there leads alone finished unanswered =>
          obtain ⟨renamed, renamedThere, sameName⟩ := moved.named manned there
          cases changedThere.symm.trans renamedThere
          have listed := manned.listed.mpr
            ⟨joined, there, sameName.symm.trans changedName,
              manned.open_of_leader there leads⟩
          have awaits_iff : ∀ {other : TaskId},
              logbook.crew.Awaits other name ↔ other = leader := by
            intro other
            rw [manned.awaits_iff_mem listed there, Flight.members, leads,
              alone]
            exact List.mem_singleton
          exact ⟨leader, verdict, Or.inl (awaits_iff.mpr rfl),
            fun other => awaits_iff.mp, finished, unanswered⟩
      | @byCaller call verdict unbegun named sole unled finished unanswered =>
          have sameName : call.name = name := named.trans changedName
          have misses := misses_of_changes settings manned own unbegun
            fun same => changes (by rw [same])
          refine ⟨task, verdict, Or.inr (sameName ▸ misses), ?_, finished,
            unanswered⟩
          intro other awaits
          obtain ⟨place, awaited, listed, there, member⟩ :=
            manned.listed_of_awaits awaits
          obtain rfl := sole place (sameName ▸ listed)
          have nobody := unled awaited there
          have alone := manned.led there nobody
          simp [nobody, alone] at member

variable (move) in
/-- A tidy crew stays tidy unless the move abandons a name. -/
theorem tidy_after_iff (orderly : logbook.crew.Orderly)
    (tidy : logbook.crew.Tidy) :
    (after settings logbook move).crew.Tidy ↔
      ∀ name, ¬ Abandons settings logbook move name := by
  have manned := orderly.manned
  have moved := moved_after settings manned move
  rw [(moved.orderly orderly).manned.tidy_iff]
  have before := manned.tidy_iff.mp tidy
  constructor
  · intro nowhere name abandons
    exact nowhere name (deserted_of_abandons settings orderly abandons)
  · intro kept name deserted
    exact kept name
      (abandons_of_deserted settings orderly deserted (before name))

theorem tidy_prefix_iff (orderly : logbook.crew.Orderly)
    (tidy : logbook.crew.Tidy) (moves : List (Move Value)) :
    (∀ early, early <+: moves → (follow settings logbook early).crew.Tidy) ↔
      Unabandoned settings logbook moves := by
  induction moves generalizing logbook with
  | nil =>
      refine iff_of_true ?_ trivial
      intro early isPrefix
      rw [List.prefix_nil.mp isPrefix]
      exact tidy
  | cons move moves inductionHypothesis =>
      have step := tidy_after_iff settings move orderly tidy
      have orderlyAfter :=
        (moved_after settings orderly.manned move).orderly orderly
      constructor
      · intro all
        have here : (after settings logbook move).crew.Tidy :=
          all [move] (by simp)
        refine ⟨step.mp here, (inductionHypothesis orderlyAfter here).mp ?_⟩
        intro early isPrefix
        exact all (move :: early) (List.cons_prefix_cons.mpr ⟨rfl, isPrefix⟩)
      · rintro ⟨kept, rest⟩ early isPrefix
        cases early with
        | nil => exact tidy
        | cons first early =>
            obtain ⟨rfl, isRest⟩ := List.cons_prefix_cons.mp isPrefix
            have goOn := inductionHypothesis orderlyAfter (step.mpr kept)
            exact goOn.mpr rest early isRest

omit [Keyed Value] in
theorem tidy_start (settings : Settings) (paddings : Nat → List Nat) :
    (start settings paddings : Logbook Value).crew.Tidy := by
  have orderly : (start settings paddings : Logbook Value).crew.Orderly :=
    orderly_start settings paddings
  refine orderly.manned.tidy_iff.mpr ?_
  rintro name ⟨flight, joined, _, there, _⟩
  cases there

/-- How the names in flight answer for the calls that await them. -/
structure Accounts (logbook : Logbook Value) (moves : List (Move Value)) :
    Prop where
  /-- At every moment the names in flight are those that somebody awaits, if and
  only if no move abandons a name. -/
  exactly :
    (∀ early, early <+: moves →
      (follow settings logbook early).crew.Tidy) ↔
      Unabandoned settings logbook moves
  /-- If no move abandons a name, no name is in flight when no call is
  pending. -/
  empty : Unabandoned settings logbook moves →
    (∀ task name, ¬ (follow settings logbook moves).crew.Awaits task name) →
      (follow settings logbook moves).scheduler.inFlight.size = 0
  -- The other direction holds in any case.
  listed : ∀ {task : TaskId} {name : String},
    (follow settings logbook moves).crew.Awaits task name →
      name ∈ (follow settings logbook moves).scheduler.inFlight
  /-- Once nobody is ready, every call that has missed a name and has not ended
  is pending. -/
  pending : (follow settings logbook moves).scheduler.ready = [] →
    ∀ {task : TaskId} {stage : Stage Value} {flight : FlightId}
      {name : String},
      (follow settings logbook moves).crew.tasks[task]? = some stage →
        stage.aboard? = some (flight, name) →
          (follow settings logbook moves).crew.Awaits task name

/-- Whatever happened from the start, only a name that a call has abandoned can
stay in flight without anybody who awaits it. -/
theorem listed_iff_awaited
    (settings : Settings) (paddings : Nat → List Nat)
    (moves : List (Move Value)) :
    Accounts settings (start settings paddings) moves := by
  have orderlyStart : (start settings paddings : Logbook Value).crew.Orderly :=
    orderly_start settings paddings
  have orderly := orderly_follow settings orderlyStart moves
  have exactly := tidy_prefix_iff settings orderlyStart
    (tidy_start settings paddings) moves
  refine
    { exactly
      empty := ?_
      listed := ?_
      pending := fun rest => orderly.awaits_of_rest rest }
  · intro kept idle
    have tidy := exactly.mpr kept moves (List.prefix_refl moves)
    exact tidy.size_eq_zero idle
  · intro task name awaits
    obtain ⟨flight, joined, listed, _⟩ :=
      orderly.manned.listed_of_awaits awaits
    exact (ExtTreeMap.getElem?_eq_some_iff.mp listed).1

theorem not_abandons_of_running
    (running : (after settings logbook move).crew.tasks.toList.any
      Stage.isOver = false) (name : String) :
    ¬ Abandons settings logbook move name := by
  rintro ⟨task, verdict, _, _, finished, _⟩
  have member := Array.mem_toList_iff.mpr (Array.mem_of_getElem? finished)
  exact List.any_eq_false.mp running _ member rfl

/-- A call that fetches and is aborted, and nobody waits with it. -/
def forsaken : List (Move NameTag) :=
  [.call patient, .turn 0, .abort 0]

theorem aborted_call_leaks :
    let logbook := follow Settings.twoShards
      (start Settings.twoShards fun _ => []) forsaken
    logbook.crew.tasks = #[.over .cancelled] ∧
      logbook.scheduler.inFlight.size = 1 ∧
        "a" ∈ logbook.scheduler.inFlight ∧
          (∀ task name, ¬ logbook.crew.Awaits task name) ∧
            ¬ logbook.crew.Tidy := by
  intro logbook
  have ended : logbook.crew.tasks = #[.over .cancelled] := by rfl
  have stays : "a" ∈ logbook.scheduler.inFlight := by decide +kernel
  have idle : ∀ task name, ¬ logbook.crew.Awaits task name := by
    rintro task name ⟨stage, flight, joined, found, aboard, _⟩
    have member := Array.mem_of_getElem? found
    rw [ended, List.mem_toArray, List.mem_singleton] at member
    subst member
    cases aboard
  refine ⟨ended, by decide +kernel, stays, idle, ?_⟩
  intro tidy
  obtain ⟨task, awaits⟩ := (tidy "a").mp stays
  exact idle task "a" awaits

theorem not_abandons_last (name : String) :
    ¬ Abandons Settings.twoShards
      (follow Settings.twoShards (start Settings.twoShards fun _ => []) shared)
      (.abort 0) name := by
  rintro ⟨task, verdict, pending, last, finished, _⟩
  have ended : (after Settings.twoShards
      (follow Settings.twoShards (start Settings.twoShards fun _ => [])
        shared) (.abort 0)).crew.tasks =
      #[.over .cancelled, .waiting 0 patient] := by rfl
  rw [ended] at finished
  have first : task = 0 := by
    match task with
    | 0 => rfl
    | 1 => cases finished
    | _ + 2 => cases finished
  subst first
  rcases pending with ⟨stage, flight, joined, found, aboard, _⟩ | ⟨turns, _⟩
  · have asleep : (follow Settings.twoShards
        (start Settings.twoShards fun _ => []) shared).crew.tasks[0]? =
          some (.asleep (.complete 0 patient) 5) := by rfl
    cases asleep.symm.trans found
    cases aboard
    have awaits : (follow Settings.twoShards
        (start Settings.twoShards fun _ => []) shared).crew.Awaits 1 "a" :=
      ⟨.waiting 0 patient, 0, _, rfl, rfl, rfl, rfl⟩
    cases last 1 awaits
  · cases turns

/-- Two calls that share a flight, of which the first is aborted. -/
theorem listed_iff_awaited_shared :
    let moves := shared ++ [.abort 0]
    let logbook := follow Settings.twoShards
      (start Settings.twoShards fun _ => []) moves
    Accounts Settings.twoShards (start Settings.twoShards fun _ => []) moves ∧
      Unabandoned Settings.twoShards
          (start Settings.twoShards fun _ => []) moves ∧
        logbook.crew.Tidy ∧ "a" ∈ logbook.scheduler.inFlight ∧
          logbook.crew.Awaits 1 "a" := by
  intro moves logbook
  have accounts := listed_iff_awaited Settings.twoShards (fun _ => []) moves
  have awaits : logbook.crew.Awaits 1 "a" :=
    ⟨.waiting 0 patient, 0, _, rfl, rfl, rfl, rfl⟩
  have kept : Unabandoned Settings.twoShards
      (start Settings.twoShards fun _ => []) moves := by
    refine ⟨?_, ?_, ?_, ?_, ?_, trivial⟩
    · exact not_abandons_of_running _ (by rfl)
    · exact not_abandons_of_running _ (by rfl)
    · exact not_abandons_of_running _ (by rfl)
    · exact not_abandons_of_running _ (by rfl)
    · exact not_abandons_last
  have tidy := accounts.exactly.mpr kept moves (List.prefix_refl moves)
  exact ⟨accounts, kept, tidy, accounts.listed awaits, awaits⟩

end Logbook

end ReadThrough
