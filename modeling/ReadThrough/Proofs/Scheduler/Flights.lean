import ReadThrough.Proofs.Scheduler.Strokes

/-!
# What strokes make of flights

A stroke of one task leaves the flights of others to them: somebody may come to
wait or quit, no more.  A flight that has landed never changes.  A task that
leads a flight goes on to lead it, lands it and ends with its outcome, or leaves
it to the first who waits.

Whoever can go on without time passing is ready, and while a name is fetched
nobody else fetches it.
-/

namespace ReadThrough

namespace Flight

variable {Value : Type} {task : TaskId}

/-- Nobody quits a flight for which nobody waits. -/
theorem filter_waiting_of_alone {flight : Flight Value}
    (alone : flight.waiting = []) (keeps : TaskId → Bool) :
    { flight with waiting := flight.waiting.filter keeps } = flight := by
  rw [alone]
  cases flight
  cases alone
  rfl

/-- What a flight keeps while others than its leader make strokes. -/
structure Spared (task : TaskId) (before after : Flight Value) : Prop where
  name : after.name = before.name
  leader : after.leader = before.leader
  outcome : after.outcome = before.outcome
  waiting :
    after.waiting.filter (· ≠ task) = before.waiting.filter (· ≠ task)

theorem Spared.refl (flight : Flight Value) : Spared task flight flight :=
  ⟨rfl, rfl, rfl, rfl⟩

theorem Spared.trans {before middle after : Flight Value}
    (first : Spared task before middle) (second : Spared task middle after) :
    Spared task before after :=
  ⟨second.name.trans first.name, second.leader.trans first.leader,
    second.outcome.trans first.outcome, second.waiting.trans first.waiting⟩

end Flight

namespace Crew

variable {Value : Type} {crew next : Crew Value} {task other : TaskId}
  {flight : FlightId} {joined : Flight Value}

/-! ## Flights -/

/-- What a stroke makes of a flight. -/
inductive Altered (task : TaskId) (crew next : Crew Value)
    (flight : FlightId) (joined : Flight Value) : Flight Value → Prop
  | stays : Altered task crew next flight joined joined
  /-- The task leads the flight, which nobody led. -/
  | takes (free : joined.leader = none) (unlanded : joined.outcome = none) :
      Altered task crew next flight joined
        { joined with leader := some task }
  /-- The task waits behind all others. -/
  | joins {leader : TaskId} (led : joined.leader = some leader)
      (apart : leader ≠ task) (unlanded : joined.outcome = none) :
      Altered task crew next flight joined
        { joined with waiting := joined.waiting ++ [task] }
  /-- The task lands the flight and ends with its outcome. -/
  | lands (outcome : Except Failure Value)
      (leads : joined.leader = some task)
      (finished : next.tasks[task]? =
        some (.over (.returned (outcome.map .one))))
      (ready : next.ready = crew.ready ++ joined.waiting) :
      Altered task crew next flight joined (joined.landedWith outcome)
  /-- The task leaves the flight and ends without a result. -/
  | leaves (verdict : Verdict Value)
      (unanswered : ∀ result, verdict ≠ .returned result)
      (leads : joined.leader = some task)
      (finished : next.tasks[task]? = some (.over verdict))
      (ready : next.ready = crew.ready ++ joined.waiting.head?.toList) :
      Altered task crew next flight joined joined.handedOver
  /-- The task quits waiting. -/
  | quits (follows : joined.leader ≠ some task) :
      Altered task crew next flight joined
        { joined with waiting := joined.waiting.filter (· ≠ task) }

theorem Stroke.altered
    (manned : crew.Manned) (stroke : Stroke task crew next)
    (there : crew.flights[flight]? = some joined) :
    ∃ changed, next.flights[flight]? = some changed ∧
      Altered task crew next flight joined changed := by
  have seated : ∀ {place : FlightId} {other changed : Flight Value},
      crew.flights[place]? = some other →
        (place = flight → joined = other →
          Altered task crew next flight joined changed) →
        ∃ found, (crew.flights.setIfInBounds place changed)[flight]? =
            some found ∧ Altered task crew next flight joined found := by
    intro place other changed otherThere alters
    rw [getElem?_setIfInBounds_of_found otherThere]
    split
    next here =>
      subst here
      have sameFlight := Option.some.inj (there.symm.trans otherThere)
      exact ⟨changed, rfl, alters rfl sameFlight⟩
    next => exact ⟨joined, there, .stays⟩
  have isOver : ∀ {stage rest : Stage Value},
      crew.tasks[task]? = some stage →
        (crew.tasks.setIfInBounds task rest)[task]? = some rest := by
    intro stage rest found
    exact Array.getElem?_setIfInBounds_self_of_lt
      (Array.getElem?_eq_some_iff.mp found).1
  cases stroke with
  | notes => exact ⟨joined, there, .stays⟩
  | settles => exact ⟨joined, there, .stays⟩
  | delegates => exact ⟨joined, there, .stays⟩
  | opens found vacant =>
      exact ⟨joined, getElem?_push_of_found there _, .stays⟩
  | takes found listed otherThere free =>
      obtain ⟨again, againThere, _, unlanded⟩ := manned.listed.mp listed
      cases otherThere.symm.trans againThere
      refine seated otherThere ?_
      rintro rfl rfl
      exact .takes free unlanded
  | joins found listed otherThere led =>
      obtain ⟨again, againThere, _, unlanded⟩ := manned.listed.mp listed
      cases otherThere.symm.trans againThere
      refine seated otherThere ?_
      rintro rfl rfl
      refine .joins led ?_ unlanded
      rintro rfl
      have outside := manned.not_member_of_ashore found rfl otherThere
      exact outside (Flight.mem_members.mpr (Or.inl led))
  | fetches => exact ⟨joined, there, .stays⟩
  | lands outcome found aboard otherThere leads =>
      refine seated otherThere ?_
      rintro rfl rfl
      exact .lands outcome leads (isOver found) rfl
  | leaves verdict unanswered found aboard otherThere leads =>
      refine seated otherThere ?_
      rintro rfl rfl
      exact .leaves verdict unanswered leads (isOver found) rfl
  | quits found otherThere follows =>
      refine seated otherThere ?_
      rintro rfl rfl
      exact .quits follows
  | learns => exact ⟨joined, there, .stays⟩

/-- A flight that has landed never changes. -/
theorem Stroke.landed
    (manned : crew.Manned) (stroke : Stroke task crew next)
    (there : crew.flights[flight]? = some joined)
    (landed : joined.outcome ≠ none) :
    next.flights[flight]? = some joined := by
  obtain ⟨changed, changedThere, altered⟩ := stroke.altered manned there
  have nobody := manned.landed there landed
  have alone := manned.led there nobody
  cases altered with
  | stays => exact changedThere
  | takes free unlanded => exact absurd unlanded landed
  | joins led apart unlanded => exact absurd unlanded landed
  | lands outcome leads => cases nobody.symm.trans leads
  | leaves verdict unanswered leads => cases nobody.symm.trans leads
  | quits follows =>
      rw [changedThere, Flight.filter_waiting_of_alone alone]

/-- A flight that another task leads goes on: somebody may come to wait at the
end, and somebody may quit. -/
theorem Stroke.spared
    (manned : crew.Manned) (stroke : Stroke task crew next)
    (there : crew.flights[flight]? = some joined)
    (led : joined.leader = some other) (apart : other ≠ task) :
    ∃ changed, next.flights[flight]? = some changed ∧
      Flight.Spared task joined changed := by
  obtain ⟨changed, changedThere, altered⟩ := stroke.altered manned there
  refine ⟨changed, changedThere, ?_⟩
  have foreign : joined.leader ≠ some task := by
    rw [led]
    intro same
    exact apart (Option.some.inj same)
  cases altered with
  | stays => exact .refl joined
  | takes free => cases led.symm.trans free
  | joins => exact ⟨rfl, rfl, rfl, by simp⟩
  | lands outcome leads => exact absurd leads foreign
  | leaves verdict unanswered leads => exact absurd leads foreign
  | quits => exact ⟨rfl, rfl, rfl, by simp⟩

/-! ## Who is ready -/

/-- Whoever can go on without time passing is ready. -/
def Attends (crew : Crew Value) (task : TaskId) : Prop :=
  ∀ flight call joined,
    crew.tasks[task]? = some (.waiting flight call) →
      crew.flights[flight]? = some joined →
        (joined.leader = some task ∨ joined.outcome ≠ none) →
          task ∈ crew.ready

theorem Stroke.ready
    (stroke : Stroke task crew next) (isReady : other ∈ crew.ready) :
    other ∈ next.ready := by
  cases stroke with
  | delegates => exact List.mem_append_left _ isReady
  | lands => exact List.mem_append_left _ isReady
  | leaves => exact List.mem_append_left _ isReady
  | _ => exact isReady

/-- A stroke of one task makes no other wait. -/
theorem Stroke.waiting_other {call : SingleCall Value}
    (stroke : Stroke task crew next) (apart : other ≠ task)
    (waits : next.tasks[other]? = some (.waiting flight call)) :
    crew.tasks[other]? = some (.waiting flight call) := by
  have kept : ∀ {tasks : Array (Stage Value)} {rest : Stage Value},
      (tasks.setIfInBounds task rest)[other]? = some (.waiting flight call) →
        tasks[other]? = some (.waiting flight call) := by
    intro tasks rest after
    rw [Array.getElem?_setIfInBounds_ne (Ne.symm apart)] at after
    exact after
  cases stroke with
  | notes => exact waits
  | delegates =>
      have before := kept waits
      simp only [spawn, note, Array.getElem?_push] at before
      split at before
      · cases before
      · exact before
  | _ => exact kept waits

theorem Stroke.attends
    (manned : crew.Manned) (stroke : Stroke task crew next)
    (apart : other ≠ task) (attends : crew.Attends other) :
    next.Attends other := by
  intro flight call changed waits changedThere goesOn
  have waited := stroke.waiting_other apart waits
  obtain ⟨joined, there, _, rank⟩ := manned.aboard waited rfl
  obtain ⟨found, foundThere, altered⟩ := stroke.altered manned there
  cases changedThere.symm.trans foundThere
  have before := attends flight call joined waited there
  cases altered with
  | stays => exact stroke.ready (before goesOn)
  | takes free unlanded =>
      rcases goesOn with leads | landed
      · exact absurd (Option.some.inj leads).symm apart
      · exact absurd unlanded landed
  | joins => exact stroke.ready (before goesOn)
  | lands outcome leads finished ready =>
      -- The flight made everybody ready who waited for it.
      rw [ready]
      apply List.mem_append_right
      rcases rank with otherLeads | ⟨_, isWaiting | landed⟩
      · rw [leads] at otherLeads
        exact absurd (Option.some.inj otherLeads).symm apart
      · exact isWaiting
      · exact absurd (manned.open_of_leader there leads) landed
  | leaves verdict unanswered leads finished ready =>
      rw [ready]
      apply List.mem_append_right
      rcases goesOn with isNext | landed
      · exact Option.mem_toList.mpr isNext
      · exact absurd (manned.open_of_leader there leads) landed
  | quits => exact stroke.ready (before goesOn)

/-! ## The leader of a flight -/

/-- What comes of a flight when its leader takes its turn. -/
inductive Captaincy (task : TaskId) (flight : FlightId)
    (joined : Flight Value) (next : Crew Value) : Prop
  /-- It still leads. -/
  | leads (there : next.flights[flight]? = some joined)
  /-- It has landed the flight and ended with its outcome. -/
  | lands (outcome : Except Failure Value)
      (there : next.flights[flight]? = some (joined.landedWith outcome))
      (finished : next.tasks[task]? =
        some (.over (.returned (outcome.map .one))))
  /-- It has ended without a result, and the first who waits leads. -/
  | leaves (verdict : Verdict Value)
      (unanswered : ∀ result, verdict ≠ .returned result)
      (there : next.flights[flight]? = some joined.handedOver)
      (finished : next.tasks[task]? = some (.over verdict))
      (ready : ∀ first, joined.waiting.head? = some first →
        first ∈ next.ready)

theorem Stroke.captaincy
    (manned : crew.Manned) (stroke : Stroke task crew next)
    (leads : joined.leader = some task)
    (captaincy : Captaincy task flight joined crew) :
    Captaincy task flight joined next := by
  cases captaincy with
  | leads there =>
      obtain ⟨changed, changedThere, altered⟩ := stroke.altered manned there
      cases altered with
      | stays => exact .leads changedThere
      | takes free => cases leads.symm.trans free
      | joins led apart =>
          rw [leads] at led
          exact absurd (Option.some.inj led).symm apart
      | lands outcome leads finished => exact .lands outcome changedThere finished
      | leaves verdict unanswered leads finished ready =>
          refine .leaves verdict unanswered changedThere finished ?_
          intro first isFirst
          rw [ready]
          exact List.mem_append_right _ (Option.mem_toList.mpr isFirst)
      | quits follows => exact absurd leads follows
  | lands outcome there finished =>
      obtain ⟨labels, rfl⟩ := stroke.of_over finished
      exact .lands outcome there finished
  | leaves verdict unanswered there finished ready =>
      obtain ⟨labels, rfl⟩ := stroke.of_over finished
      exact .leaves verdict unanswered there finished ready

/-! ## Fetches -/

/-- The task waits for a fetch of the name that it called for itself and for
those who wait with it. -/
def Fetches (crew : Crew Value) (task : TaskId) (name : String) : Prop :=
  ∃ flight call wakeAt,
    crew.tasks[task]? = some (.asleep (.complete flight call) wakeAt) ∧
      call.name = name

/-- Whoever fetches a name leads the flight to join for it. -/
theorem Manned.leads_of_fetches {name : String}
    (manned : crew.Manned) (fetches : crew.Fetches task name) :
    ∃ flight joined, crew.inFlight[name]? = some flight ∧
      crew.flights[flight]? = some joined ∧ joined.leader = some task := by
  obtain ⟨flight, call, wakeAt, found, rfl⟩ := fetches
  obtain ⟨joined, there, sameName, leads | ⟨⟨_, isWaiting⟩, _⟩⟩ :=
    manned.aboard found rfl
  · have unlanded := manned.open_of_leader there leads
    have listed := manned.listed.mpr ⟨joined, there, sameName, unlanded⟩
    exact ⟨flight, joined, listed, there, leads⟩
  · cases isWaiting

/-- No two tasks fetch the same name. -/
theorem Manned.fetches_unique {name : String}
    (manned : crew.Manned) (one : crew.Fetches task name)
    (another : crew.Fetches other name) : task = other := by
  obtain ⟨flight, joined, listed, there, leads⟩ :=
    manned.leads_of_fetches one
  obtain ⟨place, found, alsoListed, alsoThere, alsoLeads⟩ :=
    manned.leads_of_fetches another
  cases listed.symm.trans alsoListed
  cases there.symm.trans alsoThere
  exact Option.some.inj (leads.symm.trans alsoLeads)

theorem Stroke.size_le (stroke : Stroke task crew next) :
    crew.tasks.size ≤ next.tasks.size := by
  cases stroke with
  | delegates => simp [note, spawn, put]
  | notes => exact Nat.le_refl _
  | _ => exact Nat.le_of_eq Array.size_setIfInBounds.symm

/-- While somebody fetches a name, a stroke that adds no task calls no fetch of
the name. -/
theorem Stroke.callsOf_eq {fetcher : TaskId} {name : String}
    (manned : crew.Manned) (stroke : Stroke task crew next)
    (fetches : crew.Fetches fetcher name)
    (sameSize : next.tasks.size = crew.tasks.size) :
    next.callsOf name = crew.callsOf name := by
  cases stroke with
  | notes labels => simp [callsOf, note, FetchCall.name?]
  | delegates => simp [note, spawn, put] at sameSize
  | @fetches call place joined wakeAt found there leads =>
      -- The fetcher leads the flight to join for its name, so whoever fetches
      -- the same name is the fetcher, and it is asleep.
      have otherName : call.name ≠ name := by
        intro same
        subst same
        obtain ⟨flight, led, listed, ledThere, ledBy⟩ :=
          manned.leads_of_fetches fetches
        obtain ⟨again, againThere, sameName, _⟩ := manned.aboard found rfl
        cases there.symm.trans againThere
        have unlanded := manned.open_of_leader there leads
        have alsoListed :=
          manned.listed.mpr ⟨joined, there, sameName, unlanded⟩
        cases listed.symm.trans alsoListed
        cases there.symm.trans ledThere
        cases leads.symm.trans ledBy
        obtain ⟨_, _, _, asleep, _⟩ := fetches
        cases found.symm.trans asleep
      simp [callsOf, note, put, FetchCall.name?, otherName]
  | _ => rfl

theorem Stroke.fetches_or_over {fetcher : TaskId} {name : String}
    (stroke : Stroke task crew next)
    (fetches : crew.Fetches fetcher name) :
    next.Fetches fetcher name ∨
      ∃ verdict, next.tasks[task]? = some (.over verdict) := by
  obtain ⟨flight, call, wakeAt, asleep, sameName⟩ := fetches
  by_cases apart : fetcher = task
  · subst apart
    have inside := (Array.getElem?_eq_some_iff.mp asleep).1
    cases stroke with
    | notes => exact Or.inl ⟨flight, call, wakeAt, asleep, sameName⟩
    | settles found running ashore =>
        cases asleep.symm.trans found
        cases ashore
    | delegates found unbegun =>
        cases asleep.symm.trans found
        cases unbegun
    | opens found => cases asleep.symm.trans found
    | takes found => cases asleep.symm.trans found
    | joins found => cases asleep.symm.trans found
    | fetches found => cases asleep.symm.trans found
    | lands =>
        exact Or.inr ⟨_, Array.getElem?_setIfInBounds_self_of_lt inside⟩
    | leaves =>
        exact Or.inr ⟨_, Array.getElem?_setIfInBounds_self_of_lt inside⟩
    | quits found => cases asleep.symm.trans found
    | learns found => cases asleep.symm.trans found
  · have still := stroke.stage_other apart asleep
    exact Or.inl ⟨flight, call, wakeAt, still, sameName⟩

/-- A turn in which a name was fetched at first: as long as it has added no
task, it has called no fetch of the name. -/
structure Guarded (task fetcher : TaskId) (name : String)
    (crew next : Crew Value) : Prop where
  grows : crew.tasks.size ≤ next.tasks.size
  calls : next.tasks.size = crew.tasks.size →
    next.callsOf name = crew.callsOf name
  stays : next.Fetches fetcher name ∨
    ∃ verdict, next.tasks[task]? = some (.over verdict)

theorem Stroke.guarded {fetcher : TaskId} {name : String}
    {middle : Crew Value} (manned : middle.Manned)
    (stroke : Stroke task middle next)
    (guarded : Guarded task fetcher name crew middle) :
    Guarded task fetcher name crew next := by
  have larger := stroke.size_le
  have grown := guarded.grows
  refine ⟨Nat.le_trans grown larger, ?_, ?_⟩
  · intro sameSize
    have before : middle.tasks.size = crew.tasks.size := by omega
    have after : next.tasks.size = middle.tasks.size := by omega
    rw [← guarded.calls before]
    rcases guarded.stays with fetches | ⟨verdict, finished⟩
    · exact stroke.callsOf_eq manned fetches after
    · obtain ⟨labels, rfl⟩ := stroke.of_over finished
      simp [callsOf, note, FetchCall.name?]
  · rcases guarded.stays with fetches | ⟨verdict, finished⟩
    · exact stroke.fetches_or_over fetches
    · exact Or.inr ⟨verdict, stroke.over finished⟩

end Crew

end ReadThrough
