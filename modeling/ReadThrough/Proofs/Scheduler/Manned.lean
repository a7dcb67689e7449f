import ReadThrough.Proofs.Scheduler.Crew

/-!
# Manned crews

A crew is `Manned` when its flights and its stages agree.  Whoever waits for a
flight that has not landed has a leader; whoever fetches for a flight leads it;
the flights to join are those that have not landed.  So two tasks that fetch the
same name would lead the same flight, and are one.

`Manned.stroke` says that every stroke keeps the agreement.
-/

namespace ReadThrough.Crew

open Std (ExtTreeMap)

variable {Value : Type}

/-- Flights and stages agree with each other. -/
structure Manned (crew : Crew Value) : Prop where
  /-- The flights to join are those that have not landed. -/
  listed : ∀ {name : String} {flight : FlightId},
    crew.inFlight[name]? = some flight ↔
      ∃ joined, crew.flights[flight]? = some joined ∧ joined.name = name ∧
        joined.outcome = none
  /-- Nobody waits for a flight without a leader. -/
  led : ∀ {flight : FlightId} {joined : Flight Value},
    crew.flights[flight]? = some joined → joined.leader = none →
      joined.waiting = []
  /-- Nobody leads a flight that has landed. -/
  landed : ∀ {flight : FlightId} {joined : Flight Value},
    crew.flights[flight]? = some joined → joined.outcome ≠ none →
      joined.leader = none
  /-- Nobody takes part in a flight twice. -/
  nodup : ∀ {flight : FlightId} {joined : Flight Value},
    crew.flights[flight]? = some joined → joined.members.Nodup
  /-- Whoever takes part in a flight is in a stage that says so. -/
  members : ∀ {flight : FlightId} {joined : Flight Value} {task : TaskId},
    crew.flights[flight]? = some joined → task ∈ joined.members →
      ∃ stage, crew.tasks[task]? = some stage ∧
        stage.aboard? = some (flight, joined.name)
  /-- Whoever waits for a leader has not called its fetch. -/
  waiters : ∀ {flight : FlightId} {joined : Flight Value} {task : TaskId},
    crew.flights[flight]? = some joined → task ∈ joined.waiting →
      ∃ call, crew.tasks[task]? = some (.waiting flight call)
  /-- Nobody has called its fetch for a flight without waiting for it. -/
  awaited : ∀ {task : TaskId} {errand : Errand Value},
    crew.tasks[task]? = some (.called errand) → errand.flight? = none
  /-- Whoever is in a stage of a flight leads it, waits for its leader, or has
  yet to learn its outcome. -/
  aboard : ∀ {task : TaskId} {stage : Stage Value} {flight : FlightId}
      {name : String},
    crew.tasks[task]? = some stage → stage.aboard? = some (flight, name) →
      ∃ joined, crew.flights[flight]? = some joined ∧ joined.name = name ∧
        (joined.leader = some task ∨
          ((∃ call, stage = .waiting flight call) ∧
            (task ∈ joined.waiting ∨ joined.outcome ≠ none)))

section Manned

variable {crew : Crew Value} (manned : crew.Manned) {task : TaskId}
  {flight : FlightId} {joined changed : Flight Value}
  {old stage : Stage Value}

include manned

/-- Who is ready, and what was called, does not matter to flights. -/
theorem Manned.noting (ready : List TaskId) (calls : List FetchCall) :
    Manned { crew with ready := ready, calls := calls } :=
  ⟨manned.listed, manned.led, manned.landed, manned.nodup, manned.members,
    manned.waiters, manned.awaited, manned.aboard⟩

/-- Whoever takes part in a flight takes part in no other. -/
theorem Manned.same_flight
    (found : crew.tasks[task]? = some old) {name : String}
    (aboard : old.aboard? = some (flight, name))
    {place : FlightId} (there : crew.flights[place]? = some joined)
    (member : task ∈ joined.members) :
    place = flight ∧ joined.name = name := by
  obtain ⟨again, againFound, takesPart⟩ := manned.members there member
  rw [found] at againFound
  cases againFound
  rw [aboard] at takesPart
  cases takesPart
  exact ⟨rfl, rfl⟩

theorem Manned.not_member_of_ashore
    (found : crew.tasks[task]? = some old) (ashore : old.aboard? = none)
    (there : crew.flights[flight]? = some joined) :
    task ∉ joined.members := by
  intro member
  obtain ⟨other, otherFound, aboard⟩ := manned.members there member
  rw [found] at otherFound
  cases otherFound
  rw [ashore] at aboard
  cases aboard

theorem Manned.members_eq_nil_of_landed
    (there : crew.flights[flight]? = some joined)
    (landed : joined.outcome ≠ none) : joined.members = [] := by
  have nobody := manned.landed there landed
  have alone := manned.led there nobody
  simp [Flight.members, nobody, alone]

theorem Manned.open_of_leader
    (there : crew.flights[flight]? = some joined)
    (leads : joined.leader = some task) : joined.outcome = none := by
  cases outcome : joined.outcome with
  | none => rfl
  | some result =>
      have landed : joined.outcome ≠ none := by simp [outcome]
      have nobody := manned.landed there landed
      rw [leads] at nobody
      cases nobody

/-- A task can change its stage as far as the flights allow it. -/
theorem Manned.put
    (found : crew.tasks[task]? = some old)
    (agrees : ∀ {flight : FlightId} {joined : Flight Value},
      crew.flights[flight]? = some joined → task ∈ joined.members →
        stage.aboard? = some (flight, joined.name) ∧
          (task ∈ joined.waiting → ∃ call, stage = .waiting flight call))
    (takesPart : ∀ {flight : FlightId} {name : String},
      stage.aboard? = some (flight, name) →
        old.aboard? = some (flight, name) ∧
          ∃ joined, crew.flights[flight]? = some joined ∧
            joined.leader = some task)
    (awaited : ∀ errand, stage = .called errand → errand.flight? = none) :
    (crew.put task stage).Manned := by
  have stages := getElem?_setIfInBounds_of_found found stage
  refine
    ⟨manned.listed, manned.led, manned.landed, manned.nodup, ?_, ?_, ?_, ?_⟩
  · intro flight joined other there member
    simp only [Crew.put, stages]
    split
    next same =>
      subst same
      exact ⟨stage, rfl, (agrees there member).1⟩
    next => exact manned.members there member
  · intro flight joined other there member
    simp only [Crew.put, stages]
    split
    next same =>
      subst same
      have inMembers : other ∈ joined.members :=
        List.mem_append_right _ member
      obtain ⟨call, rfl⟩ := (agrees there inMembers).2 member
      exact ⟨call, rfl⟩
    next => exact manned.waiters there member
  · intro other errand stageFound
    simp only [Crew.put, stages] at stageFound
    split at stageFound
    · exact awaited errand (Option.some.inj stageFound)
    · exact manned.awaited stageFound
  · intro other found' flight name stageFound aboard
    simp only [Crew.put, stages] at stageFound
    split at stageFound
    next same =>
      cases stageFound
      -- The new stage names a flight that the task leads already.
      obtain ⟨before, joined, there, leads⟩ := takesPart aboard
      obtain ⟨again, againThere, sameName, _⟩ := manned.aboard found before
      have sameFlight : joined = again :=
        Option.some.inj (there.symm.trans againThere)
      exact ⟨joined, there, sameFlight ▸ sameName, Or.inl (same ▸ leads)⟩
    next => exact manned.aboard stageFound aboard

/-- A task that takes part in no flight can go on outside of any. -/
theorem Manned.settle
    (found : crew.tasks[task]? = some old) (ashore : old.aboard? = none)
    (stays : stage.aboard? = none) : (crew.put task stage).Manned := by
  refine manned.put found ?_ ?_ ?_
  · intro flight joined there member
    have absent := manned.not_member_of_ashore found ashore there
    exact absurd member absent
  · intro flight name aboard
    rw [stays] at aboard
    cases aboard
  · intro errand isCalled
    subst isCalled
    exact Stage.aboard?_called_eq_none_iff.mp stays

/-- A task that takes part in no flight can be added. -/
theorem Manned.spawn (ashore : stage.aboard? = none) :
    (crew.spawn stage).Manned := by
  refine
    ⟨manned.listed, manned.led, manned.landed, manned.nodup, ?_, ?_, ?_, ?_⟩
  · intro flight joined other there member
    obtain ⟨found, before, aboard⟩ := manned.members there member
    exact ⟨found, getElem?_push_of_found before stage, aboard⟩
  · intro flight joined other there member
    obtain ⟨call, before⟩ := manned.waiters there member
    exact ⟨call, getElem?_push_of_found before stage⟩
  · intro other errand stageFound
    simp only [Crew.spawn, Array.getElem?_push] at stageFound
    split at stageFound
    · cases stageFound
      exact Stage.aboard?_called_eq_none_iff.mp ashore
    · exact manned.awaited stageFound
  · intro other found flight name stageFound aboard
    simp only [Crew.spawn, Array.getElem?_push] at stageFound
    split at stageFound
    · cases stageFound
      rw [ashore] at aboard
      cases aboard
    · exact manned.aboard stageFound aboard

/-- A task and a flight can change together as long as the other members keep
their ranks, unless they are promoted to lead. -/
theorem Manned.exchange
    (found : crew.tasks[task]? = some old)
    (there : crew.flights[flight]? = some joined)
    (before : ∀ {place : FlightId} {name : String},
      old.aboard? = some (place, name) → place = flight)
    (sameName : changed.name = joined.name)
    (sameOutcome : changed.outcome = joined.outcome)
    (led : changed.leader = none → changed.waiting = [])
    (landed : changed.outcome ≠ none → changed.leader = none)
    (nodup : changed.members.Nodup)
    (stays : ∀ other, other ≠ task → other ∈ joined.members →
      other ∈ changed.members)
    (comes : ∀ other, other ≠ task → other ∈ changed.members →
      other ∈ joined.members)
    (leads : ∀ other, other ≠ task → joined.leader = some other →
      changed.leader = some other)
    (waits : ∀ other, other ≠ task → other ∈ changed.waiting →
      other ∈ joined.waiting)
    (self : task ∈ changed.members →
      ∃ call, stage = .waiting flight call ∧ call.name = joined.name)
    (awaited : ∀ errand, stage ≠ .called errand)
    (aboard : ∀ {place : FlightId} {name : String},
      stage.aboard? = some (place, name) →
        place = flight ∧ name = joined.name ∧ task ∈ changed.members) :
    ((crew.put task stage).seat flight changed).Manned := by
  have stages := getElem?_setIfInBounds_of_found found stage
  have seats := getElem?_setIfInBounds_of_found there changed
  have elsewhere : ∀ {place : FlightId} {other : Flight Value},
      place ≠ flight → crew.flights[place]? = some other →
        task ∉ other.members := by
    intro place other apart otherThere member
    obtain ⟨again, againFound, takesPart⟩ := manned.members otherThere member
    rw [found] at againFound
    cases againFound
    exact apart (before takesPart)
  constructor
  case listed =>
    intro wanted place
    simp only [Crew.put, seat, seats]
    rw [manned.listed]
    grind
  case led =>
    intro place other
    simp only [Crew.put, seat, seats]
    grind [manned.led]
  case landed =>
    intro place other
    simp only [Crew.put, seat, seats]
    grind [manned.landed]
  case nodup =>
    intro place other
    simp only [Crew.put, seat, seats]
    grind [manned.nodup]
  case members =>
    intro place other member
    simp only [Crew.put, seat, seats, stages]
    grind [manned.members, Stage.aboard?]
  case waiters =>
    intro place other member
    simp only [Crew.put, seat, seats, stages]
    grind [manned.waiters, Flight.mem_members]
  case awaited =>
    intro other errand
    simp only [Crew.put, seat, stages]
    grind [manned.awaited]
  case aboard =>
    intro member memberStage place name memberFound takesPart
    simp only [Crew.put, seat, seats, stages] at memberFound ⊢
    by_cases own : member = task
    · subst own
      rw [if_pos rfl] at memberFound
      cases memberFound
      obtain ⟨rfl, rfl, inside⟩ := aboard takesPart
      obtain ⟨call, isWaiting, _⟩ := self inside
      refine ⟨changed, if_pos rfl, sameName, ?_⟩
      rcases Flight.mem_members.mp inside with isLeader | waiting
      · exact Or.inl isLeader
      · exact Or.inr ⟨⟨call, isWaiting⟩, Or.inl waiting⟩
    · rw [if_neg own] at memberFound
      obtain ⟨other, otherThere, otherName, rank⟩ :=
        manned.aboard memberFound takesPart
      by_cases here : place = flight
      · -- A member of the changed flight keeps its rank, or is promoted.
        subst here
        rw [there] at otherThere
        cases otherThere
        refine ⟨changed, if_pos rfl, sameName.trans otherName, ?_⟩
        rcases rank with isLeader | ⟨isWaiting, waiting | landed⟩
        · exact Or.inl (leads member own isLeader)
        · have inside : member ∈ joined.members :=
            Flight.mem_members.mpr (Or.inr waiting)
          rcases Flight.mem_members.mp (stays member own inside) with
            isLeader | still
          · exact Or.inl isLeader
          · exact Or.inr ⟨isWaiting, Or.inl still⟩
        · exact Or.inr ⟨isWaiting, Or.inr (sameOutcome ▸ landed)⟩
      · exact ⟨other, by rw [if_neg here, otherThere], otherName, rank⟩

/-- A task that took part in no flight can open one that it leads. -/
theorem Manned.open {call : SingleCall Value}
    (found : crew.tasks[task]? = some (.single call))
    (vacant : crew.inFlight[call.name]? = none) :
    Manned
      { crew.put task (.waiting crew.flights.size call) with
        flights := crew.flights.push
          { name := call.name, leader := some task, waiting := [],
            outcome := none }
        inFlight := crew.inFlight.insert call.name crew.flights.size } := by
  have stages :=
    getElem?_setIfInBounds_of_found found (.waiting crew.flights.size call)
  have outside : ∀ {place : FlightId} {other : Flight Value},
      crew.flights[place]? = some other → place ≠ crew.flights.size := by
    intro place other there
    exact Nat.ne_of_lt (Array.getElem?_eq_some_iff.mp there).1
  have ashore : ∀ {place : FlightId} {other : Flight Value},
      crew.flights[place]? = some other → task ∉ other.members :=
    manned.not_member_of_ashore found rfl
  constructor
  case listed =>
    intro name place
    simp only [Array.getElem?_push, ExtTreeMap.getElem?_insert,
      Std.compare_eq_iff_eq]
    by_cases new : place = crew.flights.size
    · subst new
      have unlisted : crew.inFlight[name]? ≠ some crew.flights.size := by
        intro old
        obtain ⟨joined, there, _⟩ := manned.listed.mp old
        exact outside there rfl
      by_cases own : call.name = name
      · simp [own]
      · simp [own, unlisted]
    · rw [if_neg new]
      by_cases own : call.name = name
      · subst own
        rw [if_pos rfl]
        constructor
        · intro same
          exact absurd (Option.some.inj same).symm new
        · intro old
          rw [manned.listed.mpr old] at vacant
          cases vacant
      · rw [if_neg own]
        exact manned.listed
  case led =>
    intro place other
    simp only [Array.getElem?_push]
    grind [manned.led]
  case landed =>
    intro place other
    simp only [Array.getElem?_push]
    grind [manned.landed]
  case nodup =>
    intro place other
    simp only [Array.getElem?_push]
    grind [manned.nodup, Flight.members]
  case members =>
    intro place other member
    simp only [Crew.put, Array.getElem?_push, stages]
    grind [manned.members, Stage.aboard?, Flight.mem_members]
  case waiters =>
    intro place other member
    simp only [Crew.put, Array.getElem?_push, stages]
    grind [manned.waiters, Flight.mem_members]
  case awaited =>
    intro other errand
    simp only [Crew.put, stages]
    grind [manned.awaited]
  case aboard =>
    intro member stage place name stageFound aboard
    simp only [Crew.put, Array.getElem?_push, stages] at stageFound ⊢
    by_cases own : member = task
    · subst own
      rw [if_pos rfl] at stageFound
      cases stageFound
      cases aboard
      exact ⟨_, if_pos rfl, rfl, Or.inl rfl⟩
    · rw [if_neg own] at stageFound
      obtain ⟨joined, there, sameName, rank⟩ :=
        manned.aboard stageFound aboard
      refine ⟨joined, ?_, sameName, rank⟩
      rw [if_neg (outside there), there]

/-- The leader of a flight can land it. -/
theorem Manned.land
    (found : crew.tasks[task]? = some old)
    (there : crew.flights[flight]? = some joined)
    (leads : joined.leader = some task) (verdict : Verdict Value)
    (outcome : Except Failure Value) :
    Manned
      { (crew.put task (.over verdict)).seat flight
          (joined.landedWith outcome) with
        inFlight := crew.inFlight.erase joined.name } := by
  have stages := getElem?_setIfInBounds_of_found found (.over verdict)
  have seats :=
    getElem?_setIfInBounds_of_found there (joined.landedWith outcome)
  have unlanded := manned.open_of_leader there leads
  have listed : crew.inFlight[joined.name]? = some flight :=
    manned.listed.mpr ⟨joined, there, rfl, unlanded⟩
  have member : task ∈ joined.members :=
    Flight.mem_members.mpr (Or.inl leads)
  obtain ⟨again, againFound, onBoard⟩ := manned.members there member
  rw [found] at againFound
  cases againFound
  constructor
  case listed =>
    intro name place
    simp only [Crew.put, seat, seats, ExtTreeMap.getElem?_erase,
      Std.compare_eq_iff_eq]
    have before : crew.inFlight[name]? = some place ↔ _ := manned.listed
    grind [Flight.landedWith]
  case led =>
    intro place other
    simp only [Crew.put, seat, seats]
    grind [manned.led, Flight.landedWith]
  case landed =>
    intro place other
    simp only [Crew.put, seat, seats]
    grind [manned.landed, Flight.landedWith]
  case nodup =>
    intro place other
    simp only [Crew.put, seat, seats]
    grind [manned.nodup, Flight.members, Flight.landedWith]
  case members =>
    intro place other member
    simp only [Crew.put, seat, seats, stages]
    grind [manned.members, Flight.mem_members, Flight.landedWith]
  case waiters =>
    intro place other member otherThere waits
    simp only [Crew.put, seat, seats, stages] at otherThere ⊢
    by_cases here : place = flight
    · subst here
      rw [if_pos rfl] at otherThere
      cases otherThere
      cases waits
    · rw [if_neg here] at otherThere
      obtain ⟨call, isWaiting⟩ := manned.waiters otherThere waits
      -- The leader takes part in the landed flight, so it waits for no other.
      have apart : member ≠ task := by
        intro same
        subst same
        rw [found] at isWaiting
        cases isWaiting
        exact here (Prod.ext_iff.mp (Option.some.inj onBoard)).1
      rw [if_neg apart]
      exact ⟨call, isWaiting⟩
  case awaited =>
    intro other errand
    simp only [Crew.put, seat, stages]
    grind [manned.awaited]
  case aboard =>
    intro member stage place name
    simp only [Crew.put, seat, seats, stages]
    grind [manned.aboard, Stage.aboard?, Flight.landedWith]

/-- A call that calls its fetch goes on to lead its flight. -/
theorem Manned.fetch {call : SingleCall Value} (wakeAt : Nat)
    (found : crew.tasks[task]? = some (.waiting flight call))
    (there : crew.flights[flight]? = some joined)
    (leads : joined.leader = some task) :
    (crew.put task (.asleep (.complete flight call) wakeAt)).Manned := by
  refine manned.put found ?_ ?_ ?_
  · intro place other otherThere member
    obtain ⟨rfl, sameName⟩ :=
      manned.same_flight found rfl otherThere member
    rw [there] at otherThere
    cases otherThere
    refine ⟨by rw [sameName]; rfl, fun waits => ?_⟩
    -- It would be a member twice.
    have distinct := manned.nodup there
    simp [Flight.members, leads, waits] at distinct
  · intro place name aboard
    cases aboard
    exact ⟨rfl, joined, there, leads⟩
  · intro errand isCalled
    cases isCalled

/-- A task can stop waiting for a flight that has landed. -/
theorem Manned.learn {call : SingleCall Value} (verdict : Verdict Value)
    (found : crew.tasks[task]? = some (.waiting flight call))
    (there : crew.flights[flight]? = some joined)
    (landed : joined.outcome ≠ none) :
    (crew.put task (.over verdict)).Manned := by
  refine manned.put found ?_ ?_ ?_
  · intro place other otherThere member
    obtain ⟨rfl, _⟩ := manned.same_flight found rfl otherThere member
    rw [there] at otherThere
    cases otherThere
    rw [manned.members_eq_nil_of_landed there landed] at member
    cases member
  · intro place name aboard
    cases aboard
  · intro errand isCalled
    cases isCalled

/-- A call can lead the flight of its name if nobody does. -/
theorem Manned.take {call : SingleCall Value}
    (found : crew.tasks[task]? = some (.single call))
    (listed : crew.inFlight[call.name]? = some flight)
    (there : crew.flights[flight]? = some joined)
    (free : joined.leader = none) :
    ((crew.put task (.waiting flight call)).seat flight
      { joined with leader := some task }).Manned := by
  have alone := manned.led there free
  obtain ⟨again, againThere, sameName, unlanded⟩ := manned.listed.mp listed
  rw [there] at againThere
  cases againThere
  apply manned.exchange found there
  · intro place name aboard
    cases aboard
  · rfl
  · rfl
  · intro _
    exact alone
  · intro landed
    exact absurd unlanded landed
  · simp [Flight.members, alone]
  · intro other _ member
    simp [free, alone] at member
  · intro other apart member
    simp [alone, Ne.symm apart] at member
  · intro other _ leads
    rw [free] at leads
    cases leads
  · intro other _ waits
    exact waits
  · intro _
    exact ⟨call, rfl, sameName.symm⟩
  · intro errand isCalled
    cases isCalled
  · intro place name aboard
    cases aboard
    exact ⟨rfl, sameName.symm, by simp⟩

/-- A call can wait behind all others for the flight of its name. -/
theorem Manned.join {call : SingleCall Value} {leader : TaskId}
    (found : crew.tasks[task]? = some (.single call))
    (listed : crew.inFlight[call.name]? = some flight)
    (there : crew.flights[flight]? = some joined)
    (led : joined.leader = some leader) :
    ((crew.put task (.waiting flight call)).seat flight
      { joined with waiting := joined.waiting ++ [task] }).Manned := by
  have outside := manned.not_member_of_ashore found rfl there
  have distinct := manned.nodup there
  obtain ⟨again, againThere, sameName, unlanded⟩ := manned.listed.mp listed
  rw [there] at againThere
  cases againThere
  apply manned.exchange found there
  · intro place name aboard
    cases aboard
  · rfl
  · rfl
  · intro nobody
    rw [led] at nobody
    cases nobody
  · intro landed
    exact absurd unlanded landed
  · rw [Flight.members, ← List.append_assoc]
    refine List.nodup_append.mpr
      ⟨distinct, List.pairwise_singleton _ task, ?_⟩
    intro other member last same isLast
    rw [List.mem_singleton] at same
    rw [isLast, same] at member
    exact outside member
  · intro other _ member
    rw [Flight.mem_members] at member ⊢
    simp only [List.mem_append]
    exact member.imp id Or.inl
  · intro other apart member
    rw [Flight.mem_members] at member ⊢
    simpa [apart] using member
  · intro other _ leads
    exact leads
  · intro other apart waits
    simpa [apart] using waits
  · intro _
    exact ⟨call, rfl, sameName.symm⟩
  · intro errand isCalled
    cases isCalled
  · intro place name aboard
    cases aboard
    exact ⟨rfl, sameName.symm, by simp⟩

/-- The leader of a flight can leave it to the first who waits. -/
theorem Manned.leave (verdict : Verdict Value) {name : String}
    (found : crew.tasks[task]? = some old)
    (aboard : old.aboard? = some (flight, name))
    (there : crew.flights[flight]? = some joined)
    (leads : joined.leader = some task) :
    ((crew.put task (.over verdict)).seat flight
      joined.handedOver).Manned := by
  have distinct := manned.nodup there
  have unlanded := manned.open_of_leader there leads
  have follow : joined.handedOver.members = joined.waiting := by
    rw [Flight.members, Flight.handedOver]
    cases joined.waiting with
    | nil => rfl
    | cons first rest => rfl
  have outside : task ∉ joined.waiting := by
    intro waits
    simp [Flight.members, leads, waits] at distinct
  apply manned.exchange found there
  · intro place wanted takesPart
    rw [aboard] at takesPart
    cases takesPart
    rfl
  · rfl
  · rfl
  · intro nobody
    have nobodyWaits : joined.waiting = [] := List.head?_eq_none_iff.mp nobody
    simp [Flight.handedOver, nobodyWaits]
  · intro landed
    exact absurd unlanded landed
  · rw [follow]
    exact (List.nodup_append.mp distinct).2.1
  · intro other apart member
    rw [follow]
    simpa [leads, Ne.symm apart] using member
  · intro other _ member
    rw [follow] at member
    exact Flight.mem_members.mpr (Or.inr member)
  · intro other apart otherLeads
    rw [leads] at otherLeads
    exact absurd (Option.some.inj otherLeads).symm apart
  · intro other _ waits
    exact List.mem_of_mem_tail waits
  · intro member
    rw [follow] at member
    exact absurd member outside
  · intro errand isCalled
    cases isCalled
  · intro place name takesPart
    cases takesPart

/-- Whoever only waits for a flight can quit it. -/
theorem Manned.quit {call : SingleCall Value}
    (found : crew.tasks[task]? = some (.waiting flight call))
    (there : crew.flights[flight]? = some joined)
    (follows : joined.leader ≠ some task) :
    ((crew.put task (.over .cancelled)).seat flight
      { joined with waiting := joined.waiting.filter (· ≠ task) }).Manned := by
  have others : ∀ {other : TaskId},
      other ∈ joined.waiting.filter (· ≠ task) ↔
        other ∈ joined.waiting ∧ other ≠ task := by
    intro other
    simp [List.mem_filter]
  apply manned.exchange found there
  · intro place name takesPart
    cases takesPart
    rfl
  · rfl
  · rfl
  · intro nobody
    simp [manned.led there nobody]
  · intro landed
    have nobody : joined.leader = none := manned.landed there landed
    exact nobody
  · have fewer : List.Sublist
        (joined.waiting.filter (· ≠ task)) joined.waiting :=
      List.filter_sublist
    exact (manned.nodup there).sublist
      ((List.Sublist.refl joined.leader.toList).append fewer)
  · intro other apart member
    rw [Flight.mem_members] at member ⊢
    exact member.imp id fun waits => others.mpr ⟨waits, apart⟩
  · intro other _ member
    rw [Flight.mem_members] at member ⊢
    exact member.imp id fun waits => (others.mp waits).1
  · intro other _ leads
    exact leads
  · intro other _ waits
    exact (others.mp waits).1
  · intro member
    rcases Flight.mem_members.mp member with leads | waits
    · exact absurd leads follows
    · exact absurd rfl (others.mp waits).2
  · intro errand isCalled
    cases isCalled
  · intro place name takesPart
    cases takesPart

/-- Every stroke keeps flights and stages in agreement. -/
theorem Manned.stroke {next : Crew Value}
    (stroke : Stroke task crew next) : next.Manned := by
  cases stroke with
  | notes labels => exact manned.noting _ _
  | settles found running ashore stays begun =>
      exact manned.settle found ashore stays
  | @delegates stage next errand call found unbegun stays begun free own =>
      have hands := manned.spawn (Stage.aboard?_called_eq_none_iff.mpr free)
      have still := getElem?_push_of_found found (.called errand)
      have ashore := Stage.ashore_of_isUnbegun unbegun
      exact (hands.settle still ashore stays).noting _ _
  | opens found vacant => exact manned.open found vacant
  | takes found listed there free => exact manned.take found listed there free
  | joins found listed there led => exact manned.join found listed there led
  | @fetches call flight joined wakeAt found there leads =>
      exact (manned.fetch wakeAt found there leads).noting _ _
  | lands outcome found aboard there leads =>
      exact (manned.land found there leads _ outcome).noting _ _
  | leaves verdict unanswered found aboard there leads =>
      exact (manned.leave verdict found aboard there leads).noting _ _
  | quits found there follows => exact manned.quit found there follows
  | learns found there landed =>
      exact manned.learn _ found there (by simp [landed])

end Manned

end ReadThrough.Crew
