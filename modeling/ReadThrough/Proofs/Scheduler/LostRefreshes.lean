import ReadThrough.Proofs.Cache.PlainReads
import ReadThrough.Proofs.Cache.Schedule
import ReadThrough.Proofs.Scheduler.Incidents

/-!
# Refreshes that are lost to plain reads

A call of a name starts a refresh in the background when its lookup is elected.
A plain read makes the same lookup and takes part in the same election, but
nobody learns of it when it wins: the entry is put off and is not refreshed.

`refresh_starts_unless_read` compares a call with the same call after plain
reads at the same instant.  The deadline of the entry is the same in the end;
the refresh is lost as soon as one of the reads was of the entry.
-/

namespace ReadThrough

variable {Value : Type}

namespace Cache

/-- A ripe entry is alive. -/
theorem RipeAt.isSome_shown
    {cache : Cache Value} {place : Nat × String} {now : Instant}
    (ripe : cache.RipeAt place now) : (cache.shown place now).isSome := by
  obtain ⟨held, found, live, _⟩ := ripe
  obtain ⟨shard, seat, stored⟩ := Option.bind_eq_some_iff.mp found
  obtain ⟨entry, there, rfl⟩ := Option.map_eq_some_iff.mp stored
  have shows := Entry.shown_eq_some_iff.mpr ⟨live, rfl⟩
  rw [shown, seat, Option.bind_some, there, Option.bind_some, shows]
  rfl

end Cache

namespace Scheduler

variable [Keyed Value] {settings : Settings} {scheduler : Scheduler Value}
  {task : TaskId} {call : SingleCall Value}

/-! ## The tasks of a turn -/

theorem size_tasks_conclude (errand : Errand Value) :
    (conclude settings scheduler task errand).tasks.size =
      scheduler.tasks.size := by
  rw [tasks_of_ashore (ashore_conclude scheduler task settings errand)]
  exact Array.size_setIfInBounds

theorem size_tasks_await (errand : Errand Value) :
    (await settings scheduler task errand).tasks.size =
      scheduler.tasks.size := by
  rcases await_eq scheduler task settings errand with sleeps | ⟨_, ends⟩
  · rw [sleeps]
    exact Array.size_setIfInBounds
  · rw [ends]
    exact size_tasks_conclude errand

theorem size_tasks_lead (flight : FlightId) :
    (lead settings scheduler task flight call).tasks.size =
      scheduler.tasks.size := by
  have landed : ∀ (next : Scheduler Value) (outcome : Except Failure Value),
      (next.land task flight call.name outcome).tasks.size =
        next.tasks.size := by
    intro next outcome
    rw [show (next.land task flight call.name outcome).tasks =
      (next.answer task (outcome.map .one)).tasks from
        tasks_of_ashore (next.ashore_land task flight call.name outcome)]
    exact Array.size_setIfInBounds
  rw [lead, attempt_eq]
  cases Cache.answer (Cache.peek call.name) scheduler.cache with
  | error fault => simp [finish, setStage]
  | ok found =>
      cases found with
      | found value refresh => exact landed _ _
      | missing refresh => exact landed _ _
      | absent => exact size_tasks_await _

theorem size_tasks_join :
    (join settings scheduler task call).tasks.size =
      scheduler.tasks.size := by
  rw [← tasks_of_ashore (scheduler.ashore_boardFlight call.name), join]
  generalize scheduler.boardFlight call.name = boarding
  obtain ⟨flight, boarded⟩ := boarding
  dsimp only
  cases boarded.flights[flight]? with
  | none => rfl
  | some joined =>
      dsimp only
      cases joined.outcome with
      | some outcome =>
          have closed := tasks_of_ashore
            (boarded.ashore_closeFlight flight call.name)
          exact Array.size_setIfInBounds.trans (congrArg Array.size closed)
      | none =>
          cases joined.leader with
          | some leader => exact Array.size_setIfInBounds
          | none => exact size_tasks_lead flight

/-- The first turn of a call adds a task for its refresh if its lookup is
elected, and no task otherwise. -/
theorem refresh_beginSingle
    (found : scheduler.tasks[task]? = some (.single call))
    {looked : Lookup Value}
    (answered : Cache.answer (Cache.lookup settings call.name)
      scheduler.cache = .ok looked) :
    (beginSingle settings scheduler task call).tasks[
        scheduler.tasks.size]? =
      if looked.refreshes then some (.called (.refresh call)) else none := by
  have inside := (Array.getElem?_eq_some_iff.mp found).1
  have hit : ∀ (next : Scheduler Value) (elected : Bool)
      (result : Except Failure (Reply Value)),
      next.tasks = scheduler.tasks →
        ((next.refreshIf task elected call).answer task
            result).tasks[scheduler.tasks.size]? =
          if elected then some (.called (.refresh call)) else none := by
    intro next elected result tasks
    simp only [answer, finish, setStage, refreshIf]
    rw [Array.getElem?_setIfInBounds_ne (Nat.ne_of_lt inside)]
    cases elected with
    | false => simp [tasks]
    | true => simp [noteCall, spawn, tasks]
  rw [beginSingle, attempt_eq, answered]
  cases looked with
  | found value elected => exact hit _ elected _ rfl
  | missing elected => exact hit _ elected _ rfl
  | absent =>
      refine Array.getElem?_eq_none ?_
      rw [size_tasks_join]

variable (scheduler task) in
/-- A call that finds something leaves the cache to its refresh. -/
theorem cache_beginSingle_of_live
    {looked : Lookup Value}
    (answered : Cache.answer (Cache.lookup settings call.name)
      scheduler.cache = .ok looked)
    (live : looked.content.isSome) :
    (beginSingle settings scheduler task call).cache =
      Cache.final (Cache.lookup settings call.name) scheduler.cache := by
  rw [beginSingle, attempt_eq, answered]
  cases looked with
  | found value elected => simp
  | missing elected => simp
  | absent => cases live

/-! ## Turns on caches that are abreast -/

section Abreast

variable {other : Cache Value}
  (abreast : Cache.Abreast scheduler.cache other)

include abreast

theorem abreast_await (flight : FlightId) :
    Cache.Abreast
      (await settings scheduler task (.complete flight call)).cache
      (await settings { scheduler with cache := other } task
        (.complete flight call)).cache := by
  rw [await, await]
  split
  · rw [cache_of_ashore (ashore_conclude scheduler task settings _),
      cache_of_ashore (ashore_conclude { scheduler with cache := other }
        task settings _)]
    have concludes := Cache.keepsAbreast_concludeFlight settings
      call.storing call.name call.plan _ _ abreast
    simpa [Errand.leaves, Errand.operation, Operation.action] using
      concludes.2
  · exact abreast

theorem abreast_lead (flight : FlightId) :
    Cache.Abreast (lead settings scheduler task flight call).cache
      (lead settings { scheduler with cache := other } task flight
        call).cache := by
  obtain ⟨same, left⟩ := Cache.keepsAbreast_peek call.name _ _ abreast
  rw [lead, lead, attempt_eq, attempt_eq, same]
  dsimp only
  generalize Cache.final (Cache.peek call.name) scheduler.cache = next,
    Cache.final (Cache.peek call.name) other = otherNext at left ⊢
  cases Cache.answer (Cache.peek call.name) scheduler.cache with
  | error fault => simpa using left
  | ok found =>
      cases found with
      | found value refresh => simpa [land] using left
      | missing refresh => simpa [land] using left
      | absent =>
          exact abreast_await left flight

theorem abreast_join :
    Cache.Abreast (join settings scheduler task call).cache
      (join settings { scheduler with cache := other } task call).cache := by
  have boards : { scheduler with cache := other }.boardFlight call.name =
      ((scheduler.boardFlight call.name).1,
        { (scheduler.boardFlight call.name).2 with cache := other }) := by
    rw [boardFlight, boardFlight]
    dsimp only
    cases scheduler.inFlight[call.name]? with
    | none => rfl
    | some flight => rfl
  have same := scheduler.cache_boardFlight call.name
  rw [join, join, boards]
  generalize scheduler.boardFlight call.name = boarding at *
  obtain ⟨flight, boarded⟩ := boarding
  dsimp only at same ⊢
  rw [← same] at abreast
  cases boarded.flights[flight]? with
  | none => exact abreast
  | some joined =>
      dsimp only
      cases joined.outcome with
      | some outcome => simpa using abreast
      | none =>
          cases joined.leader with
          | some leader => simpa using abreast
          | none =>
              have seated : Cache.Abreast (boarded.adjustFlight flight
                  fun flight => { flight with leader := some task }).cache
                    other := abreast
              exact abreast_lead seated flight

/-- On caches that are abreast, the first turn of a call leaves caches that
are. -/
theorem abreast_beginSingle :
    Cache.Abreast (beginSingle settings scheduler task call).cache
      (beginSingle settings { scheduler with cache := other } task
        call).cache := by
  obtain ⟨same, left⟩ :=
    Cache.keepsAbreast_lookup settings call.name _ _ abreast
  rw [beginSingle, beginSingle, attempt_eq, attempt_eq, same]
  cases Cache.answer (Cache.lookup settings call.name) scheduler.cache with
  | error fault => simpa using left
  | ok found =>
      cases found with
      | found value refresh => simpa using left
      | missing refresh => simpa using left
      | absent =>
          exact abreast_join left

end Abreast

end Scheduler

namespace Logbook

variable [Keyed Value] {settings : Settings} {logbook : Logbook Value}
  {call : SingleCall Value} {window : RefreshWindow} {now : Instant}

/-! ## Calls after plain reads -/

/-- The logbook after plain reads of its cache. -/
def afterReads
    (settings : Settings) (logbook : Logbook Value)
    (reads : List Cache.PlainRead) : Logbook Value :=
  { logbook with
    scheduler := { logbook.scheduler with
      cache := Cache.readAll settings logbook.scheduler.cache reads } }

/-- The scheduler after a call of one name has been made and has taken its
first turn. -/
def asked
    (settings : Settings) (logbook : Logbook Value)
    (call : SingleCall Value) : Scheduler Value :=
  (follow settings logbook
    [.call call, .turn logbook.scheduler.tasks.size]).scheduler

/-- A call of one name starts a refresh in the background. -/
def Refreshes
    (settings : Settings) (logbook : Logbook Value)
    (call : SingleCall Value) : Prop :=
  (logbook.asked settings call).tasks[logbook.scheduler.tasks.size + 1]? =
    some (.called (.refresh call))

/-- The scheduler in which the call takes its turn. -/
def opened (logbook : Logbook Value) (call : SingleCall Value) :
    Scheduler Value :=
  { logbook.scheduler.spawn (.single call) with
    ready := (logbook.scheduler.spawn (.single call)).ready.erase
      logbook.scheduler.tasks.size }

omit [Keyed Value] in
theorem found_opened :
    (logbook.opened call).tasks[logbook.scheduler.tasks.size]? =
      some (.single call) :=
  Array.getElem?_push_size

theorem asked_eq :
    logbook.asked settings call =
      Scheduler.beginSingle settings (logbook.opened call)
        logbook.scheduler.tasks.size call := by
  rw [asked, follow_cons, follow_cons, follow_nil]
  change Scheduler.step settings (logbook.opened call)
    logbook.scheduler.tasks.size = _
  rw [Scheduler.step, found_opened]

/-- No other task is added by a call that takes its first turn. -/
theorem refreshes_iff_isSome :
    logbook.Refreshes settings call ↔
      ((logbook.asked settings call).tasks[
        logbook.scheduler.tasks.size + 1]?).isSome := by
  have count : (logbook.opened call).tasks.size =
      logbook.scheduler.tasks.size + 1 := Array.size_push _
  rw [Refreshes, asked_eq]
  cases answered : Cache.answer (Cache.lookup settings call.name)
      (logbook.opened call).cache with
  | error fault =>
      rw [Scheduler.beginSingle, Scheduler.attempt_eq, answered]
      simp [Scheduler.finish, Scheduler.setStage, count]
  | ok looked =>
      have added := Scheduler.refresh_beginSingle
        found_opened answered
      rw [count] at added
      rw [added]
      cases looked.refreshes with
      | true => simp
      | false => simp

instance : Decidable (logbook.Refreshes settings call) :=
  decidable_of_iff _ refreshes_iff_isSome.symm

section Standing

variable (ahead : settings.refresh = some window)
  (coherent : logbook.scheduler.cache.Coherent)
  (still : logbook.scheduler.cache.clock.read =
    (.ok now, logbook.scheduler.cache.clock))

include ahead coherent still

variable (logbook call) in
/-- While the clock stands still, a call starts a refresh if the entry that its
name leads to is ripe. -/
theorem refreshes_iff :
    logbook.Refreshes settings call ↔
      logbook.scheduler.cache.RipeAt
        (logbook.scheduler.cache.place call.name) now := by
  have looks := Cache.ends_iff_answer.mp
    (Cache.ends_lookup_visits ahead coherent still call.name)
  cases answered : Cache.answer (Cache.lookup settings call.name)
      logbook.scheduler.cache with
  | error fault =>
      rw [answered] at looks
      exact looks.elim
  | ok looked =>
      rw [answered] at looks
      have added := Scheduler.refresh_beginSingle
        found_opened answered
      have count : (logbook.opened call).tasks.size =
          logbook.scheduler.tasks.size + 1 := Array.size_push _
      rw [← asked_eq, count] at added
      rw [Refreshes, added, ← looks.2.1]
      cases looked.refreshes with
      | true => simp
      | false => simp

variable (logbook) in
/-- A call that finds its entry alive visits it and changes nothing else. -/
theorem abreast_asked_of_live
    (live : (logbook.scheduler.cache.shown
      (logbook.scheduler.cache.place call.name) now).isSome) :
    Cache.Abreast
      (logbook.scheduler.cache.visited window.retryBase now call.name)
      (logbook.asked settings call).cache := by
  have looks := Cache.ends_iff_answer.mp
    (Cache.ends_lookup_visits ahead coherent still call.name)
  cases answered : Cache.answer (Cache.lookup settings call.name)
      logbook.scheduler.cache with
  | error fault =>
      rw [answered] at looks
      exact looks.elim
  | ok looked =>
      rw [answered] at looks
      rw [asked_eq, Scheduler.cache_beginSingle_of_live (logbook.opened call)
        logbook.scheduler.tasks.size answered (looks.1 ▸ live)]
      exact looks.2.2

end Standing

variable (settings logbook call) in
/-- A call on a cache that is abreast of another leaves a cache that is abreast
of what the call leaves there. -/
theorem abreast_asked
    {other : Cache Value}
    (abreast : Cache.Abreast logbook.scheduler.cache other) :
    Cache.Abreast (logbook.asked settings call).cache
      (asked settings
        { logbook with
          scheduler := { logbook.scheduler with cache := other } }
        call).cache := by
  rw [asked_eq, asked_eq]
  exact Scheduler.abreast_beginSingle abreast

/-- Where entries are refreshed ahead, whatever has happened to a new cache: a
call starts a refresh if the entry that its name leads to is ripe.  After plain
reads while the clock stands still it does so if, besides, none of them was of
that entry, under whatever name.  Either way the call leaves the entry as it is
left without the reads, with the same deadline of its next refresh; and if the
reads were of no other entry, everything that the cache stores is the same,
whether the name leads to a live entry or not. -/
theorem refresh_starts_unless_read
    (valid : settings.Valid) (ahead : settings.refresh = some window)
    (paddings : Nat → List Nat) (incidents : List (Incident Value))
    (reads : List Cache.PlainRead) (call : SingleCall Value)
    (still : (undergoAll settings (start settings paddings)
        incidents).scheduler.cache.clock.read =
      (.ok now, (undergoAll settings (start settings paddings)
        incidents).scheduler.cache.clock)) :
    let before := undergoAll settings (start settings paddings) incidents
    let cache := before.scheduler.cache
    let names := reads.flatMap Cache.PlainRead.names
    let alone := before.asked settings call
    let preceded := (before.afterReads settings reads).asked settings call
    (before.Refreshes settings call ↔
        cache.RipeAt (cache.place call.name) now) ∧
      ((before.afterReads settings reads).Refreshes settings call ↔
        before.Refreshes settings call ∧
          ∀ name ∈ names, cache.place name ≠ cache.place call.name) ∧
      ((cache.shown (cache.place call.name) now).isSome →
        preceded.cache.held (cache.place call.name) =
          alone.cache.held (cache.place call.name)) ∧
      ((∀ name ∈ names, cache.place name = cache.place call.name) →
        preceded.cache.shards = alone.cache.shards ∧
          preceded.cache.routes = alone.cache.routes) := by
  intro before cache names alone preceded
  have coherent : cache.Coherent :=
    coherent_undergoAll (Cache.coherent_empty valid paddings) settings incidents
  have abreast := Cache.abreast_readAll ahead coherent still reads
  have alikeVisits :=
    Cache.alike_visitedAll window.retryBase now cache names
  have alike := alikeVisits.trans
    (Cache.Alike.of_eq abreast.shards abreast.routes)
  have coherentRead := alike.coherent coherent
  have stillRead : (Cache.readAll settings cache reads).clock.read =
      (.ok now, (Cache.readAll settings cache reads).clock) := by
    rw [abreast.clock, Cache.clock_visitedAll]
    exact still
  have alone_iff := refreshes_iff before call ahead coherent still
  have preceded_iff := refreshes_iff (before.afterReads settings reads) call
    ahead coherentRead stillRead
  have visits : (cache.shown (cache.place call.name) now).isSome →
      Cache.Abreast (cache.visited window.retryBase now call.name)
          alone.cache ∧
        Cache.Abreast ((cache.visitedAll window.retryBase now names).visited
            window.retryBase now call.name)
          preceded.cache := by
    intro live
    refine ⟨abreast_asked_of_live before ahead coherent still live, ?_⟩
    refine abreast.visited.trans
      (abreast_asked_of_live (before.afterReads settings reads) ahead
        coherentRead stillRead ?_)
    change ((Cache.readAll settings cache reads).shown
      ((Cache.readAll settings cache reads).place call.name) now).isSome
    rwa [alike.shown, alike.place]
  refine ⟨alone_iff, ?_, fun live => ?_, fun led => ?_⟩
  · refine preceded_iff.trans ?_
    change (Cache.readAll settings cache reads).RipeAt
      ((Cache.readAll settings cache reads).place call.name) now ↔ _
    rw [alike.place, abreast.ripeAt_iff, Cache.ripeAt_visitedAll coherent,
      and_comm, alone_iff]
    refine and_congr_right fun _ => ?_
    simp only [List.mem_map, not_exists, not_and]
    exact Iff.rfl
  · obtain ⟨first, second⟩ := visits live
    rw [second.held, first.held, Cache.held_visited coherent,
      Cache.held_visited (alikeVisits.coherent coherent), alikeVisits.place,
      if_pos rfl, if_pos rfl, Cache.held_visitedAll coherent]
    split
    · simp [Option.map_map, Function.comp_def]
    · rfl
  · by_cases ripe : cache.RipeAt (cache.place call.name) now
    · obtain ⟨first, second⟩ := visits ripe.isSome_shown
      have both := first.symm.trans
        ((Cache.abreast_visited_visitedAll coherent led).trans second)
      exact ⟨both.shards, both.routes⟩
    · rw [Cache.visitedAll_of_unripe coherent led ripe] at abreast
      have both := abreast_asked settings before call abreast
      exact ⟨both.shards, both.routes⟩

/-- An entry with an alias is alive and due. -/
def dueEntry : List (Incident NameTag) :=
  [.operation (.act (.write ⟨"a", some ⟨"a", ["x"]⟩, ["x"]⟩)),
    .operation (.act (.quiet (.advance 30)))]

/-- A call of the key, whose fetch takes its time. -/
def laterCall : SingleCall NameTag :=
  ⟨"a", .byName, ⟨3, 0, .returns ⟨"a", ["y"]⟩⟩⟩

/-- A batch that is read plainly by the alias takes the refresh from a call of
the key, a read of another name does not. -/
theorem refresh_starts_unless_read_byAlias :
    let settings := Settings.ahead
    let before := undergoAll settings (start settings fun _ => []) dueEntry
    settings.Valid ∧ settings.refresh = some ⟨10, 20, 5⟩ ∧
      before.scheduler.cache.clock.read =
        (.ok 30, before.scheduler.cache.clock) ∧
      before.Refreshes settings laterCall ∧
        ((before.afterReads settings [.get "b"]).Refreshes settings
          laterCall) ∧
        ¬ (before.afterReads settings [.getMany ["b", "x"]]).Refreshes
          settings laterCall ∧
        (((before.afterReads settings [.getMany ["b", "x"]]).asked settings
            laterCall).cache.held
              (before.scheduler.cache.place "a")).map (·.1.refreshAt) =
          some (some 35) := by
  intro settings before
  have valid : settings.Valid := by decide
  have still : before.scheduler.cache.clock.read =
      (.ok 30, before.scheduler.cache.clock) := by decide +kernel
  have ripe : before.scheduler.cache.RipeAt
      (before.scheduler.cache.place "a") 30 := by decide +kernel
  have live : (before.scheduler.cache.shown
      (before.scheduler.cache.place "a") 30).isSome := by decide +kernel
  have apart : before.scheduler.cache.place "b" ≠
      before.scheduler.cache.place "a" := by decide +kernel
  have same : before.scheduler.cache.place "x" =
      before.scheduler.cache.place "a" := by decide +kernel
  have due : ((before.asked settings laterCall).cache.held
      (before.scheduler.cache.place "a")).map (·.1.refreshAt) =
        some (some 35) := by decide +kernel
  dsimp only [before] at still ripe live apart same due ⊢
  generalize dueEntry = incidents at still ripe live apart same due ⊢
  obtain ⟨starts, unread, _, _⟩ := refresh_starts_unless_read valid rfl
    (fun _ => []) incidents [.get "b"] laterCall still
  obtain ⟨_, lost, held, _⟩ := refresh_starts_unless_read valid rfl
    (fun _ => []) incidents [.getMany ["b", "x"]] laterCall still
  refine ⟨valid, rfl, still, starts.mpr ripe, ?_, ?_, ?_⟩
  · refine unread.mpr ⟨starts.mpr ripe, fun name member => ?_⟩
    cases List.mem_singleton.mp member
    exact apart
  · exact fun refreshes => (lost.mp refreshes).2 "x"
      (List.mem_cons_of_mem _ (List.mem_singleton_self _)) same
  · exact (congrArg (Option.map (·.1.refreshAt)) (held live)).trans due

/-- Without the read the call starts a refresh, with it none is started, and
the entry is not due before the next pause is over. -/
theorem read_takes_refresh :
    let settings := Settings.ahead
    let before := undergoAll settings (start settings fun _ => []) dueEntry
    let read := before.afterReads settings [.get "a"]
    settings.Valid ∧ settings.refresh = some ⟨10, 20, 5⟩ ∧
      before.scheduler.cache.clock.read =
        (.ok 30, before.scheduler.cache.clock) ∧
      before.Refreshes settings laterCall ∧
        ¬ read.Refreshes settings laterCall ∧
          (read.asked settings laterCall).fetchCalls = #[] := by
  decide +kernel

end Logbook

end ReadThrough
