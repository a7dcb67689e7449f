import ReadThrough.Proofs.Cache.Gathering
import ReadThrough.Proofs.Cache.Schedule
import ReadThrough.Proofs.Scheduler.Bound
import ReadThrough.Proofs.Scheduler.Callers

/-!
# Batches

A batch looks all of its requests up in its first turn, and calls its fetches
there: one for the requests that were elected to refresh, whose response is left
to a new task, and one for the requests that were missed, for whose response it
waits.

What comes of a batch follows from what its lookups tell and from the response
(`batch_result`).
-/

namespace ReadThrough

open Std (ExtTreeMap)

variable {Value : Type}

/-! ## The response to the missed requests -/

namespace Cache

section Play

variable {Response : Type} {plan : Plan Response} {cache : Cache Value}

/-- The end of a fetch leaves the store alone, however it ends. -/
theorem untouched_play (plan : Plan Response) (cache : Cache Value) :
    Untouched cache (final plan.play cache) := by
  refine respects_final ?_ cache
  refine (respects_advanceClock_untouched plan.advance).bind fun _ => ?_
  cases plan.ending with
  | returns response => exact respects_pure _
  | fails failure => exact respects_pure _
  | breaks text => exact respects_throw _

/-- A fetch that was not broken off ends as its plan says. -/
theorem ending_of_played {outcome : Except Failure Response}
    (played : answer plan.play cache = .ok outcome) :
    (∃ failure, outcome = .error failure ∧ plan.ending = .fails failure) ∨
      ∃ response, outcome = .ok response ∧
        plan.ending = .returns response := by
  rw [Plan.play, answer_bind] at played
  cases moved : answer (advanceClock plan.advance) cache with
  | error fault =>
      rw [moved] at played
      cases played
  | ok nothing =>
      rw [moved] at played
      cases ended : plan.ending with
      | returns response =>
          rw [ended] at played
          cases played
          exact Or.inr ⟨response, rfl, rfl⟩
      | fails failure =>
          rw [ended] at played
          cases played
          exact Or.inl ⟨failure, rfl, rfl⟩
      | breaks text =>
          rw [ended] at played
          cases played

end Play

/-- What a batch answers for a label: what the name shows that belongs to it,
or else what the response to the missed requests holds. -/
def batchAnswer
    (cache : Cache Value) (now : Instant) (ids : List String)
    (keyOf : String → String) (response : ExtTreeMap String Value)
    (label : String) : Option Value :=
  if label ∈ ids then
    (cache.shown (cache.place (keyOf label)) now).getD response[label]?
  else none

/-- Responses that hold the same under the labels which read as absent are the
same to a batch. -/
theorem batchAnswer_congr
    {cache : Cache Value} {now : Instant} {ids : List String}
    {keyOf : String → String} {left right : ExtTreeMap String Value}
    (same : ∀ id ∈ ids, cache.shown (cache.place (keyOf id)) now = none →
      right[id]? = left[id]?) (label : String) :
    batchAnswer cache now ids keyOf right label =
      batchAnswer cache now ids keyOf left label := by
  rw [batchAnswer, batchAnswer]
  split
  next asked =>
    cases shown : cache.shown (cache.place (keyOf label)) now with
    | some content => rfl
    | none => exact same label asked shown
  next => rfl

/-- How a batch ends that has called a fetch for its missed requests, in a
cache, and what it makes of the cache. -/
inductive Settles [Keyed Value]
    (settings : Settings) (storing : Storing) (missed : List Request)
    (plan : Plan (ExtTreeMap String Value))
    (answers : ExtTreeMap String Value → String → Option Value)
    (before after : Cache Value) : Verdict Value → Prop
  /-- The fetch was broken off, or the clock could not be moved. -/
  | breaks {fault : Fault}
      (broken : answer plan.play before = .error fault)
      (spared : Untouched before after) :
      Settles settings storing missed plan answers before after
        (.broken fault)
  /-- The fetch failed: the batch fails alike, and nothing is stored. -/
  | fails {failure : Failure} (failed : plan.ending = .fails failure)
      (spared : Untouched before after) :
      Settles settings storing missed plan answers before after
        (.returned (.error failure))
  /-- The response could not be stored. -/
  | clashes {response : ExtTreeMap String Value} {fault : Fault}
      (returned : plan.ending = .returns response)
      (broken : answer (storeResponse settings storing false missed response ∅)
        (final plan.play before) = .error fault)
      (stored : after = final
        (storeResponse settings storing false missed response ∅)
        (final plan.play before)) :
      Settles settings storing missed plan answers before after
        (.broken fault)
  /-- The response was stored, and the batch has its values. -/
  | collects {response values : ExtTreeMap String Value}
      (returned : plan.ending = .returns response)
      (stored : after = final
        (storeResponse settings storing false missed response ∅)
        (final plan.play before))
      (collected : ∀ label : String,
        values[label]? = answers response label) :
      Settles settings storing missed plan answers before after
        (.returned (.ok (.many values)))

section Collect

variable [Keyed Value] {settings : Settings} {storing : Storing}
  {found : ExtTreeMap String Value} {missed : List Request}
  {plan : Plan (ExtTreeMap String Value)}
  {answers : ExtTreeMap String Value → String → Option Value}

/-- A batch ends as the fetch for its missed requests does. -/
theorem settles_collect
    (collects : ∀ (response : ExtTreeMap String Value) (label : String),
      (if label ∈ missed.map (·.label) then response[label]? else none).or
        found[label]? = answers response label)
    (before : Cache Value) :
    Settles settings storing missed plan answers before
      ((Errand.collect found missed storing plan).leaves settings before)
      ((Errand.collect found missed storing plan).verdict settings
        before) := by
  have spared := untouched_play plan before
  rw [Errand.leaves, Errand.operation, Operation.action, final_discard,
    Errand.verdict, concludeMisses, answer_bind, final_bind]
  cases played : answer plan.play before with
  | error fault => exact .breaks played spared
  | ok outcome =>
      rcases ending_of_played played with
        ⟨failure, rfl, failed⟩ | ⟨response, rfl, returned⟩
      · exact .fails failed spared
      · dsimp only
        have used := ends_iff_answer.mp (ends_storeResponse settings missed
          storing false (final plan.play before) response ∅)
        rw [answer_bind, final_bind]
        cases stored : answer (storeResponse settings storing false missed
            response ∅) (final plan.play before) with
        | error fault => exact .clashes returned stored rfl
        | ok fetched =>
            rw [stored] at used
            refine .collects returned rfl fun label => ?_
            rw [getElem?_insertMany_toList, used, ← collects]
            simp

end Collect

end Cache

/-! ## What the lookups have told -/

namespace BatchCall

/-- The requests whose lookups were elected to refresh. -/
def elected (call : BatchCall Value) (reads : List (Lookup Value)) :
    List Request :=
  Cache.selected (·.refreshes) call.requests reads

/-- The requests whose lookups found nothing. -/
def missed (call : BatchCall Value) (reads : List (Lookup Value)) :
    List Request :=
  Cache.selected (!·.isLive) call.requests reads

/-- What the lookups of a batch have gathered. -/
def gathered (call : BatchCall Value) (reads : List (Lookup Value)) :
    Cache.Gathered Value :=
  { found := Cache.collected ∅ call.requests reads
    refreshes := call.elected reads
    misses := call.missed reads }

end BatchCall

section Told

variable {settings : Settings} {cache : Cache Value} {now : Instant}
  {call : BatchCall Value} {ids : List String} {keyOf : String → String}
  {reads : List (Lookup Value)}
  (asks : call.requests = ids.map fun id => ⟨id, keyOf id⟩)
  (readAt : Cache.ReadAt settings cache now call.requests reads)

include asks readAt

/-- The missed labels are those whose names show nothing, in their order. -/
theorem BatchCall.missed_labels :
    (call.missed reads).map (·.label) = ids.filter fun id =>
      (cache.shown (cache.place (keyOf id)) now).isNone := by
  have filtered := Cache.missed_eq_filter
    (fun name => cache.shown (cache.place name) now) readAt.contents
  rw [BatchCall.missed, filtered, asks, List.filter_map, List.map_map]
  exact List.map_id _

theorem BatchCall.mem_missed_labels (label : String) :
    label ∈ (call.missed reads).map (·.label) ↔
      label ∈ ids ∧ cache.shown (cache.place (keyOf label)) now = none := by
  rw [call.missed_labels asks readAt, List.mem_filter,
    Option.isNone_iff_eq_none]

/-- What was found, with the response to the missed requests, is the answer of
the batch. -/
theorem batchAnswer_eq
    (response : ExtTreeMap String Value) (label : String) :
    (if label ∈ (call.missed reads).map (·.label) then response[label]?
      else none).or (Cache.collected ∅ call.requests reads)[label]? =
        cache.batchAnswer now ids keyOf response label := by
  have keyed : ∀ request ∈ call.requests,
      request.name = keyOf request.label := by
    rw [asks]
    intro request member
    obtain ⟨id, _, rfl⟩ := List.mem_map.mp member
    rfl
  have labels : call.requests.map (·.label) = ids := by
    rw [asks, List.map_map]
    exact List.map_id ids
  have found := Cache.getElem?_collected
    (fun name => cache.shown (cache.place name) now) keyOf readAt.contents
    keyed ∅ label
  have missed := call.mem_missed_labels asks readAt label
  rw [found, labels, Cache.batchAnswer]
  simp only [missed]
  by_cases asked : label ∈ ids
  · cases shown : cache.shown (cache.place (keyOf label)) now with
    | none => simp [asked]
    | some content => simp [asked]
  · simp [asked]

end Told

/-! ## Runs -/

namespace Logbook

variable [Keyed Value] {settings : Settings} {before : Logbook Value}
  {task : TaskId} {errand : Errand Value} {stage : Stage Value}
  {early : List (Move Value)}

/-- What can become of a task that waits for the fetch of an errand, once
further moves have been made. -/
inductive Carried (settings : Settings) (before : Logbook Value)
    (task : TaskId) (errand : Errand Value) (moves : List (Move Value)) :
    Prop
  /-- The fetch is not over. -/
  | sleeps {wakeAt : Nat}
      (asleep : (follow settings before moves).crew.tasks[task]? =
        some (.asleep errand wakeAt))
  /-- It was aborted. -/
  | aborted (asked : .abort task ∈ moves)
      (finished : (follow settings before moves).crew.tasks[task]? =
        some (.over .cancelled))
  /-- It has carried out the errand in a turn, after the lookups with which it
  begins if the turn was its first. -/
  | ended (early late : List (Move Value))
      (split : moves = early ++ .turn task :: late) {stage : Stage Value}
      (found : (follow settings before early).crew.tasks[task]? = some stage)
      (running : stage.isOver = false)
      (left : (follow settings before (early ++ [.turn task])).scheduler.cache =
        errand.leaves settings
          (stage.reads settings (follow settings before early).scheduler.cache))
      (finished : (follow settings before moves).crew.tasks[task]? =
        some (.over (errand.verdict settings (stage.reads settings
          (follow settings before early).scheduler.cache))))

variable (early) in
theorem carried_of_carries
    (found : (follow settings before early).crew.tasks[task]? = some stage)
    (running : stage.isOver = false)
    (carries : Scheduler.Carries settings task errand
      (stage.reads settings (follow settings before early).scheduler.cache)
      (after settings (follow settings before early)
        (.turn task)).scheduler) :
    Carried settings before task errand (early ++ [.turn task]) := by
  have reached := follow_append_singleton settings before early (.turn task)
  cases carries with
  | sleeps asleep =>
      rw [← reached] at asleep
      exact .sleeps asleep
  | ends finished left =>
      refine .ended early [] rfl found running ?_ ?_
      · rw [reached]
        exact left
      · rw [reached]
        exact finished

/-- A task that waits for its fetch from a turn on goes on to do so until the
fetch is over, unless it is aborted. -/
theorem carried_follow
    (orderly : before.crew.Orderly)
    (found : before.crew.tasks[task]? = some stage)
    (running : stage.isOver = false)
    (carries : Scheduler.Carries settings task errand
      (stage.reads settings before.scheduler.cache)
      (after settings before (.turn task)).scheduler)
    (moves : List (Move Value)) :
    Carried settings before task errand (.turn task :: moves) := by
  -- Where a task is depends on the last move, so the moves end with it.
  induction moves using List.reverseRecOn with
  | nil => exact carried_of_carries [] found running carries
  | append_singleton moves move inductionHypothesis =>
      rw [← List.cons_append]
      generalize Move.turn task :: moves = earlier at inductionHypothesis ⊢
      have orderlyThen := orderly_follow settings orderly earlier
      have manned := orderlyThen.manned
      have moved := moved_after settings manned move
      have reached := follow_append_singleton settings before earlier move
      cases inductionHypothesis with
      | aborted asked finished =>
          refine .aborted (List.mem_append_left _ asked) ?_
          rw [reached]
          exact (moved.over manned finished).1
      | ended early late split foundThen running left finished =>
          refine .ended early (late ++ [move]) ?_ foundThen running left ?_
          · rw [split, List.append_assoc, List.cons_append]
          · rw [reached]
            exact (moved.over manned finished).1
      | sleeps asleep =>
          by_cases aborts : move = .abort task
          · subst aborts
            refine .aborted (by simp) ?_
            rw [reached]
            exact cancelled_of_abort settings asleep rfl
          by_cases turns : move = .turn task
          · subst turns
            refine carried_of_carries earlier asleep rfl ?_
            exact Scheduler.carries_step
              { (follow settings before earlier).scheduler with
                ready := (follow settings before
                  earlier).scheduler.ready.erase task } asleep
          · have still := stage_after settings manned asleep turns aborts
            rw [← reached] at still
            exact .sleeps still

/-- A task that has ended stays as it is. -/
theorem over_follow {verdict : Verdict Value}
    (orderly : before.crew.Orderly)
    (finished : before.crew.tasks[task]? = some (.over verdict))
    (moves : List (Move Value)) :
    (follow settings before moves).crew.tasks[task]? =
      some (.over verdict) := by
  induction moves generalizing before with
  | nil => exact finished
  | cons move moves inductionHypothesis =>
      have moved := moved_after settings orderly.manned move
      exact inductionHypothesis (moved.orderly orderly)
        (moved.over orderly.manned finished).1

/-! ## What comes of a batch -/

/-- What comes of a batch whose lookups have told what the names of its labels
show at one instant. -/
structure Batched (settings : Settings) (before : Logbook Value)
    (task : TaskId) (call : BatchCall Value) (now : Instant)
    (ids : List String) (keyOf : String → String)
    (reads : List (Lookup Value)) : Prop where
  /-- The lookups tell what the names show, and elect the first request that
  leads to a ripe entry. -/
  told : Cache.answer (Cache.lookupAll settings call.requests)
    before.scheduler.cache = .ok reads
  readAt : Cache.ReadAt settings before.scheduler.cache now call.requests reads
  /-- The missed requests are those whose names show nothing. -/
  absent : (call.missed reads).map (·.label) = ids.filter fun id =>
    (before.scheduler.cache.shown
      (before.scheduler.cache.place (keyOf id)) now).isNone
  /-- The batch has called no fetch before its first turn.  From then on,
  whatever happens, it has called one for the elected requests and one for the
  missed ones, and no other. -/
  early : before.crew.callsFrom task = []
  calls : ∀ moves,
    (follow settings before (.turn task :: moves)).crew.callsFrom task =
      FetchCall.forRequests task (call.elected reads) ++
        FetchCall.forRequests task (call.missed reads)
  /-- The first fetch is left to a new task. -/
  background : call.elected reads ≠ [] →
    (after settings before (.turn task)).crew.tasks[before.crew.tasks.size]? =
      some (.called (.refreshMany (call.elected reads) call.storing
        (call.planAt 0)))
  /-- If nothing was missed, the first turn answers what was found. -/
  found : call.missed reads = [] → ∃ values : ExtTreeMap String Value,
    (∀ label : String, values[label]? =
      before.scheduler.cache.batchAnswer now ids keyOf ∅ label) ∧
      ∀ moves,
        (follow settings before (.turn task :: moves)).crew.tasks[task]? =
          some (.over (.returned (.ok (.many values))))
  /-- Otherwise the batch waits for the fetch of the missed requests, unless it
  is aborted, and ends as the fetch does. -/
  fetched : call.missed reads ≠ [] → ∃ errand,
    (∀ moves, Carried settings before task errand (.turn task :: moves)) ∧
      ∀ meanwhile, Cache.Settles settings call.storing (call.missed reads)
        (call.planAt (if (call.elected reads).isEmpty then 0 else 1))
        (before.scheduler.cache.batchAnswer now ids keyOf) meanwhile
        (errand.leaves settings meanwhile) (errand.verdict settings meanwhile)
  /-- The batch can always come to its end. -/
  ends : ∃ moves : List (Move Value),
    (∀ move ∈ moves, (∃ wait, move = .pass wait) ∨ move = .turn task) ∧
      (follow settings before (.turn task :: moves)).scheduler.isOver task =
        true
  /-- What the response holds under other labels is neither stored nor
  answered. -/
  unasked : ∀ left right : ExtTreeMap String Value,
    (∀ id ∈ ids, before.scheduler.cache.shown
      (before.scheduler.cache.place (keyOf id)) now = none →
        right[id]? = left[id]?) →
      Cache.storeResponse settings call.storing false (call.missed reads)
          right ∅ =
        Cache.storeResponse settings call.storing false (call.missed reads)
          left ∅ ∧
      ∀ label, before.scheduler.cache.batchAnswer now ids keyOf right label =
        before.scheduler.cache.batchAnswer now ids keyOf left label

section Batch

variable {call : BatchCall Value} {now : Instant} {ids : List String}
  {keyOf : String → String} {reads : List (Lookup Value)}

theorem callsFrom_forRequests (requests : List Request) :
    (FetchCall.forRequests task requests).filter (·.caller = task) =
      FetchCall.forRequests task requests := by
  rw [FetchCall.forRequests]
  split
  · rfl
  · simp [FetchCall.caller]

section Opens

variable {gathered : Cache.Gathered Value}
  (opens : Scheduler.Opens settings task call gathered before.scheduler
    (after settings before (.turn task)).scheduler)

include opens

theorem callsFrom_of_opens
    (orderly : before.crew.Orderly) (early : before.crew.callsFrom task = [])
    (moves : List (Move Value)) :
    (follow settings before (.turn task :: moves)).crew.callsFrom task =
      FetchCall.forRequests task gathered.refreshes ++
        FetchCall.forRequests task gathered.misses := by
  obtain ⟨stage, found, spent⟩ := opens.spent
  have moved := moved_after settings orderly.manned (.turn task)
  rw [follow_cons, spent_follow settings (moved.orderly orderly) found spent]
  rw [crew, Scheduler.crew_callsFrom] at early ⊢
  rw [Scheduler.callsFrom, opens.calls, List.filter_append, List.filter_append,
    callsFrom_forRequests, callsFrom_forRequests, ← List.append_assoc]
  change (before.reported.filter _ ++ before.scheduler.callsFrom task) ++ _ = _
  rw [early, List.nil_append]

/-- A batch that is attended comes to its end. -/
theorem exists_moves_of_opens :
    ∃ moves : List (Move Value),
      (∀ move ∈ moves, (∃ wait, move = .pass wait) ∨ move = .turn task) ∧
        (follow settings before (.turn task :: moves)).scheduler.isOver task =
          true := by
  have finished : ∀ {verdict : Verdict Value},
      (after settings before (.turn task)).scheduler.tasks[task]? =
        some (.over verdict) →
          (after settings before (.turn task)).scheduler.isOver task =
            true := by
    intro verdict found
    rw [Scheduler.isOver, found]
    rfl
  by_cases complete : gathered.misses = []
  · exact ⟨[], List.forall_mem_nil _, finished (opens.answers complete)⟩
  · cases opens.fetches complete with
    | sleeps asleep =>
        obtain ⟨moves, attended, retires⟩ := exists_moves_of_pending settings
          asleep (Or.inr ⟨_, rfl⟩) before.reported
        exact ⟨moves, attended, retires.own⟩
    | ends found left => exact ⟨[], List.forall_mem_nil _, finished found⟩

end Opens

theorem batched_of_told
    (orderly : before.crew.Orderly) (uncalled : before.crew.Uncalled)
    (unbegun : before.crew.tasks[task]? = some (.batch call))
    (asks : call.requests = ids.map fun id => ⟨id, keyOf id⟩)
    (told : Cache.answer (Cache.lookupAll settings call.requests)
      before.scheduler.cache = .ok reads)
    (readAt : Cache.ReadAt settings before.scheduler.cache now call.requests
      reads) :
    Batched settings before task call now ids keyOf reads := by
  have inside := (Array.getElem?_eq_some_iff.mp unbegun).1
  have gathered : Cache.answer (Cache.gather settings call.requests
      { found := ∅, refreshes := [], misses := [] })
      before.scheduler.cache = .ok (call.gathered reads) := by
    rw [Cache.gather_eq, Cache.answer_map, told]
    rfl
  have opens : Scheduler.Opens settings task call (call.gathered reads)
      before.scheduler (after settings before (.turn task)).scheduler := by
    have found : before.scheduler.tasks[task]? = some (.batch call) := unbegun
    have turned := Scheduler.opens_beginBatch
      { before.scheduler with ready := before.scheduler.ready.erase task }
      inside gathered
    simp only [after, Scheduler.step, found]
    exact ⟨turned.calls, turned.delegates, turned.answers, turned.fetches⟩
  have early : before.crew.callsFrom task = [] := by
    refine uncalled task fun stage found => ?_
    cases unbegun.symm.trans found
    exact ⟨call, rfl⟩
  have answers := batchAnswer_eq asks readAt
  refine
    { told := told
      readAt := readAt
      absent := call.missed_labels asks readAt
      early := early
      calls := callsFrom_of_opens opens orderly early
      background := opens.delegates
      found := fun complete => ?found
      fetched := fun incomplete => ?fetched
      ends := exists_moves_of_opens opens
      unasked := fun left right same =>
        ⟨?stored, Cache.batchAnswer_congr same⟩ }
  case found =>
    refine ⟨(call.gathered reads).found, fun label => ?_, fun moves => ?_⟩
    · rw [← answers, complete]
      simp [BatchCall.gathered]
    · have moved := moved_after settings orderly.manned (.turn task)
      exact over_follow (moved.orderly orderly) (opens.answers complete) moves
  case fetched =>
    refine ⟨_, fun moves =>
      carried_follow orderly unbegun rfl (opens.fetches incomplete) moves,
      Cache.settles_collect answers⟩
  case stored =>
    refine Cache.storeResponse_congr (fun request member => ?_) ∅
    obtain ⟨asked, shown⟩ := (call.mem_missed_labels asks readAt
      request.label).mp (List.mem_map_of_mem member)
    exact same _ asked shown

/-- Whatever has happened to a new cache: a batch that has not begun, and during
whose lookups the clock shows one instant, reads for every label what its name
shows, however often a label is repeated and whichever names lead to one entry.
It calls at most two fetches, and answers what was found together with what the
second one returns, as `Batched` says. -/
theorem batch_result
    (valid : settings.Valid) (paddings : Nat → List Nat)
    (incidents : List (Incident Value))
    (unbegun : (undergoAll settings (start settings paddings)
      incidents).crew.tasks[task]? = some (.batch call))
    (asks : call.requests = ids.map fun id => ⟨id, keyOf id⟩)
    (shows : (undergoAll settings (start settings paddings)
      incidents).scheduler.cache.clock.Shows now (2 * ids.length)) :
    ∃ reads, Batched settings
      (undergoAll settings (start settings paddings) incidents) task call now
      ids keyOf reads := by
  have coherent : (undergoAll settings (start settings paddings)
      incidents).scheduler.cache.Coherent :=
    coherent_undergoAll (Cache.coherent_empty valid paddings) settings incidents
  have orderly := orderly_undergoAll settings
    (orderly_start settings paddings) incidents
  have uncalled := uncalled_undergoAll settings
    (orderly_start settings paddings) (uncalled_start settings paddings)
    incidents
  generalize undergoAll settings (start settings paddings) incidents = before
    at *
  have count : call.requests.length = ids.length := by
    rw [asks, List.length_map]
  rw [← count] at shows
  have looks := Cache.ends_iff_answer.mp
    (Cache.ends_lookupAll settings coherent shows)
  cases told : Cache.answer (Cache.lookupAll settings call.requests)
      before.scheduler.cache with
  | error fault =>
      rw [told] at looks
      exact looks.elim
  | ok reads =>
      rw [told] at looks
      exact ⟨reads, batched_of_told orderly uncalled unbegun asks told looks.1⟩

end Batch

/-- Two labels lead to an entry that is due, one to a missing record, and one to
nothing; two labels are repeated. -/
def mixedLabels : List String :=
  ["1", "2", "3", "4", "1", "4"]

/-- A response that also holds a label which was not asked for. -/
def mixedResponse : ExtTreeMap String NameTag :=
  (ExtTreeMap.insert ∅ "4" ⟨"n4", []⟩).insert "9" ⟨"n9", []⟩

/-- A batch of these labels. -/
def mixedBatch : BatchCall NameTag :=
  { requests := mixedLabels.map fun label => ⟨label, "n" ++ label⟩
    storing := .byName
    plans := [⟨3, 0, .returns ∅⟩, ⟨5, 0, .returns mixedResponse⟩] }

/-- An entry with an alias and a missing record are stored, and the batch is
called when the entry is due. -/
def mixed : List (Incident NameTag) :=
  [.operation (.act (.write ⟨"n1", some ⟨"n1", ["n2"]⟩, ["n2"]⟩)),
    .operation (.act (.write ⟨"n3", none, []⟩)),
    .operation (.act (.quiet (.advance 30))), .move (.callMany mixedBatch)]

/-- Of the due names the first that leads to each entry is refreshed, and the
repeated label is fetched as often as it was asked for. -/
theorem batch_result_mixed :
    let settings := Settings.ahead
    let before := undergoAll settings (start settings fun _ => []) mixed
    settings.Valid ∧ before.crew.tasks[0]? = some (.batch mixedBatch) ∧
      before.scheduler.cache.clock.Shows 30 (2 * mixedLabels.length) ∧
        (∃ reads, Batched settings before 0 mixedBatch 30 mixedLabels
          ("n" ++ ·) reads) ∧
        (after settings before (.turn 0)).crew.callsFrom 0 =
          [.many 0 ["1", "3"], .many 0 ["4", "4"]] := by
  have valid : Settings.ahead.Valid := by decide
  have unbegun : (undergoAll Settings.ahead (start Settings.ahead fun _ => [])
      mixed).crew.tasks[0]? = some (.batch mixedBatch) := by rfl
  have still : (undergoAll Settings.ahead (start Settings.ahead fun _ => [])
      mixed).scheduler.cache.clock.read =
        (.ok 30, (undergoAll Settings.ahead (start Settings.ahead fun _ => [])
          mixed).scheduler.cache.clock) := by decide +kernel
  have called : (after Settings.ahead (undergoAll Settings.ahead
      (start Settings.ahead fun _ => []) mixed) (.turn 0)).crew.callsFrom 0 =
        [.many 0 ["1", "3"], .many 0 ["4", "4"]] := by decide +kernel
  generalize mixed = incidents at *
  have shows := Clock.shows_of_still still (2 * mixedLabels.length)
  exact ⟨valid, unbegun, shows,
    batch_result valid (fun _ => []) incidents unbegun rfl shows, called⟩

end Logbook

end ReadThrough
