import ReadThrough.Proofs.Cache.Keeping
import ReadThrough.Proofs.Scheduler.Items

/-!
# Which requested names an item keeps

Every store of a fetched item writes the aliases of its key anew: those that the
item knows, and the name that it was fetched under this time.
`item_kept_under_last_request` says which names lead to the item from then on,
until its key is written again or the entry is gone: the key, the aliases that
the item knows, and the name of the last request.  Any other name that the item
has been fetched under is absent, and a call of it fetches again.
-/

namespace ReadThrough

variable {Value : Type}

namespace Scheduler

variable [Keyed Value] {settings : Settings} {scheduler : Scheduler Value}
  {task : TaskId} {call : SingleCall Value} {value : Value}

/-- A call is answered from the cache when it takes its turn.  The only fetch
that it can call is that of a refresh in the background. -/
structure Hits
    (settings : Settings) (scheduler : Scheduler Value) (task : TaskId)
    (call : SingleCall Value) (value : Value) : Prop where
  verdict : (step settings scheduler task).verdict? task =
    some (.returned (.ok (.one value)))
  calls : (step settings scheduler task).fetchCalls = scheduler.fetchCalls ∨
    (step settings scheduler task).fetchCalls =
        scheduler.fetchCalls.push (.one task call.name) ∧
      (step settings scheduler task).tasks[scheduler.tasks.size]? =
        some (.called (.refresh call))
  unrefreshed : settings.refresh = none →
    (step settings scheduler task).fetchCalls = scheduler.fetchCalls

/-- A call of a name that reads a value hits. -/
theorem hits_of_reads
    (found : scheduler.tasks[task]? = some (.single call))
    (reads : Cache.Reads settings scheduler.cache call.name
      (some (some value))) :
    Hits settings scheduler task call value := by
  obtain ⟨elected, answered⟩ : ∃ elected,
      Cache.answer (Cache.lookup settings call.name) scheduler.cache =
        .ok (.found value elected) := by
    rw [Cache.Reads, Cache.ends_iff_answer] at reads
    cases answered : Cache.answer (Cache.lookup settings call.name)
        scheduler.cache with
    | error fault =>
        rw [answered] at reads
        cases reads
    | ok lookup =>
        rw [answered] at reads
        cases lookup with
        | absent => cases reads
        | missing refresh => cases reads
        | found value refresh =>
            cases reads
            exact ⟨refresh, rfl⟩
  have stepped : step settings scheduler task =
      (({ scheduler with
        cache := Cache.final (Cache.lookup settings call.name)
          scheduler.cache }.refreshIf task elected call).answer task
            (.ok (.one value))) := by
    rw [step, found]
    dsimp only
    rw [beginSingle, attempt_eq, answered]
  have inside := (Array.getElem?_eq_some_iff.mp found).1
  cases elected with
  | false =>
      refine ⟨?_, Or.inl ?_, fun _ => ?_⟩
      · rw [stepped, verdict?]
        simp only [refreshIf, answer, finish, setStage, Bool.false_eq_true,
          if_false]
        rw [Crew.getElem?_setIfInBounds_self_of_found found]
      · rw [stepped]
        rfl
      · rw [stepped]
        rfl
  | true =>
      have pushed := Crew.getElem?_push_of_found found
        (.called (.refresh call))
      have stages := Crew.getElem?_setIfInBounds_of_found pushed
        (.over (.returned (.ok (.one value))))
      refine ⟨?_, Or.inr ⟨?_, ?_⟩, fun unrefreshed => ?_⟩
      · rw [stepped, verdict?]
        simp only [refreshIf, answer, finish, setStage, spawn, noteCall,
          if_true]
        rw [Crew.getElem?_setIfInBounds_self_of_found pushed]
      · rw [stepped]
        rfl
      · rw [stepped]
        refine (stages scheduler.tasks.size).trans ?_
        rw [if_neg (Nat.ne_of_gt inside)]
        exact Array.getElem?_push_size
      · have none := Cache.ends_lookup_unelected unrefreshed scheduler.cache
          call.name
        rw [Cache.ends_iff_answer, answered] at none
        cases none

end Scheduler

namespace Errand

variable [Keyed Value] {settings : Settings} {before : Cache Value}
  {errand : Errand Value} {call : SingleCall Value} {item : Value}
  {reply : Except Failure (Reply Value)}
  (serves : errand.Serves call) (own : call.storing = .byOwnKey)
  (fetched : call.plan.ending = .returns item)
  (coherent : before.Coherent)
  (returned : errand.verdict settings before = .returned reply)

include serves own fetched coherent returned

/-- An errand has written its item if the item's key is stored afterwards. -/
theorem Serves.written_of_stored
    (stored : (errand.leaves settings before).Stores
      (before.route (Keyed.key item)) (Keyed.key item)) :
    ∃ clock now, before.clock.advance call.plan.advance = .ok clock ∧
      Cache.Written settings (.ofItem call.name item) now
        (before.withClock clock) (errand.leaves settings before) := by
  obtain ⟨clock, moved, wrote, left⟩ :=
    serves.leaves_eq own fetched returned
  have moving : (before.withClock clock).Coherent := coherent.of_eq rfl rfl
  have written := Cache.final_of_returns wrote
    (Cache.ends_writeDraft_stored moving (.ofItem call.name item))
  rw [left] at stored ⊢
  obtain ⟨now, written⟩ := written stored
  exact ⟨clock, now, moved, written⟩

/-- The errand writes no other key than the item's. -/
theorem Serves.devoted
    {name : String} (devoted : before.Devoted (Keyed.key item) name) :
    (errand.leaves settings before).Devoted (Keyed.key item) name := by
  obtain ⟨clock, _, _, left⟩ := serves.leaves_eq own fetched returned
  have moving : (before.withClock clock).Coherent := coherent.of_eq rfl rfl
  have undiverted : ¬ (Act.write (Draft.ofItem call.name item)).Diverts
      (Keyed.key item) name := fun diverts => diverts.1 rfl
  rw [left, ← Cache.final_discard]
  exact Cache.devoted_after settings moving undiverted
    (devoted.withClock clock)

end Errand

namespace Logbook

variable [Keyed Value]

/-- Whatever has happened to a new cache: when an item that was fetched under a
name has been stored by its own key, and since then this key has not been
written and is still stored, then of all names that no other key is written
under these lead to the item: its key, its aliases, and the name of that last
request.  They read the item until it expires, and a call of one of them is
answered with it at once.  All others are absent, whatever the clock shows, if
no other key is written under the item's key either; they may have been
requested before. -/
theorem item_kept_under_last_request
    {settings : Settings} (valid : settings.Valid)
    (paddings : Nat → List Nat) (incidents : List (Incident Value))
    {errand : Errand Value} {call : SingleCall Value}
    (serves : errand.Serves call) (own : call.storing = .byOwnKey)
    {item : Value} (fetched : call.plan.ending = .returns item)
    {reply : Except Failure (Reply Value)}
    (returned : errand.verdict settings
      (undergoAll settings (start settings paddings)
        incidents).scheduler.cache = .returned reply)
    (acts : List (Act Value))
    (unwritten : ∀ act ∈ acts, ¬ act.Rewrites (Keyed.key item)) :
    let before := (undergoAll settings (start settings paddings)
      incidents).scheduler.cache
    let after := errand.leaves settings before
    let later := Cache.follow settings after acts
    let key := Keyed.key item
    let history := allActs settings (start settings paddings) incidents ++ acts
    later.Stores (before.route key) key →
      ∃ clock now, before.clock.advance call.plan.advance = .ok clock ∧
        clock.read = (.ok now, after.clock) ∧
          ∀ name, (∀ act ∈ history, ¬ act.Diverts key name) →
            (name = key ∨ name ∈ Keyed.aliases item ∨ name = call.name →
              ∀ instant, later.deciding name = .ok instant →
                (instant ≤ deadline now settings.timeToLive →
                  Cache.Reads settings later name (some (some item)) ∧
                    ∀ (scheduler : Scheduler Value) (task : TaskId)
                      (request : SingleCall Value),
                      scheduler.cache = later →
                        scheduler.tasks[task]? = some (.single request) →
                          request.name = name →
                            scheduler.Hits settings task request item) ∧
                (deadline now settings.timeToLive < instant →
                  Cache.Reads settings later name none)) ∧
            (¬ (name = key ∨ name ∈ Keyed.aliases item ∨
                name = call.name) →
              (∀ act ∈ history, ¬ act.Diverts key key) →
                ∀ (clock : Clock) (instant : Instant),
                  clock.read.1 = .ok instant →
                    Cache.Ends (Cache.lookup settings name)
                      (later.withClock clock)
                      (fun found _ => found = .absent)
                      (fun _ _ => False)) := by
  intro before after later key history stays
  have new : (Cache.empty settings paddings : Cache Value).Coherent :=
    Cache.coherent_empty valid paddings
  have coherent : before.Coherent :=
    coherent_undergoAll new settings incidents
  have coherentAfter : after.Coherent :=
    errand.coherent_leaves settings coherent
  have coherentLater : later.Coherent := coherentAfter.follow settings acts
  obtain ⟨stored, retains⟩ :=
    Cache.retains_follow coherentAfter unwritten stays
  obtain ⟨clock, now, moved, written⟩ :=
    serves.written_of_stored own fetched coherent returned stored
  -- A name that nobody has written another key under is devoted throughout.
  have devoted : ∀ name, (∀ act ∈ history, ¬ act.Diverts key name) →
      before.Devoted key name ∧ later.Devoted key name := by
    intro name undiverted
    obtain ⟨earlier, afterwards⟩ := List.forall_mem_append.mp undiverted
    have early : before.Devoted key name := by
      rw [show before = _ from
        cache_undergoAll new incidents]
      exact Cache.devoted_follow settings new earlier
        (Cache.devoted_empty settings paddings key name)
    exact ⟨early, Cache.devoted_follow settings coherentAfter afterwards
      (serves.devoted own fetched coherent returned early)⟩
  refine ⟨clock, now, moved, written.reading, fun name undiverted => ?_⟩
  have early := (devoted name undiverted).1.withClock clock
  have late := (devoted name undiverted).2
  rw [← Draft.mem_names_ofItem_iff]
  refine ⟨?leads, ?absent⟩
  case leads =>
    intro asked instant decided
    have reads := written.reads_later coherentAfter retains stays early late
      coherentLater asked decided
    constructor
    · intro live
      rw [if_neg (Nat.not_lt.mpr live)] at reads
      refine ⟨reads, ?_⟩
      rintro scheduler task request same found rfl
      exact Scheduler.hits_of_reads found (same.symm ▸ reads)
    · intro expired
      rwa [if_pos expired] at reads
  case absent =>
    intro unasked rooted clock instant reading
    obtain ⟨shard, seat⟩ := coherentLater.seat name
    exact Cache.ends_lookup_of_unheld settings seat
      (written.unheld_later coherentAfter retains stays early late
        coherentLater (devoted key rooted).2 unasked) reading

/-- A call of a name that fetches an item with another key and an alias. -/
def taggedCall (name : String) : SingleCall NameTag :=
  ⟨name, .byOwnKey, ⟨0, 0, .returns ⟨"b", ["t"]⟩⟩⟩

/-- The item has been requested once. -/
def requestedOnce : List (Incident NameTag) :=
  [.move (.call (taggedCall "x")), .move (.turn 0)]

/-- After a second request the item is read under the name of this one and under
its alias, and a call of the name is answered with it; the name of the first
request is absent. -/
theorem item_kept_under_last_request_renamed :
    let before := (undergoAll Settings.twoShards
      (start Settings.twoShards fun _ => []) requestedOnce).scheduler.cache
    let acts : List (Act NameTag) := [.delete "z", .sweep 0, .sweep 1]
    let later := Cache.follow Settings.twoShards
      ((Errand.complete 1 (taggedCall "y")).leaves Settings.twoShards before)
      acts
    Settings.twoShards.Valid ∧
      (∀ act ∈ acts, ¬ act.Rewrites "b") ∧
        later.Stores (before.route "b") "b" ∧
        (∀ name ∈ ["y", "t"],
          Cache.Reads Settings.twoShards later name
            (some (some ⟨"b", ["t"]⟩))) ∧
        (∀ scheduler : Scheduler NameTag, scheduler.cache = later →
          scheduler.tasks[0]? = some (.single (taggedCall "y")) →
            scheduler.Hits Settings.twoShards 0 (taggedCall "y")
              ⟨"b", ["t"]⟩) ∧
        Cache.Ends (Cache.lookup Settings.twoShards "x")
          (later.withClock (.start .manual))
          (fun found _ => found = .absent) (fun _ _ => False) := by
  intro before acts later
  have valid : Settings.twoShards.Valid := by decide
  have unwritten : ∀ act ∈ acts, ¬ act.Rewrites "b" := by decide
  obtain ⟨reply, returned⟩ : ∃ reply, (Errand.complete 1 (taggedCall
      "y")).verdict Settings.twoShards before = .returned reply :=
    Errand.returned_of_returns (by decide +kernel)
  have stays : later.Stores (before.route "b") "b" := by decide +kernel
  have undiverted : ∀ name ∈ ["b", "x", "y", "t"],
      ∀ act ∈ allActs Settings.twoShards
          (start Settings.twoShards fun _ => []) requestedOnce ++ acts,
        ¬ act.Diverts "b" name := by
    decide +kernel
  have asked : ∀ name ∈ ["y", "t"], name ∈ ["b", "x", "y", "t"] ∧
      (name = "b" ∨ name ∈ ["t"] ∨ name = "y") := by
    decide
  have decided : ∀ name ∈ ["y", "t"], later.deciding name = .ok 0 := by
    decide +kernel
  dsimp only [before, later] at returned stays undiverted decided ⊢
  generalize requestedOnce = incidents at returned stays undiverted decided ⊢
  clear_value acts
  have tenure := item_kept_under_last_request valid (fun _ => []) incidents
    (.waited 1) rfl rfl returned acts unwritten
  obtain ⟨_, _, _, _, names⟩ := tenure stays
  have hits := fun name (member : name ∈ ["y", "t"]) =>
    ((names name (undiverted name (asked name member).1)).1
      (asked name member).2 0 (decided name member)).1 (Nat.zero_le _)
  refine ⟨valid, unwritten, stays, ?_, ?_, ?_⟩
  · exact fun name member => (hits name member).1
  · intro scheduler same found
    exact (hits "y" List.mem_cons_self).2 scheduler 0 _ same found rfl
  · have unasked : ¬ ("x" = "b" ∨ "x" ∈ ["t"] ∨ "x" = "y") := by decide
    have listed : "x" ∈ ["b", "x", "y", "t"] := by decide
    exact (names "x" (undiverted "x" listed)).2 unasked
      (undiverted "b" List.mem_cons_self) (.start .manual) 0 rfl

/-- A call of a name fetches an item and the name reads it.  After another call,
of another name, that fetches the same item, the item is read under its key and
under the second name, at the same reading of the clock; the first name is
absent, and a call of it fetches for the second time. -/
theorem request_displaces_earlier :
    Settings.twoShards.Valid ∧
      (let new := start Settings.twoShards fun _ => []
      let again : List (Incident NameTag) := requestedOnce ++
        [.move (.call (taggedCall "y")), .move (.turn 1)]
      let third := again ++
        [.move (.call (taggedCall "x")), .move (.turn 2)]
      let once := (undergoAll Settings.twoShards new requestedOnce).scheduler
      let twice := (undergoAll Settings.twoShards new again).scheduler
      let read := fun (cache : Cache NameTag) name =>
        Cache.result? (Cache.lookup Settings.twoShards name) cache
      (∀ act ∈ allActs Settings.twoShards new third,
          ∀ name ∈ ["b", "x", "y"], ¬ act.Diverts "b" name) ∧
        read once.cache "x" = some (.found ⟨"b", ["t"]⟩ false) ∧
          once.cache.clock = twice.cache.clock ∧
            read twice.cache "b" = some (.found ⟨"b", ["t"]⟩ false) ∧
              read twice.cache "y" = some (.found ⟨"b", ["t"]⟩ false) ∧
                read twice.cache "x" = some .absent ∧
                  (undergoAll Settings.twoShards new
                    third).scheduler.fetchCalls =
                      #[.one 0 "x", .one 1 "y", .one 2 "x"]) := by
  decide +kernel

end Logbook

end ReadThrough
