import ReadThrough.Proofs.Cache.Identity
import ReadThrough.Proofs.Scheduler.Incidents

/-!
# What fetches store

An errand stores what its fetch has returned: that of a call of one name its
value, that of a batch the values of the response, request by request.
`StoresAt` says for which name a value is stored by name, and what the cache is
at that moment.

`fetched_value_keeps_identity` says what such a store makes of the entry that
the name leads to by then, whatever has happened while the fetch was under way.
-/

namespace ReadThrough

open Std (ExtTreeMap)

variable {Value : Type}

namespace Cache

variable {Result : Type} {settings : Settings} {cache : Cache Value}

/-! ## The parts of a response -/

/-- Where the clock can be moved, the end of a fetch that returns is the end of
its response. -/
theorem final_play_returns
    {Response : Type} {plan : Plan Response}
    {deal : Except Failure Response → Action Value Result}
    {response : Response} {clock : Clock}
    (fetched : plan.ending = .returns response)
    (moved : cache.clock.advance plan.advance = .ok clock) :
    final (plan.play >>= deal) cache =
      final (deal (.ok response)) (cache.withClock clock) := by
  let dealt := final (deal (.ok response)) (cache.withClock clock)
  have ends : Ends (plan.play >>= deal) cache
      (fun _ => (· = dealt)) (fun _ => (· = dealt)) := by
    rw [ends_play, moved, fetched]
    exact ends_iff_final.mpr rfl
  have left := ends_iff_final.mp ends
  exact left

/-- Whether the result of the second part is told makes no difference to the
cache. -/
theorem final_bind_discard
    {Other : Type} (first : Action Value Other)
    (second : Other → Action Value Result) (cache : Cache Value) :
    final (first >>= fun result => discard (second result)) cache =
      final (first >>= second) cache := by
  rw [final_bind, final_bind]
  cases answer first cache with
  | error fault => rfl
  | ok result => exact final_discard _ _

/-- What is left of a response when requests have been answered. -/
def unused (response : ExtTreeMap String Value) (requests : List Request) :
    ExtTreeMap String Value :=
  (requests.map (·.label)).foldl .erase response

theorem getElem?_unused
    (response : ExtTreeMap String Value) (requests : List Request)
    (label : String) :
    (unused response requests)[label]? =
      if label ∈ requests.map (·.label) then none else response[label]? :=
  getElem?_foldl_erase _ label response

variable [Keyed Value]

/-- The later requests are stored after the earlier ones, with what these have
left of the response. -/
theorem storeResponse_append
    (settings : Settings) (storing : Storing) (refreshing : Bool)
    (early late : List Request) (response used : ExtTreeMap String Value) :
    storeResponse settings storing refreshing (early ++ late) response used =
      storeResponse settings storing refreshing early response used >>=
        storeResponse settings storing refreshing late
          (unused response early) := by
  induction early generalizing response used with
  | nil => rw [List.nil_append, storeResponse, pure_bind]; rfl
  | cons request early inductionHypothesis =>
      rw [List.cons_append, storeResponse, storeResponse]
      have left : unused response (request :: early) =
          unused (response.erase request.label) early := rfl
      rw [left]
      cases answered : response[request.label]? with
      | some value => simp only [bind_assoc, inductionHypothesis]
      | none =>
          have absent : response.erase request.label = response := by
            apply ExtTreeMap.ext_getElem?
            intro label
            rw [ExtTreeMap.getElem?_erase]
            split
            next same => rw [← Std.compare_eq_iff_eq.mp same, answered]
            next => rfl
          rw [absent]
          simp only [inductionHypothesis]
          split
          · rw [bind_assoc]
          · split
            · rw [bind_assoc]
            · rfl

end Cache

variable [Keyed Value]

namespace Errand

/-- In the course of an errand a value is stored for a name by name, and this is
the cache when it is. -/
inductive StoresAt (settings : Settings) (cache : Cache Value) :
    Errand Value → String → Value → Cache Value → Prop
  /-- By a call of the name. -/
  | complete {flight : FlightId} {call : SingleCall Value} {value : Value}
      {clock : Clock} (byName : call.storing = .byName)
      (fetched : call.plan.ending = .returns value)
      (moved : cache.clock.advance call.plan.advance = .ok clock) :
      StoresAt settings cache (.complete flight call) call.name value
        (cache.withClock clock)
  /-- By the refresh of an entry. -/
  | refresh {call : SingleCall Value} {value : Value} {clock : Clock}
      (byName : call.storing = .byName)
      (fetched : call.plan.ending = .returns value)
      (moved : cache.clock.advance call.plan.advance = .ok clock) :
      StoresAt settings cache (.refresh call) call.name value
        (cache.withClock clock)
  /-- By a batch, once the earlier requests have been dealt with. -/
  | collect {found response : ExtTreeMap String Value}
      {early late : List Request} {request : Request}
      {plan : Plan (ExtTreeMap String Value)} {value : Value} {clock : Clock}
      (fetched : plan.ending = .returns response)
      (moved : cache.clock.advance plan.advance = .ok clock)
      (done : Cache.returns (Cache.storeResponse settings .byName false early
        response ∅) (cache.withClock clock))
      (unrequested : request.label ∉ early.map (·.label))
      (answered : response[request.label]? = some value) :
      StoresAt settings cache
        (.collect found (early ++ request :: late) .byName plan) request.name
        value (Cache.final (Cache.storeResponse settings .byName false early
          response ∅) (cache.withClock clock))
  /-- By the refresh of a batch. -/
  | refreshMany {response : ExtTreeMap String Value}
      {early late : List Request} {request : Request}
      {plan : Plan (ExtTreeMap String Value)} {value : Value} {clock : Clock}
      (fetched : plan.ending = .returns response)
      (moved : cache.clock.advance plan.advance = .ok clock)
      (done : Cache.returns (Cache.storeResponse settings .byName true early
        response ∅) (cache.withClock clock))
      (unrequested : request.label ∉ early.map (·.label))
      (answered : response[request.label]? = some value) :
      StoresAt settings cache
        (.refreshMany (early ++ request :: late) .byName plan) request.name
        value (Cache.final (Cache.storeResponse settings .byName true early
          response ∅) (cache.withClock clock))

namespace StoresAt

variable {settings : Settings} {cache moment : Cache Value}
  {errand : Errand Value} {name : String} {value : Value}

/-- A response that has been dealt with up to a request stores the value of this
request next. -/
theorem exists_rest_of_response
    {refreshing : Bool} {early late : List Request} {request : Request}
    {response : ExtTreeMap String Value} {moved : Cache Value}
    (done : Cache.returns (Cache.storeResponse settings .byName refreshing
      early response ∅) moved)
    (unrequested : request.label ∉ early.map (·.label))
    (answered : response[request.label]? = some value) :
    ∃ rest : Cache.Action Value Unit,
      Cache.final (Cache.storeResponse settings .byName refreshing
        (early ++ request :: late) response ∅) moved =
      Cache.final (Cache.storeFetched settings .byName request.name value >>=
          fun _ => rest)
        (Cache.final (Cache.storeResponse settings .byName refreshing early
          response ∅) moved) := by
  have left := (Cache.getElem?_unused response early request.label).trans
    ((if_neg unrequested).trans answered)
  rw [Cache.storeResponse_append, Cache.final_bind]
  rw [Cache.returns] at done
  cases given : Cache.answer (Cache.storeResponse settings .byName refreshing
      early response ∅) moved with
  | error fault =>
      rw [given] at done
      cases done
  | ok used =>
      dsimp only
      rw [Cache.storeResponse, left]
      exact ⟨discard (Cache.storeResponse settings .byName refreshing late
        ((Cache.unused response early).erase request.label)
        (used.insert request.label value)),
        (Cache.final_bind_discard _ _ _).symm⟩

/-- The errand gets to that moment, and stores the value before it goes on. -/
theorem exists_rest
    (stores : errand.StoresAt settings cache name value moment) :
    ∃ rest : Cache.Action Value Unit,
      errand.leaves settings cache =
        Cache.final (Cache.storeFetched settings .byName name value >>=
          fun _ => rest) moment := by
  cases stores with
  | @complete flight call value clock byName fetched moved =>
      refine ⟨discard (pure (Except.ok value : Except Failure Value)), ?_⟩
      rw [leaves, operation, Operation.action, Cache.final_discard,
        Cache.concludeFlight, Cache.final_play_returns fetched moved,
        Cache.storeOutcome, byName]
      exact (Cache.final_bind_discard _ _ _).symm
  | @refresh call value clock byName fetched moved =>
      refine ⟨pure (), ?_⟩
      rw [leaves, operation, Operation.action, Cache.concludeRefresh,
        Cache.final_play_returns fetched moved, Cache.storeRefreshed, byName,
        bind_pure]
  | @collect found response early late request plan value clock fetched moved
      done unrequested answered =>
      obtain ⟨rest, left⟩ := exists_rest_of_response done unrequested answered
      refine ⟨rest, ?_⟩
      rw [leaves, operation, Operation.action, Cache.final_discard,
        Cache.concludeMisses, Cache.final_play_returns fetched moved, ← left]
      exact Cache.final_map _ _ _
  | @refreshMany response early late request plan value clock fetched moved
      done unrequested answered =>
      obtain ⟨rest, left⟩ := exists_rest_of_response done unrequested answered
      refine ⟨rest, ?_⟩
      rw [leaves, operation, Operation.action, Cache.concludeRefreshes,
        Cache.final_play_returns fetched moved, ← left]
      exact Cache.final_discard _ _

theorem coherent
    (stores : errand.StoresAt settings cache name value moment)
    (coherent : cache.Coherent) : moment.Coherent := by
  have later : ∀ clock : Clock, (cache.withClock clock).Coherent := fun clock =>
    (Cache.alike_withClock cache clock).coherent coherent
  have stored : ∀ (clock : Clock) (refreshing : Bool) (early : List Request)
      (response : ExtTreeMap String Value),
      (Cache.final (Cache.storeResponse settings .byName refreshing early
        response ∅) (cache.withClock clock)).Coherent := by
    intro clock refreshing early response
    exact (later clock).of_runs (Cache.respects_final
      (Cache.respects_storeResponse_runs settings .byName refreshing early
        response ∅) _)
  cases stores with
  | complete => exact later _
  | refresh => exact later _
  | collect => exact stored _ false _ _
  | refreshMany => exact stored _ true _ _

end StoresAt

end Errand

namespace Logbook

/-- Whatever has happened to a new cache: when a fetched value is stored by
name, the errand goes on after the store.  If the name leads to an entry by
then, live or expired, the store renews the entry, unless the key is routed
elsewhere than the name or the clock cannot be read.  If it leads to nothing and
the shard does not drop the write, the name becomes the key of a new entry
without aliases, unless the clock cannot be read. -/
theorem fetched_value_keeps_identity
    {settings : Settings} (valid : settings.Valid)
    (expressible : settings.timeToLive ≤ Duration.longest)
    (paddings : Nat → List Nat) (incidents : List (Incident Value))
    {errand : Errand Value} {name : String} {value : Value}
    {moment : Cache Value}
    (stores : errand.StoresAt settings
      (undergoAll settings (start settings paddings) incidents).scheduler.cache
      name value moment) :
    let before := (undergoAll settings (start settings paddings)
      incidents).scheduler.cache
    let store := Cache.storeFetched settings .byName name value
    (∃ rest : Cache.Action Value Unit,
        errand.leaves settings before =
          Cache.final (store >>= fun _ => rest) moment) ∧
      (∀ entry aliases,
        moment.held (moment.place name) = some (entry, aliases) →
          Cache.Ends store moment
            (fun _ after => ∃ now, Cache.Renewed settings value
              (moment.place name) aliases now moment after)
            (fun fault _ => ¬ moment.AtHome name ∨
              moment.clock.read.1 = .error fault)) ∧
      (moment.held (moment.place name) = none →
        ¬ moment.Drops settings name →
          Cache.Ends store moment
            (fun _ after => ∃ now, Cache.Introduced settings name value now
              moment after)
            (fun fault _ => moment.clock.read.1 = .error fault)) := by
  intro before store
  have coherent : moment.Coherent := stores.coherent
    (coherent_undergoAll (Cache.coherent_empty valid paddings) settings
      incidents)
  have windows := valid.window_le expressible
  refine ⟨stores.exists_rest, fun entry aliases holds => ?_,
    fun nothing kept => ?_⟩
  · exact Cache.ends_storeFetched_renews coherent windows holds
  · exact Cache.ends_storeFetched_introduces coherent windows nothing kept

/-- A key with an alias, which has expired by now. -/
def lapsedEntry : List (Incident NameTag) :=
  [.operation (.act (.write ⟨"a", some ⟨"a", ["x"]⟩, ["x"]⟩)),
    .operation (.act (.quiet (.advance 2000)))]

/-- Two requests are answered at once. -/
def twoAnswers : Plan (ExtTreeMap String NameTag) :=
  ⟨0, 0, .returns (((∅ : ExtTreeMap String NameTag).insert "one"
    ⟨"b", []⟩).insert "two" ⟨"a", ["y"]⟩)⟩

/-- The response to a batch stores one value under a name that leads to nothing,
and the next one by the alias of an entry that has expired.  The entry keeps its
key and its alias. -/
theorem fetched_value_keeps_identity_lapsed :
    let settings := Settings.twoShards
    let before := (undergoAll settings (start settings fun _ => [])
      lapsedEntry).scheduler.cache
    let early : List Request := [⟨"one", "b"⟩]
    let response := Cache.storeResponse settings .byName false early
      (((∅ : ExtTreeMap String NameTag).insert "one" ⟨"b", []⟩).insert "two"
        ⟨"a", ["y"]⟩) ∅
    let moment := Cache.final response (before.withClock before.clock)
    let errand : Errand NameTag :=
      .collect ∅ (early ++ ⟨"two", "x"⟩ :: []) .byName twoAnswers
    settings.Valid ∧ settings.timeToLive ≤ Duration.longest ∧
      errand.StoresAt settings before "x" ⟨"a", ["y"]⟩ moment ∧
      moment.place "x" = (1, "a") ∧
      Cache.Ends (Cache.storeFetched settings .byName "x" ⟨"a", ["y"]⟩) moment
        (fun _ after =>
          (∃ entry, after.held (1, "a") = some (entry, ["x"]) ∧
            entry.value = some ⟨"a", ["y"]⟩) ∧
          after.size = moment.size)
        (fun _ _ => False) := by
  intro settings before early response moment errand
  have valid : settings.Valid := by decide
  have expressible : settings.timeToLive ≤ Duration.longest := by decide
  have moved : before.clock.advance 0 = .ok before.clock := by
    decide +kernel
  have done : Cache.returns response (before.withClock before.clock) := by
    decide +kernel
  have stores : errand.StoresAt settings before "x" ⟨"a", ["y"]⟩ moment :=
    .collect rfl moved done (by decide) (by decide +kernel)
  have placed : moment.place "x" = (1, "a") := by decide +kernel
  have held : (moment.held (1, "a")).map (·.2) = some ["x"] := by
    decide +kernel
  have home : moment.AtHome "x" := by decide +kernel
  have readable : moment.clock.read.1.isOk = true := by decide +kernel
  obtain ⟨⟨entry, _⟩, holds, rfl⟩ := Option.map_eq_some_iff.mp held
  dsimp only [before] at stores ⊢
  generalize lapsedEntry = incidents at stores ⊢
  clear_value moment
  have stated := (fetched_value_keeps_identity valid expressible
    (fun _ => []) incidents stores).2.1 entry ["x"] (placed ▸ holds)
  refine ⟨valid, expressible, stores, placed, stated.weaken ?_ ?_⟩
  · rintro _ after ⟨now, renewed⟩
    obtain ⟨fresh, isFresh, own⟩ := renewed.held
    exact ⟨⟨fresh, placed ▸ own, isFresh.value⟩, renewed.size⟩
  · rintro fault _ (elsewhere | unread)
    · exact elsewhere home
    · rw [unread] at readable
      cases readable

end Logbook

end ReadThrough
