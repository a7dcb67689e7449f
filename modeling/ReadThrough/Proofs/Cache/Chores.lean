import ReadThrough.Proofs.Cache.Atomicity
import ReadThrough.Proofs.Cache.Ledger

/-!
# What operations are made of

An operation carries out chores, one after the other, until one of them ends in a
fault.  A chore is an act that is settled on when its turn comes: which entry a
fetched value replaces depends on what the chores before have left.

`final_operation` says that an operation leaves behind what its acts leave
behind, and `countP_acts` how often it looks names up.
-/

namespace ReadThrough

open Std (ExtTreeMap)

/-- An act that is settled on when it is carried out. -/
abbrev Chore (Value : Type) := Cache Value → Act Value

namespace Cache

variable {Value Result Other : Type}

/-- The acts of chores that are carried out until one of them ends in a fault. -/
def carryOut (settings : Settings) :
    List (Chore Value) → Cache Value → List (Act Value)
  | [], _ => []
  | chore :: chores, cache =>
      chore cache ::
        if returns ((chore cache).action settings) cache then
          carryOut settings chores (after settings cache (chore cache))
        else []

/-- Whether none of the chores ends in a fault. -/
def completes (settings : Settings) :
    List (Chore Value) → Cache Value → Bool
  | [], _ => true
  | chore :: chores, cache =>
      returns ((chore cache).action settings) cache &&
        completes settings chores (after settings cache (chore cache))

/-- To do an action to a coherent cache is to carry out chores. -/
structure Consists
    (settings : Settings) (action : Action Value Result)
    (chores : List (Chore Value)) : Prop where
  leaves : ∀ {cache : Cache Value}, cache.Coherent →
    final action cache =
      follow settings cache (carryOut settings chores cache)
  returns : ∀ {cache : Cache Value}, cache.Coherent →
    returns action cache = completes settings chores cache

section Chores

variable {settings : Settings}

theorem carryOut_append
    (early late : List (Chore Value)) (cache : Cache Value) :
    carryOut settings (early ++ late) cache =
      carryOut settings early cache ++
        if completes settings early cache then
          carryOut settings late
            (follow settings cache (carryOut settings early cache))
        else [] := by
  induction early generalizing cache with
  | nil => rfl
  | cons chore early inductionHypothesis =>
      simp only [List.cons_append, carryOut, completes]
      by_cases done : returns ((chore cache).action settings) cache
      · simp only [done, if_true, Bool.true_and, inductionHypothesis,
          follow_cons]
      · simp [done]

theorem completes_append
    (early late : List (Chore Value)) (cache : Cache Value) :
    completes settings (early ++ late) cache =
      (completes settings early cache &&
        completes settings late
          (follow settings cache (carryOut settings early cache))) := by
  induction early generalizing cache with
  | nil => rfl
  | cons chore early inductionHypothesis =>
      simp only [List.cons_append, carryOut, completes]
      by_cases done : returns ((chore cache).action settings) cache
      · simp only [done, if_true, Bool.true_and, inductionHypothesis,
          follow_cons]
      · simp [done]

/-- Every chore of completed ones comes to an act that returns. -/
theorem exists_acts_of_completes
    {early late : List (Chore Value)} {chore : Chore Value}
    {cache : Cache Value}
    (done : completes settings (early ++ chore :: late) cache) :
    ∃ before after,
      carryOut settings (early ++ chore :: late) cache =
          before ++ chore (follow settings cache before) :: after ∧
        returns ((chore (follow settings cache before)).action settings)
          (follow settings cache before) := by
  rw [completes_append, completes, Bool.and_eq_true, Bool.and_eq_true] at done
  obtain ⟨first, returned, _⟩ := done
  have shape : carryOut settings (early ++ chore :: late) cache = _ :=
    carryOut_append early (chore :: late) cache
  rw [if_pos first, carryOut] at shape
  exact ⟨_, _, shape, returned⟩

theorem returns_discard (action : Action Value Result) (cache : Cache Value) :
    returns (discard action) cache = returns action cache := by
  rw [returns, returns, show discard action = (fun _ => ()) <$> action
    from rfl, answer_map]
  cases answer action cache with
  | ok result => rfl
  | error fault => rfl

theorem returns_bind
    (first : Action Value Other) (second : Other → Action Value Result)
    (cache : Cache Value) :
    returns (first >>= second) cache =
      match answer first cache with
      | .ok result => returns (second result) (final first cache)
      | .error _ => false := by
  rw [returns, answer_bind]
  cases answer first cache with
  | ok result => rfl
  | error fault => rfl

theorem returns_iff_ends
    {action : Action Value Result} {cache : Cache Value} :
    returns action cache ↔
      Ends action cache (fun _ _ => True) (fun _ _ => False) := by
  rw [returns, ends_iff_answer]
  cases answer action cache with
  | ok result => simp [Except.toBool]
  | error fault => simp [Except.toBool]

/-- What holds of every return holds after an action that returns. -/
theorem final_of_returns
    {action : Action Value Result} {cache : Cache Value}
    {accepts : Cache Value → Prop} {breaks : Fault → Cache Value → Prop}
    (returned : returns action cache = true)
    (ends : Ends action cache (fun _ => accepts) breaks) :
    accepts (final action cache) := by
  rw [ends_iff_answer] at ends
  rw [returns] at returned
  cases answered : answer action cache with
  | ok result => rwa [answered] at ends
  | error fault =>
      rw [answered] at returned
      cases returned

theorem consists_pure (result : Result) :
    Consists settings (pure result : Action Value Result) [] :=
  ⟨fun _ => rfl, fun _ => rfl⟩

theorem Consists.bind
    {first : Action Value Other} {second : Other → Action Value Result}
    {early late : List (Chore Value)}
    (head : Consists settings first early)
    (tail : ∀ result, Consists settings (second result) late) :
    Consists settings (first >>= second) (early ++ late) := by
  have both : ∀ {cache : Cache Value}, cache.Coherent →
      final (first >>= second) cache =
          follow settings cache (carryOut settings (early ++ late) cache) ∧
        Cache.returns (first >>= second) cache =
          completes settings (early ++ late) cache := by
    intro cache coherent
    have left := head.leaves coherent
    have next : (final first cache).Coherent :=
      left ▸ coherent.follow settings _
    have agrees := head.returns coherent
    rw [Cache.returns] at agrees
    rw [final_bind, returns_bind, carryOut_append, completes_append,
      follow_append, ← left, ← agrees]
    -- Both stop, or both go on, after the early chores.
    cases answer first cache with
    | error fault => exact ⟨rfl, rfl⟩
    | ok result =>
        exact ⟨(tail result).leaves next, (tail result).returns next⟩
  exact ⟨fun coherent => (both coherent).1, fun coherent => (both coherent).2⟩

theorem Consists.discard
    {action : Action Value Result} {chores : List (Chore Value)}
    (consists : Consists settings action chores) :
    Consists settings (discard action) chores where
  leaves coherent := (final_discard _ _).trans (consists.leaves coherent)
  returns coherent :=
    (returns_discard _ _).trans (consists.returns coherent)

/-- A last step that does nothing to the cache needs no chore. -/
theorem Consists.thenPure
    {action : Action Value Other} {chores : List (Chore Value)}
    (consists : Consists settings action chores) (result : Other → Result) :
    Consists settings (action >>= fun found => pure (result found))
      chores := by
  have appended := consists.bind fun found =>
    consists_pure (result found)
  rwa [List.append_nil] at appended

theorem consists_act (act : Act Value) :
    Consists settings (act.action settings) [fun _ => act] := by
  refine ⟨fun _ => ?_, fun {cache} _ => ?_⟩
  · rw [carryOut, carryOut, ite_self]
    rfl
  · rw [completes, completes, Bool.and_true]

/-- What an act makes of a cache does not depend on its answer. -/
theorem consists_of_discard
    {action : Action Value Result} (act : Act Value)
    (same : act.action settings = Functor.discard action) :
    Consists settings action [fun _ => act] := by
  have consists := same ▸ consists_act act
  refine ⟨fun coherent => ?_, fun coherent => ?_⟩
  · rw [← consists.leaves coherent, final_discard]
  · rw [← consists.returns coherent, returns_discard]

end Chores

/-! ## The chores of operations -/

section Chores

variable [Keyed Value] (settings : Settings)

/-- The chores that store a fetched value. -/
def fetchedChores (storing : Storing) (name : String) (value : Value) :
    List (Chore Value) :=
  match storing with
  | .byName =>
      [fun _ => .quiet (.route name),
        fun cache => .write ((Writing.fetched .byName name value).draft
          cache)]
  | .byOwnKey =>
      [fun _ => .write ⟨Keyed.key value, some value,
        aliasesWith name value⟩]

/-- The chores that take note that a record which was stored is gone. -/
def absenceChores (name : String) : List (Chore Value) :=
  if settings.storesMissing then [fun _ => .write ⟨name, none, []⟩]
  else [fun _ => .delete name]

/-- The chores that store a missing record, where missing records are
stored. -/
def missingChores (name : String) : List (Chore Value) :=
  if settings.storesMissing then [fun _ => .write ⟨name, none, []⟩]
  else []

/-- The chores that store the outcome of a fetch. -/
def outcomeChores
    (storing : Storing) (name : String) (refreshing : Bool) :
    Except Failure Value → List (Chore Value)
  | .ok value => fetchedChores storing name value
  | .error (.notFound _) =>
      if refreshing then absenceChores settings name
      else missingChores settings name
  | .error _ => []

/-- The chores that store the response to requests. -/
def responseChores (storing : Storing) (refreshing : Bool) :
    List Request → ExtTreeMap String Value → List (Chore Value)
  | [], _ => []
  | request :: requests, response =>
      match response[request.label]? with
      | some value =>
          fetchedChores storing request.name value ++
            responseChores storing refreshing requests
              (response.erase request.label)
      | none =>
          (if refreshing then absenceChores settings request.name
            else missingChores settings request.name) ++
            responseChores storing refreshing requests response

/-- The chores of the end of a fetch: the clock of the cache moves, and unless
the fetch breaks off, its outcome is dealt with. -/
def playChores {Response : Type} (plan : Plan Response)
    (deal : Except Failure Response → List (Chore Value)) :
    List (Chore Value) :=
  (fun _ => .quiet (.advance plan.advance)) ::
    match plan.ending with
    | .returns response => deal (.ok response)
    | .fails failure => deal (.error failure)
    | .breaks _ => []

/-- The chores that look requests up. -/
def lookupChores (requests : List Request) : List (Chore Value) :=
  requests.map fun request _ => .quiet (.lookup request.name)

end Chores

section Consists

variable (settings : Settings)

theorem consists_foldlM
    {Item : Type} {round : Result → Item → Action Value Result}
    {chore : Item → Chore Value}
    (each : ∀ result item,
      Consists settings (round result item) [chore item])
    (items : List Item) (result : Result) :
    Consists settings (items.foldlM round result) (items.map chore) := by
  induction items generalizing result with
  | nil => exact consists_pure result
  | cons item items inductionHypothesis =>
      rw [List.foldlM_cons]
      exact (each result item).bind fun result => inductionHypothesis result

theorem consists_lookup (name : String) :
    Consists settings (@lookup Value settings name)
      [fun _ => .quiet (.lookup name)] :=
  consists_of_discard (.quiet (.lookup name)) rfl

theorem consists_write
    (key : String) (value : Option Value) (aliases : List String) :
    Consists settings (write settings key value aliases)
      [fun _ => .write ⟨key, value, aliases⟩] :=
  consists_of_discard (.write ⟨key, value, aliases⟩) rfl

theorem consists_writeAll (drafts : List (Draft Value)) :
    Consists settings (writeAll (drafts.map (writeDraft settings)))
      (drafts.map fun draft _ => .write draft) := by
  rw [writeAll, List.foldlM_map]
  exact consists_foldlM settings
    (fun evicted draft => (consists_write settings draft.key draft.value
      draft.aliases).bind fun _ => consists_pure _) drafts false

theorem consists_getManyBy (requests : List Request) :
    Consists settings (@getManyBy Value settings requests)
      (lookupChores requests) := by
  refine consists_foldlM settings (fun values request => ?_) requests ∅
  have looked := (consists_lookup settings request.name).bind
    fun found : Lookup Value => consists_pure found.value?
  refine looked.bind fun value => ?_
  cases value with
  | none => exact consists_pure _
  | some value => exact consists_pure _

theorem consists_gather
    (requests : List Request) (gathered : Gathered Value) :
    Consists settings (gather settings requests gathered)
      (lookupChores requests) := by
  induction requests generalizing gathered with
  | nil => exact consists_pure gathered
  | cons request requests inductionHypothesis =>
      exact (consists_lookup settings request.name).bind fun _ =>
        inductionHypothesis _

theorem consists_insertMissing (name : String) :
    Consists settings (discard (@insertMissing Value settings name))
      [fun _ => .write ⟨name, none, []⟩] :=
  (consists_write settings name none []).discard

theorem consists_storeAbsence (name : String) :
    Consists settings (@storeAbsence Value settings name)
      (absenceChores settings name) := by
  rw [storeAbsence, absenceChores]
  split
  · exact consists_insertMissing settings name
  · exact (consists_of_discard (.delete name) rfl).discard

/-- Where there are shards, a name is routed. -/
theorem route_act
    {cache : Cache Value} (coherent : cache.Coherent) (name : String) :
    returns ((Act.quiet (.route name)).action settings) cache = true ∧
      after settings cache (.quiet (.route name)) =
        cache.noted (.routed (cache.route name)) := by
  obtain ⟨shard, seat⟩ := coherent.seat name
  constructor
  · exact (returns_discard _ _).trans
      (returns_iff_ends.mpr ((ends_shardIndex_of_seat seat).mpr trivial))
  · have left : Ends (shardIndex name) cache
        (fun _ next => next = cache.noted (.routed (cache.route name)))
        (fun _ next => next = cache.noted (.routed (cache.route name))) :=
      (ends_shardIndex_of_seat seat).mpr rfl
    exact (final_discard _ _).trans (ends_iff_final.mp left)

/-- At the end of a fetch the clock of the cache moves, and then the outcome is
dealt with. -/
theorem ends_play
    {Response : Type} {plan : Plan Response}
    {deal : Except Failure Response → Action Value Result}
    {cache : Cache Value} {accepts : Result → Cache Value → Prop}
    {breaks : Fault → Cache Value → Prop} :
    Ends (plan.play >>= deal) cache accepts breaks ↔
      match cache.clock.advance plan.advance with
      | .error fault => breaks fault cache
      | .ok clock =>
          match plan.ending with
          | .returns response =>
              Ends (deal (.ok response)) (cache.withClock clock) accepts
                breaks
          | .fails failure =>
              Ends (deal (.error failure)) (cache.withClock clock) accepts
                breaks
          | .breaks text => breaks (.crash text) (cache.withClock clock) := by
  rw [ends_bind, Plan.play, ends_bind, ends_advanceClock]
  cases cache.clock.advance plan.advance with
  | error fault => exact Iff.rfl
  | ok clock =>
      cases plan.ending with
      | _ => exact Iff.rfl

/-- What the end of a fetch leaves behind. -/
theorem final_play
    {Response : Type} {plan : Plan Response}
    {deal : Except Failure Response → Action Value Result}
    {chores : Except Failure Response → List (Chore Value)}
    (each : ∀ outcome, Consists settings (deal outcome) (chores outcome))
    {cache : Cache Value} (coherent : cache.Coherent) :
    final (plan.play >>= deal) cache =
      follow settings cache
        (carryOut settings (playChores plan chores) cache) := by
  have moved : Consists settings (advanceClock plan.advance)
      [fun _ => (.quiet (.advance plan.advance) : Act Value)] :=
    consists_act (.quiet (.advance plan.advance))
  have left := moved.leaves coherent
  have done := moved.returns coherent
  rw [Cache.returns] at done
  rw [final_bind, Plan.play, answer_bind, final_bind, playChores,
    ← List.singleton_append, carryOut_append, follow_append, ← left, ← done]
  have next : (final (advanceClock plan.advance) cache).Coherent :=
    left ▸ coherent.follow settings _
  cases answer (advanceClock plan.advance) cache with
  | error fault => rfl
  | ok _ =>
      cases plan.ending with
      | returns response => exact (each (.ok response)).leaves next
      | fails failure => exact (each (.error failure)).leaves next
      | breaks text => rfl

variable [Keyed Value]

/-- A value that is stored by the name it was fetched under is written under the
key that the name stands for by then. -/
theorem ends_storeByName
    {settings : Settings} {name : String} {value : Value}
    {cache : Cache Value} {accepts : Bool → Cache Value → Prop}
    {breaks : Fault → Cache Value → Prop} (coherent : cache.Coherent) :
    Ends (storeByName settings name value) cache accepts breaks ↔
      Ends
        (writeDraft settings
          ((Writing.fetched .byName name value).draft
            (cache.noted (.routed (cache.route name)))))
        (cache.noted (.routed (cache.route name))) accepts breaks := by
  obtain ⟨shard, seat⟩ := coherent.seat name
  have routedSeat : (cache.noted
      (.routed (cache.route name))).shards[cache.route name]? =
        some shard := seat
  have bound : (Writing.fetched .byName name value).draft
      (cache.noted (.routed (cache.route name))) =
        ⟨((shard.binding name).getD (name, [])).1, some value,
          ((shard.binding name).getD (name, [])).2⟩ := by
    change (Writing.fetched .byName name value).draft cache = _
    rw [Writing.draft, seat]
    rfl
  rw [storeByName, ends_bind, ends_shardIndex_of_seat seat, ends_bind,
    ends_shardAt, routedSeat, bound]
  exact Iff.rfl

theorem consists_storeFetched
    (storing : Storing) (name : String) (value : Value) :
    Consists settings (storeFetched settings storing name value)
      (fetchedChores storing name value) := by
  cases storing with
  | byOwnKey => exact (consists_write settings _ _ _).discard
  | byName =>
      refine (Consists.discard ⟨fun {cache} coherent => ?_,
        fun {cache} coherent => ?_⟩)
      · obtain ⟨routed, left⟩ := route_act settings coherent name
        rw [fetchedChores, carryOut, if_pos routed, follow_cons, left,
          carryOut, carryOut, ite_self, follow_cons, follow_nil, after]
        refine Eq.trans ?_ (final_discard _ _).symm
        exact ends_iff_final.mp ((ends_storeByName coherent).mp
          (ends_iff_final.mpr rfl))
      · obtain ⟨routed, left⟩ := route_act settings coherent name
        rw [fetchedChores, completes, routed, left, completes, completes,
          Bool.true_and, Bool.and_true]
        refine Eq.trans ?_ (returns_discard _ _).symm
        exact Bool.eq_iff_iff.mpr (returns_iff_ends.trans
          ((ends_storeByName coherent).trans returns_iff_ends.symm))

theorem consists_storeOutcome
    (storing : Storing) (name : String) (outcome : Except Failure Value) :
    Consists settings (storeOutcome settings storing name outcome)
      (outcomeChores settings storing name false outcome) := by
  unfold storeOutcome outcomeChores
  cases outcome with
  | ok value =>
      exact (consists_storeFetched settings storing name value).thenPure _
  | error failure =>
      cases failure with
      | notFound source =>
          dsimp only
          rw [if_neg Bool.false_ne_true, missingChores]
          split
          · exact (consists_insertMissing settings name).thenPure _
          · exact consists_pure _
      | _ => exact consists_pure _

theorem consists_storeRefreshed
    (storing : Storing) (name : String) (outcome : Except Failure Value) :
    Consists settings (storeRefreshed settings storing name outcome)
      (outcomeChores settings storing name true outcome) := by
  unfold storeRefreshed outcomeChores
  cases outcome with
  | ok value => exact consists_storeFetched settings storing name value
  | error failure =>
      cases failure with
      | notFound source => exact consists_storeAbsence settings name
      | _ => exact consists_pure _

theorem consists_storeResponse
    (storing : Storing) (refreshing : Bool) (requests : List Request)
    (response used : ExtTreeMap String Value) :
    Consists settings
      (storeResponse settings storing refreshing requests response used)
      (responseChores settings storing refreshing requests response) := by
  induction requests generalizing response used with
  | nil => exact consists_pure used
  | cons request requests inductionHypothesis =>
      rw [storeResponse, responseChores]
      cases response[request.label]? with
      | some value =>
          exact (consists_storeFetched settings storing request.name
            value).bind fun _ => inductionHypothesis _ _
      | none =>
          dsimp only
          have goOn : ∀ _ : PUnit, Consists settings
              (storeResponse settings storing refreshing requests response
                used)
              (responseChores settings storing refreshing requests
                response) := fun _ => inductionHypothesis _ _
          by_cases refreshes : refreshing = true
          · rw [if_pos refreshes, if_pos refreshes]
            exact (consists_storeAbsence settings request.name).bind goOn
          · rw [if_neg refreshes, if_neg refreshes, missingChores]
            split
            · exact (consists_insertMissing settings
                request.name).bind goOn
            · exact goOn ⟨⟩

end Consists

end Cache

/-! ## Operations -/

section Operations

variable {Value : Type} [Keyed Value]

/-- The chores of an operation. -/
def Operation.chores (settings : Settings) (cache : Cache Value) :
    Operation Value → List (Chore Value)
  | .act single => [fun _ => single]
  | .writeAll drafts => drafts.map fun draft _ => .write draft
  | .getManyBy requests => Cache.lookupChores requests
  | .keys =>
      (List.range cache.shards.size).map fun index _ =>
        .quiet (.listShard index)
  | .gather requests => Cache.lookupChores requests
  | .concludeFlight storing name plan =>
      Cache.playChores plan (Cache.outcomeChores settings storing name false)
  | .concludeRefresh storing name plan =>
      Cache.playChores plan (Cache.outcomeChores settings storing name true)
  | .concludeMisses storing _ misses plan =>
      Cache.playChores plan fun
        | .ok response =>
            Cache.responseChores settings storing false misses response
        | .error _ => []
  | .concludeRefreshes storing requests plan =>
      Cache.playChores plan fun
        | .ok response =>
            Cache.responseChores settings storing true requests response
        | .error _ => []

/-- The acts of an operation. -/
def Operation.acts
    (settings : Settings) (cache : Cache Value)
    (operation : Operation Value) : List (Act Value) :=
  Cache.carryOut settings (operation.chores settings cache) cache

/-- An operation leaves behind what its acts leave behind. -/
theorem Cache.final_operation
    {settings : Settings} {cache : Cache Value} (coherent : cache.Coherent)
    (operation : Operation Value) :
    Cache.final (operation.action settings) cache =
      Cache.follow settings cache (operation.acts settings cache) := by
  cases operation with
  | act single => exact (Cache.consists_act single).leaves coherent
  | writeAll drafts =>
      exact (Cache.consists_writeAll settings drafts).discard.leaves coherent
  | getManyBy requests =>
      exact (Cache.consists_getManyBy settings requests).discard.leaves
        coherent
  | keys =>
      refine (Cache.final_discard _ _).trans ?_
      have listed : Cache.Consists settings
          ((List.range cache.shards.size).foldlM
            (fun found index => return found ++
              (← @Cache.keysOf Value index)) [])
          ((List.range cache.shards.size).map fun index _ =>
            .quiet (.listShard index)) :=
        Cache.consists_foldlM settings (fun found index =>
          (Cache.consists_of_discard (.quiet (.listShard index))
            rfl).thenPure _) _ _
      exact listed.leaves coherent
  | gather requests =>
      exact (Cache.consists_gather settings requests _).discard.leaves
        coherent
  | concludeFlight storing name plan =>
      exact (Cache.final_discard _ _).trans (Cache.final_play settings
        (Cache.consists_storeOutcome settings storing name) coherent)
  | concludeRefresh storing name plan =>
      exact Cache.final_play settings
        (Cache.consists_storeRefreshed settings storing name) coherent
  | concludeMisses storing found misses plan =>
      rw [Operation.action, Cache.final_discard, Cache.concludeMisses,
        Operation.acts, Operation.chores]
      refine Cache.final_play settings (fun outcome => ?_) coherent
      cases outcome with
      | error failure => exact Cache.consists_pure _
      | ok response =>
          exact (Cache.consists_storeResponse settings storing false misses
            response ∅).thenPure _
  | concludeRefreshes storing requests plan =>
      rw [Operation.action, Cache.concludeRefreshes, Operation.acts,
        Operation.chores]
      refine Cache.final_play settings (fun outcome => ?_) coherent
      cases outcome with
      | error failure => exact Cache.consists_pure _
      | ok response =>
          exact (Cache.consists_storeResponse settings storing true requests
            response ∅).discard

/-- How often an operation looks a name up. -/
def Operation.lookups : Operation Value → Nat
  | .act (.quiet (.lookup _)) => 1
  | .getManyBy requests => requests.length
  | .gather requests => requests.length
  | _ => 0

end Operations

/-- Whether an operation is the end of a fetch. -/
def Operation.concludes {Value : Type} : Operation Value → Bool
  | .concludeFlight _ _ _ => true
  | .concludeRefresh _ _ _ => true
  | .concludeMisses _ _ _ _ => true
  | .concludeRefreshes _ _ _ => true
  | _ => false

/-- Whether an act looks a name up. -/
def Act.isLookup {Value : Type} : Act Value → Bool
  | .quiet (.lookup _) => true
  | _ => false

/-- What a task can do after its lookups: it looks again, moves the clock,
routes, writes and deletes. -/
inductive Act.Plain {Value : Type} : Act Value → Prop
  | peek (name : String) : Plain (.quiet (.peek name))
  | advance (duration : Duration) : Plain (.quiet (.advance duration))
  | route (name : String) : Plain (.quiet (.route name))
  | write (draft : Draft Value) : Plain (.write draft)
  | delete (name : String) : Plain (.delete name)

theorem Act.Plain.isLookup_eq {Value : Type} {act : Act Value}
    (plain : act.Plain) : act.isLookup = false := by
  cases plain with
  | _ => rfl

namespace Cache

variable {Value : Type} {settings : Settings}

/-! ## What all chores have in common -/

/-- Whatever the cache is by then, all chores come to acts of a kind. -/
def Throughout (kind : Act Value → Prop) (chores : List (Chore Value)) :
    Prop :=
  ∀ chore ∈ chores, ∀ cache, kind (chore cache)

section Throughout

variable {kind : Act Value → Prop}

theorem throughout_nil : Throughout kind [] :=
  List.forall_mem_nil _

theorem throughout_cons {chore : Chore Value} {chores : List (Chore Value)} :
    Throughout kind (chore :: chores) ↔
      (∀ cache, kind (chore cache)) ∧ Throughout kind chores :=
  List.forall_mem_cons

theorem throughout_singleton {act : Act Value} (holds : kind act) :
    Throughout kind [fun _ => act] :=
  throughout_cons.mpr ⟨fun _ => holds, throughout_nil⟩

theorem Throughout.append {early late : List (Chore Value)}
    (first : Throughout kind early) (second : Throughout kind late) :
    Throughout kind (early ++ late) :=
  List.forall_mem_append.mpr ⟨first, second⟩

theorem Throughout.map {Item : Type} {chore : Item → Chore Value}
    (each : ∀ item cache, kind (chore item cache)) (items : List Item) :
    Throughout kind (items.map chore) := by
  intro found member cache
  obtain ⟨item, _, rfl⟩ := List.mem_map.mp member
  exact each item cache

theorem Throughout.carryOut {chores : List (Chore Value)}
    (throughout : Throughout kind chores) (cache : Cache Value) :
    ∀ act ∈ carryOut settings chores cache, kind act := by
  induction chores generalizing cache with
  | nil => exact List.forall_mem_nil _
  | cons chore chores inductionHypothesis =>
      obtain ⟨first, rest⟩ := throughout_cons.mp throughout
      refine List.forall_mem_cons.mpr ⟨first cache, ?_⟩
      split
      · exact inductionHypothesis rest _
      · exact List.forall_mem_nil _

end Throughout

section Plain

theorem plain_absenceChores (name : String) :
    Throughout Act.Plain (@absenceChores Value settings name) := by
  rw [absenceChores]
  split
  · exact throughout_singleton (.write _)
  · exact throughout_singleton (.delete name)

theorem plain_missingChores (name : String) :
    Throughout Act.Plain (@missingChores Value settings name) := by
  rw [missingChores]
  split
  · exact throughout_singleton (.write _)
  · exact throughout_nil

theorem plain_playChores
    {Response : Type} (plan : Plan Response)
    {deal : Except Failure Response → List (Chore Value)}
    (each : ∀ outcome, Throughout Act.Plain (deal outcome)) :
    Throughout Act.Plain (playChores plan deal) := by
  refine throughout_cons.mpr ⟨fun _ => .advance plan.advance, ?_⟩
  cases plan.ending with
  | returns response => exact each (.ok response)
  | fails failure => exact each (.error failure)
  | breaks text => exact throughout_nil

variable [Keyed Value]

theorem plain_fetchedChores
    (storing : Storing) (name : String) (value : Value) :
    Throughout Act.Plain (fetchedChores storing name value) := by
  cases storing with
  | byName =>
      exact throughout_cons.mpr ⟨fun _ => .route name,
        throughout_cons.mpr ⟨fun _ => .write _, throughout_nil⟩⟩
  | byOwnKey => exact throughout_singleton (.write _)

theorem plain_outcomeChores
    (storing : Storing) (name : String) (refreshing : Bool)
    (outcome : Except Failure Value) :
    Throughout Act.Plain
      (outcomeChores settings storing name refreshing outcome) := by
  unfold outcomeChores
  split
  · exact plain_fetchedChores storing name _
  · split
    · exact plain_absenceChores name
    · exact plain_missingChores name
  · exact throughout_nil

theorem plain_responseChores
    (storing : Storing) (refreshing : Bool) (requests : List Request)
    (response : ExtTreeMap String Value) :
    Throughout Act.Plain
      (responseChores settings storing refreshing requests response) := by
  induction requests generalizing response with
  | nil => exact throughout_nil
  | cons request requests inductionHypothesis =>
      rw [responseChores]
      split
      · exact (plain_fetchedChores storing request.name _).append
          (inductionHypothesis _)
      · refine Throughout.append ?_ (inductionHypothesis _)
        split
        · exact plain_absenceChores request.name
        · exact plain_missingChores request.name

/-- The end of a fetch is made of plain acts. -/
theorem plain_chores
    (cache : Cache Value) {operation : Operation Value}
    (concludes : operation.concludes = true) :
    Throughout Act.Plain (operation.chores settings cache) := by
  cases operation with
  | concludeFlight storing name plan =>
      exact plain_playChores plan (plain_outcomeChores storing name false)
  | concludeRefresh storing name plan =>
      exact plain_playChores plan (plain_outcomeChores storing name true)
  | concludeMisses storing found misses plan =>
      rw [Operation.chores]
      refine plain_playChores plan fun outcome => ?_
      cases outcome with
      | error failure => exact throughout_nil
      | ok response =>
          exact plain_responseChores storing false misses response
  | concludeRefreshes storing requests plan =>
      rw [Operation.chores]
      refine plain_playChores plan fun outcome => ?_
      cases outcome with
      | error failure => exact throughout_nil
      | ok response =>
          exact plain_responseChores storing true requests response
  | _ => cases concludes

theorem plain_acts
    (cache : Cache Value) {operation : Operation Value}
    (concludes : operation.concludes = true) :
    ∀ act ∈ operation.acts settings cache, act.Plain :=
  (plain_chores cache concludes).carryOut cache

end Plain

/-! ## Lookups -/

theorem lookups_ledger (cache : Cache Value) (acts : List (Act Value)) :
    (ledger settings cache acts).lookups = acts.countP Act.isLookup := by
  induction acts generalizing cache with
  | nil => rfl
  | cons act acts inductionHypothesis =>
      rw [ledger, Ledger.add, List.countP_cons, inductionHypothesis,
        Nat.add_comm]
      cases act with
      | quiet silent => cases silent <;> rfl
      | _ => rfl

theorem countP_of_plain {acts : List (Act Value)}
    (plain : ∀ act ∈ acts, act.Plain) : acts.countP Act.isLookup = 0 := by
  rw [List.countP_eq_zero]
  intro act member
  rw [(plain act member).isLookup_eq]
  exact Bool.false_ne_true

/-- A lookup ends in a fault only if the clock cannot be read. -/
theorem returns_lookup
    {cache : Cache Value} (coherent : cache.Coherent) {name : String}
    (legible : answer ((Act.quiet (.lookup name)).action settings) cache ≠
      .error .instantOverflow) :
    returns ((Act.quiet (.lookup name)).action settings) cache = true := by
  obtain ⟨shard, seat⟩ := coherent.seat name
  have counted :=
    ends_iff_answer.mp (ends_lookup_counters settings seat)
  refine (returns_discard _ _).trans ?_
  have readable := answer_discard_ne.mp legible
  rw [returns]
  cases answered : answer (lookup settings name) cache with
  | ok found => rfl
  | error fault =>
      rw [answered] at counted readable
      exact absurd (congrArg Except.error counted) readable

/-- Where the clock can be read, all requests are looked up. -/
theorem countP_carryOut_lookupChores
    {cache : Cache Value} (coherent : cache.Coherent)
    {requests : List Request}
    (legible : Legible settings cache
      (carryOut settings (lookupChores requests) cache)) :
    (carryOut settings (lookupChores requests) cache).countP Act.isLookup =
      requests.length := by
  induction requests generalizing cache with
  | nil => rfl
  | cons request requests inductionHypothesis =>
      rw [lookupChores, List.map_cons, carryOut] at legible ⊢
      have returned := returns_lookup coherent legible.1
      rw [if_pos returned] at legible ⊢
      rw [List.countP_cons_of_pos rfl, List.length_cons]
      exact congrArg (· + 1)
        (inductionHypothesis (coherent.after settings _) legible.2)

section Lookups

variable [Keyed Value]

/-- An operation looks names up as often as it is to. -/
theorem countP_acts
    {cache : Cache Value} (coherent : cache.Coherent)
    {operation : Operation Value}
    (legible : Legible settings cache (operation.acts settings cache)) :
    (operation.acts settings cache).countP Act.isLookup =
      operation.lookups := by
  have nothing : ∀ {chores : List (Chore Value)},
      Throughout (fun act => act.isLookup = false) chores →
        (carryOut settings chores cache).countP Act.isLookup = 0 := by
    intro chores silent
    rw [List.countP_eq_zero]
    intro act member
    rw [silent.carryOut cache act member]
    exact Bool.false_ne_true
  cases operation with
  | act single =>
      rw [Operation.acts, Operation.chores, carryOut, carryOut, ite_self]
      cases single with
      | quiet silent => cases silent <;> rfl
      | _ => rfl
  | writeAll drafts =>
      refine nothing (Throughout.map (fun draft _ => ?_) drafts)
      rfl
  | getManyBy requests =>
      exact countP_carryOut_lookupChores coherent legible
  | keys =>
      refine nothing (Throughout.map (fun index _ => ?_) _)
      rfl
  | gather requests => exact countP_carryOut_lookupChores coherent legible
  | _ => exact countP_of_plain (plain_acts cache rfl)

end Lookups

end Cache

end ReadThrough
