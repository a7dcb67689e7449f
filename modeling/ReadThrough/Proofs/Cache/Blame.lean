import ReadThrough.Proofs.Cache.Chores

/-!
# Which act is to blame

An operation that a fault breaks off passes on the fault of the last act that it
carried out.  `Replays` says so of an action and its chores, in addition to what
`Consists` says, and is closed under what operations are made of.

`fault?_operation` reads it off for whole operations whose fetch does not break
off itself.
-/

namespace ReadThrough

open Std (ExtTreeMap)

namespace Cache

variable {Value Result Other : Type}

/-- The fault that an action ends in, if it does. -/
def fault? (action : Action Value Result) (cache : Cache Value) :
    Option Fault :=
  match answer action cache with
  | .ok _ => none
  | .error fault => some fault

theorem fault?_eq_some_iff
    {action : Action Value Result} {cache : Cache Value} {fault : Fault} :
    fault? action cache = some fault ↔ answer action cache = .error fault := by
  rw [fault?]
  cases answer action cache with
  | ok result => simp
  | error found => simp

theorem fault?_eq_iff_ends
    {action : Action Value Result} {cache : Cache Value}
    {found : Option Fault} :
    fault? action cache = found ↔
      Ends action cache (fun _ _ => found = none)
        (fun fault _ => found = some fault) := by
  rw [ends_iff_answer, fault?]
  cases answer action cache with
  | ok result => exact eq_comm
  | error fault => exact eq_comm

theorem fault?_discard (action : Action Value Result) (cache : Cache Value) :
    fault? (discard action) cache = fault? action cache := by
  rw [fault?, fault?, show discard action = (fun _ => ()) <$> action from rfl,
    answer_map]
  cases answer action cache with
  | ok result => rfl
  | error fault => rfl

/-- The fault that chores end in, if they do. -/
def faultOf (settings : Settings) :
    List (Chore Value) → Cache Value → Option Fault
  | [], _ => none
  | chore :: chores, cache =>
      match fault? ((chore cache).action settings) cache with
      | some fault => some fault
      | none => faultOf settings chores (after settings cache (chore cache))

section Chores

variable {settings : Settings}

theorem returns_eq_isNone (action : Action Value Result)
    (cache : Cache Value) :
    returns action cache = (fault? action cache).isNone := by
  rw [returns, fault?]
  cases answer action cache with
  | ok result => rfl
  | error fault => rfl

/-- Chores are completed exactly if they end in no fault. -/
theorem completes_eq_isNone (chores : List (Chore Value))
    (cache : Cache Value) :
    completes settings chores cache =
      (faultOf settings chores cache).isNone := by
  induction chores generalizing cache with
  | nil => rfl
  | cons chore chores inductionHypothesis =>
      rw [completes, faultOf, returns_eq_isNone]
      cases fault? ((chore cache).action settings) cache with
      | some fault => rfl
      | none => exact inductionHypothesis _

theorem faultOf_append
    (early late : List (Chore Value)) (cache : Cache Value) :
    faultOf settings (early ++ late) cache =
      match faultOf settings early cache with
      | some fault => some fault
      | none =>
          faultOf settings late
            (follow settings cache (carryOut settings early cache)) := by
  induction early generalizing cache with
  | nil => rfl
  | cons chore early inductionHypothesis =>
      rw [List.cons_append, faultOf, faultOf, carryOut, returns_eq_isNone]
      cases fault? ((chore cache).action settings) cache with
      | some fault => rfl
      | none => exact inductionHypothesis _

/-- The act to blame is the last that was carried out. -/
theorem exists_act_of_faultOf
    {chores : List (Chore Value)} {cache : Cache Value} {fault : Fault}
    (broken : faultOf settings chores cache = some fault) :
    ∃ early act, carryOut settings chores cache = early ++ [act] ∧
      answer (act.action settings) (follow settings cache early) =
        .error fault := by
  induction chores generalizing cache with
  | nil => cases broken
  | cons chore chores inductionHypothesis =>
      rw [faultOf] at broken
      rw [carryOut, returns_eq_isNone]
      cases first : fault? ((chore cache).action settings) cache with
      | some found =>
          rw [first] at broken
          cases broken
          exact ⟨[], chore cache, rfl, fault?_eq_some_iff.mp first⟩
      | none =>
          rw [first] at broken
          obtain ⟨early, act, carried, blamed⟩ := inductionHypothesis broken
          refine ⟨chore cache :: early, act, ?_, blamed⟩
          rw [carried]
          rfl

/-- To do an action to a coherent cache is to carry out chores, up to the fault
that it ends in. -/
structure Replays
    (settings : Settings) (action : Action Value Result)
    (chores : List (Chore Value)) : Prop
    extends Consists settings action chores where
  faults : ∀ {cache : Cache Value}, cache.Coherent →
    fault? action cache = faultOf settings chores cache

theorem replays_pure (result : Result) :
    Replays settings (pure result : Action Value Result) [] :=
  ⟨consists_pure result, fun _ => rfl⟩

theorem Replays.bind
    {first : Action Value Other} {second : Other → Action Value Result}
    {early late : List (Chore Value)}
    (head : Replays settings first early)
    (tail : ∀ result, Replays settings (second result) late) :
    Replays settings (first >>= second) (early ++ late) := by
  refine ⟨head.toConsists.bind fun result => (tail result).toConsists,
    fun {cache} coherent => ?_⟩
  have left := head.leaves coherent
  have next : (final first cache).Coherent :=
    left ▸ coherent.follow settings _
  rw [faultOf_append, ← left, ← head.faults coherent, fault?, fault?,
    answer_bind]
  cases answer first cache with
  | error fault => rfl
  | ok result => exact (tail result).faults next

theorem Replays.discard
    {action : Action Value Result} {chores : List (Chore Value)}
    (replays : Replays settings action chores) :
    Replays settings (discard action) chores :=
  ⟨replays.toConsists.discard, fun coherent =>
    (fault?_discard action _).trans (replays.faults coherent)⟩

theorem Replays.thenPure
    {action : Action Value Other} {chores : List (Chore Value)}
    (replays : Replays settings action chores) (result : Other → Result) :
    Replays settings (action >>= fun found => pure (result found))
      chores := by
  have appended := replays.bind fun found =>
    replays_pure (result found)
  rwa [List.append_nil] at appended

theorem replays_act (act : Act Value) :
    Replays settings (act.action settings) [fun _ => act] := by
  refine ⟨consists_act act, fun {cache} _ => ?_⟩
  rw [faultOf]
  cases fault? (act.action settings) cache with
  | some fault => rfl
  | none => rfl

theorem replays_of_discard
    {action : Action Value Result} (act : Act Value)
    (same : act.action settings = Functor.discard action) :
    Replays settings action [fun _ => act] := by
  have replays := same ▸ replays_act act
  exact ⟨consists_of_discard act same, fun coherent =>
    (fault?_discard action _).symm.trans (replays.faults coherent)⟩

end Chores

/-! ## The parts of operations -/

section Parts

variable (settings : Settings)

theorem replays_foldlM
    {Item : Type} {round : Result → Item → Action Value Result}
    {chore : Item → Chore Value}
    (each : ∀ result item,
      Replays settings (round result item) [chore item])
    (items : List Item) (result : Result) :
    Replays settings (items.foldlM round result) (items.map chore) := by
  induction items generalizing result with
  | nil => exact replays_pure result
  | cons item items inductionHypothesis =>
      rw [List.foldlM_cons]
      exact (each result item).bind fun result => inductionHypothesis result

theorem replays_lookup (name : String) :
    Replays settings (@lookup Value settings name)
      [fun _ => .quiet (.lookup name)] :=
  replays_of_discard (.quiet (.lookup name)) rfl

theorem replays_write
    (key : String) (value : Option Value) (aliases : List String) :
    Replays settings (write settings key value aliases)
      [fun _ => .write ⟨key, value, aliases⟩] :=
  replays_of_discard (.write ⟨key, value, aliases⟩) rfl

theorem replays_writeAll (drafts : List (Draft Value)) :
    Replays settings (writeAll (drafts.map (writeDraft settings)))
      (drafts.map fun draft _ => .write draft) := by
  rw [writeAll, List.foldlM_map]
  exact replays_foldlM settings
    (fun evicted draft => (replays_write settings draft.key draft.value
      draft.aliases).thenPure fun _ => _) drafts false

theorem replays_getManyBy (requests : List Request) :
    Replays settings (@getManyBy Value settings requests)
      (lookupChores requests) := by
  refine replays_foldlM settings (fun values request => ?_) requests ∅
  have looked := (replays_lookup settings request.name).bind
    fun found : Lookup Value => replays_pure found.value?
  refine looked.bind fun value => ?_
  cases value with
  | none => exact replays_pure _
  | some value => exact replays_pure _

theorem replays_keys (count : Nat) :
    Replays settings
      ((List.range count).foldlM
        (fun found index => return found ++ (← @keysOf Value index)) [])
      ((List.range count).map fun index _ => .quiet (.listShard index)) :=
  replays_foldlM settings (fun _ index =>
    (replays_of_discard (.quiet (.listShard index)) rfl).thenPure _) _ _

theorem replays_gather
    (requests : List Request) (gathered : Gathered Value) :
    Replays settings (gather settings requests gathered)
      (lookupChores requests) := by
  induction requests generalizing gathered with
  | nil => exact replays_pure gathered
  | cons request requests inductionHypothesis =>
      exact (replays_lookup settings request.name).bind fun _ =>
        inductionHypothesis _

theorem replays_insertMissing (name : String) :
    Replays settings (discard (@insertMissing Value settings name))
      [fun _ => .write ⟨name, none, []⟩] :=
  (replays_write settings name none []).discard

theorem replays_storeAbsence (name : String) :
    Replays settings (@storeAbsence Value settings name)
      (absenceChores settings name) := by
  rw [storeAbsence, absenceChores]
  split
  · exact replays_insertMissing settings name
  · exact (replays_of_discard (.delete name) rfl).discard

variable [Keyed Value]

theorem replays_storeFetched
    (storing : Storing) (name : String) (value : Value) :
    Replays settings (storeFetched settings storing name value)
      (fetchedChores storing name value) := by
  refine ⟨consists_storeFetched settings storing name value,
    fun {cache} coherent => ?_⟩
  cases storing with
  | byOwnKey => exact (replays_write settings _ _ _).discard.faults coherent
  | byName =>
      obtain ⟨routed, left⟩ := route_act settings coherent name
      rw [returns_eq_isNone, Option.isNone_iff_eq_none] at routed
      rw [fetchedChores, faultOf, routed, left, storeFetched, fault?_discard,
        fault?_eq_iff_ends, ends_storeByName coherent, ← fault?_eq_iff_ends]
      have noted : (cache.noted (.routed (cache.route name))).Coherent :=
        coherent.of_eq rfl rfl
      exact (fault?_discard _ _).symm.trans
        ((replays_act (.write ((Writing.fetched .byName name value).draft
          (cache.noted (.routed (cache.route name)))))).faults noted)

theorem replays_storeOutcome
    (storing : Storing) (name : String) (outcome : Except Failure Value) :
    Replays settings (storeOutcome settings storing name outcome)
      (outcomeChores settings storing name false outcome) := by
  unfold storeOutcome outcomeChores
  cases outcome with
  | ok value =>
      exact (replays_storeFetched settings storing name value).thenPure _
  | error failure =>
      cases failure with
      | notFound source =>
          dsimp only
          rw [if_neg Bool.false_ne_true, missingChores]
          split
          · exact (replays_insertMissing settings name).thenPure _
          · exact replays_pure _
      | _ => exact replays_pure _

theorem replays_storeRefreshed
    (storing : Storing) (name : String) (outcome : Except Failure Value) :
    Replays settings (storeRefreshed settings storing name outcome)
      (outcomeChores settings storing name true outcome) := by
  unfold storeRefreshed outcomeChores
  cases outcome with
  | ok value => exact replays_storeFetched settings storing name value
  | error failure =>
      cases failure with
      | notFound source => exact replays_storeAbsence settings name
      | _ => exact replays_pure _

theorem replays_storeResponse
    (storing : Storing) (refreshing : Bool) (requests : List Request)
    (response used : ExtTreeMap String Value) :
    Replays settings
      (storeResponse settings storing refreshing requests response used)
      (responseChores settings storing refreshing requests response) := by
  induction requests generalizing response used with
  | nil => exact replays_pure used
  | cons request requests inductionHypothesis =>
      rw [storeResponse, responseChores]
      cases response[request.label]? with
      | some value =>
          exact (replays_storeFetched settings storing request.name
            value).bind fun _ => inductionHypothesis _ _
      | none =>
          dsimp only
          have goOn : ∀ _ : PUnit, Replays settings
              (storeResponse settings storing refreshing requests response
                used)
              (responseChores settings storing refreshing requests
                response) := fun _ => inductionHypothesis _ _
          by_cases refreshes : refreshing = true
          · rw [if_pos refreshes, if_pos refreshes]
            exact (replays_storeAbsence settings request.name).bind goOn
          · rw [if_neg refreshes, if_neg refreshes, missingChores]
            split
            · exact (replays_insertMissing settings
                request.name).bind goOn
            · exact goOn ⟨⟩

end Parts

end Cache

/-! ## Whole operations -/

/-- A fetch that does not break off itself. -/
def Plan.Unbroken {Response : Type} (plan : Plan Response) : Prop :=
  ∀ text, plan.ending ≠ .breaks text

namespace Cache

variable {Value Result : Type} {settings : Settings}

/-- The end of a fetch that does not break off itself ends in the fault of its
chores, if in any. -/
theorem fault?_play
    {Response : Type} {plan : Plan Response} (unbroken : plan.Unbroken)
    {deal : Except Failure Response → Action Value Result}
    {chores : Except Failure Response → List (Chore Value)}
    (each : ∀ outcome, Replays settings (deal outcome) (chores outcome))
    {cache : Cache Value} (coherent : cache.Coherent) :
    fault? (plan.play >>= deal) cache =
      faultOf settings (playChores plan chores) cache := by
  have moved : Replays settings (advanceClock plan.advance)
      [fun _ => (.quiet (.advance plan.advance) : Act Value)] :=
    replays_act (.quiet (.advance plan.advance))
  have left := moved.leaves coherent
  have next : (final (advanceClock plan.advance) cache).Coherent :=
    left ▸ coherent.follow settings _
  rw [playChores, ← List.singleton_append, faultOf_append, ← left,
    ← moved.faults coherent, fault?, fault?, answer_bind, Plan.play,
    answer_bind, final_bind]
  cases answer (advanceClock plan.advance) cache with
  | error fault => rfl
  | ok _ =>
      cases ends : plan.ending with
      | returns response => exact (each (.ok response)).faults next
      | fails failure => exact (each (.error failure)).faults next
      | breaks text => exact absurd ends (unbroken text)

end Cache

/-- An operation whose fetch, if it is the end of one, does not break off. -/
def Operation.Unbroken {Value : Type} : Operation Value → Prop
  | .concludeFlight _ _ plan => plan.Unbroken
  | .concludeRefresh _ _ plan => plan.Unbroken
  | .concludeMisses _ _ _ plan => plan.Unbroken
  | .concludeRefreshes _ _ plan => plan.Unbroken
  | _ => True

/-- An operation ends in the fault of its chores, if in any. -/
theorem Cache.fault?_operation
    {Value : Type} [Keyed Value] {settings : Settings} {cache : Cache Value}
    (coherent : cache.Coherent) {operation : Operation Value}
    (unbroken : operation.Unbroken) :
    Cache.fault? (operation.action settings) cache =
      Cache.faultOf settings (operation.chores settings cache) cache := by
  cases operation with
  | act single => exact (Cache.replays_act single).faults coherent
  | writeAll drafts =>
      exact (Cache.replays_writeAll settings drafts).discard.faults coherent
  | getManyBy requests =>
      exact (Cache.replays_getManyBy settings requests).discard.faults coherent
  | keys =>
      exact (Cache.fault?_discard _ _).trans
        ((Cache.replays_keys settings cache.shards.size).faults coherent)
  | gather requests =>
      exact (Cache.replays_gather settings requests _).discard.faults coherent
  | concludeFlight storing name plan =>
      exact (Cache.fault?_discard _ _).trans (Cache.fault?_play unbroken
        (Cache.replays_storeOutcome settings storing name) coherent)
  | concludeRefresh storing name plan =>
      exact Cache.fault?_play unbroken
        (Cache.replays_storeRefreshed settings storing name) coherent
  | concludeMisses storing found misses plan =>
      rw [Operation.action, Cache.fault?_discard, Cache.concludeMisses,
        Operation.chores]
      refine Cache.fault?_play unbroken (fun outcome => ?_) coherent
      cases outcome with
      | error failure => exact Cache.replays_pure _
      | ok response =>
          exact (Cache.replays_storeResponse settings storing false misses
            response ∅).thenPure _
  | concludeRefreshes storing requests plan =>
      rw [Operation.action, Cache.concludeRefreshes, Operation.chores]
      refine Cache.fault?_play unbroken (fun outcome => ?_) coherent
      cases outcome with
      | error failure => exact Cache.replays_pure _
      | ok response =>
          exact (Cache.replays_storeResponse settings storing true requests
            response ∅).discard

/-- An operation returns if all its chores do. -/
theorem Cache.returns_operation
    {Value : Type} [Keyed Value] {settings : Settings} {cache : Cache Value}
    (coherent : cache.Coherent) {operation : Operation Value}
    (unbroken : operation.Unbroken) :
    Cache.returns (operation.action settings) cache =
      Cache.completes settings (operation.chores settings cache) cache := by
  rw [Cache.completes_eq_isNone, ← Cache.fault?_operation coherent unbroken,
    ← Cache.returns_eq_isNone]

end ReadThrough
