import ReadThrough.Cache.Upkeep
import ReadThrough.Fetch.Store
import ReadThrough.Proofs.Ending

/-!
# Acts and runs

An act is the least that a client, the end of a fetch or the sweeper does to a
cache without anybody else doing something in between: it lets the clock move,
reads, writes, deletes, or sweeps a shard.  `follow` carries out acts one after
the other.  A fault ends the act that met it, and the next act finds the cache
as the fault left it.

Everything else is made of acts.  An `Operation` is whatever a client can ask of
a cache, or what the end of a fetch does to it; `respects_operation_runs` says
that it leaves behind what some run of acts leaves behind.
-/

namespace ReadThrough

open Std (ExtTreeMap)

/-- What a write is given: a key, the value or nothing for a missing record,
and the aliases. -/
structure Draft (Value : Type) where
  key : String
  value : Option Value
  aliases : List String
  deriving DecidableEq, Repr

/-- Acts that store nothing and remove nothing. -/
inductive Quiet where
  | advance (duration : Duration)
  | layDown (readings : List Instant)
  | emptyJournal
  | route (name : String)
  | lookup (name : String)
  | peek (name : String)
  | readShard (index : Nat) (name : String)
  | listShard (index : Nat)
  deriving DecidableEq, Repr

/-- Acts on a cache. -/
inductive Act (Value : Type) where
  | quiet (silent : Quiet)
  | write (draft : Draft Value)
  | delete (name : String)
  | sweep (index : Nat)
  deriving DecidableEq, Repr

namespace Cache

variable {Value Result : Type}

/-- Write a draft. -/
def writeDraft (settings : Settings) (draft : Draft Value) :
    Action Value Bool :=
  write settings draft.key draft.value draft.aliases

end Cache

namespace Quiet

variable {Value : Type}

/-- What a quiet act does to a cache. -/
def action (settings : Settings) : Quiet → Cache.Action Value Unit
  | .advance duration => Cache.advanceClock duration
  | .layDown readings =>
      modify fun cache =>
        { cache with clock := cache.clock.layDown readings }
  | .emptyJournal => modify fun cache => { cache with journal := #[] }
  | .route name => discard (Cache.shardIndex name)
  | .lookup name => discard (Cache.lookup settings name)
  | .peek name => discard (Cache.peek name)
  | .readShard index name => discard (Cache.getFrom settings index name)
  | .listShard index => discard (Cache.keysOf index)

end Quiet

namespace Act

variable {Value : Type}

/-- What an act does to a cache. -/
def action (settings : Settings) : Act Value → Cache.Action Value Unit
  | .quiet silent => silent.action settings
  | .write draft => discard (Cache.writeDraft settings draft)
  | .delete name => discard (Cache.delete name)
  | .sweep index => discard (Cache.sweep index)

end Act

namespace Cache

variable {Value Result : Type} {settings : Settings}

/-- The cache after an act. -/
def after (settings : Settings) (cache : Cache Value) (act : Act Value) :
    Cache Value :=
  final (act.action settings) cache

/-- The cache after acts that are carried out one after the other. -/
def follow
    (settings : Settings) (cache : Cache Value) (acts : List (Act Value)) :
    Cache Value :=
  acts.foldl (after settings) cache

@[simp]
theorem follow_nil (settings : Settings) (cache : Cache Value) :
    follow settings cache [] = cache := rfl

@[simp]
theorem follow_cons
    (settings : Settings) (cache : Cache Value)
    (act : Act Value) (acts : List (Act Value)) :
    follow settings cache (act :: acts) =
      follow settings (after settings cache act) acts := rfl

theorem follow_append
    (settings : Settings) (cache : Cache Value)
    (early late : List (Act Value)) :
    follow settings cache (early ++ late) =
      follow settings (follow settings cache early) late :=
  List.foldl_append

theorem follow_induction
    {holds : Cache Value → Prop} {cache : Cache Value}
    (base : holds cache)
    (step : ∀ (cache : Cache Value) (act : Act Value), holds cache →
      holds (after settings cache act))
    (acts : List (Act Value)) : holds (follow settings cache acts) := by
  induction acts generalizing cache with
  | nil => exact base
  | cons act acts inductionHypothesis =>
      exact inductionHypothesis (step cache act base)

/-- Every act meets a condition when it is carried out. -/
def Each
    (settings : Settings)
    (condition : Settings → Cache Value → Act Value → Prop) :
    Cache Value → List (Act Value) → Prop
  | _, [] => True
  | cache, act :: acts =>
      condition settings cache act ∧
        Each settings condition (after settings cache act) acts

instance decidableEach
    {settings : Settings}
    {condition : Settings → Cache Value → Act Value → Prop}
    [∀ settings cache act, Decidable (condition settings cache act)] :
    (cache : Cache Value) → (acts : List (Act Value)) →
      Decidable (Each settings condition cache acts)
  | _, [] => isTrue trivial
  | cache, act :: acts =>
      have : Decidable (Each settings condition (after settings cache act) acts) :=
        decidableEach (after settings cache act) acts
      inferInstanceAs (Decidable (_ ∧ _))

theorem each_append
    {settings : Settings}
    {condition : Settings → Cache Value → Act Value → Prop}
    {cache : Cache Value} {early late : List (Act Value)} :
    Each settings condition cache (early ++ late) ↔
      Each settings condition cache early ∧
        Each settings condition (follow settings cache early) late := by
  induction early generalizing cache with
  | nil => simp [Each]
  | cons act early inductionHypothesis =>
      rw [List.cons_append, Each, inductionHypothesis, Each, follow_cons,
        and_assoc]

/-! ## Runs -/

/-- Some run of acts leads from one cache to another. -/
def Runs (settings : Settings) (before after : Cache Value) : Prop :=
  ∃ acts, follow settings before acts = after

instance : IsPreorder (Cache Value) (Runs settings) where
  refl _ := ⟨[], rfl⟩
  trans _ _ _ := by
    intro earlier later
    obtain ⟨early, rfl⟩ := earlier
    obtain ⟨late, rfl⟩ := later
    exact ⟨early ++ late, follow_append settings _ early late⟩

theorem respects_act_runs (act : Act Value) :
    Respects (Runs settings) (act.action settings) := fun _ =>
  ends_iff_final.mpr ⟨[act], rfl⟩

theorem respects_runs_of_discard
    {action : Action Value Result} (act : Act Value)
    (same : act.action settings = discard action) :
    Respects (Runs settings) action := by
  intro cache
  refine ends_iff_final.mpr ⟨[act], ?_⟩
  rw [follow_cons, follow_nil, after, same, final_discard]

section Acts

variable (settings)

theorem respects_advanceClock_runs (duration : Duration) :
    Respects (@Runs Value settings) (advanceClock duration) :=
  respects_act_runs (.quiet (.advance duration))

theorem respects_shardIndex_runs (name : String) :
    Respects (@Runs Value settings) (shardIndex name) :=
  respects_runs_of_discard (.quiet (.route name)) rfl

theorem respects_lookup_runs (name : String) :
    Respects (@Runs Value settings) (lookup settings name) :=
  respects_runs_of_discard (.quiet (.lookup name)) rfl

theorem respects_peek_runs (name : String) :
    Respects (@Runs Value settings) (peek name) :=
  respects_runs_of_discard (.quiet (.peek name)) rfl

theorem respects_keysOf_runs (index : Nat) :
    Respects (@Runs Value settings) (keysOf index) :=
  respects_runs_of_discard (.quiet (.listShard index)) rfl

theorem respects_write_runs
    (key : String) (value : Option Value) (aliases : List String) :
    Respects (Runs settings) (write settings key value aliases) :=
  respects_runs_of_discard (.write ⟨key, value, aliases⟩) rfl

theorem respects_delete_runs (name : String) :
    Respects (@Runs Value settings) (delete name) :=
  respects_runs_of_discard (.delete name) rfl

theorem respects_sweep_runs (index : Nat) :
    Respects (@Runs Value settings) (sweep index) :=
  respects_runs_of_discard (.sweep index) rfl

end Acts

/-! ## Batches -/

section Batches

variable (settings)

/-- A batch of writes is its writes one after the other, up to the first that a
fault breaks off. -/
theorem ends_writeAll (cache : Cache Value) (drafts : List (Draft Value)) :
    Ends (writeAll (drafts.map (writeDraft settings))) cache
      (fun _ next => next = follow settings cache (drafts.map .write))
      (fun _ next => ∃ early, early <+: drafts ∧
        next = follow settings cache (early.map .write)) := by
  rw [writeAll]
  rw [List.foldlM_map]
  generalize false = evicted
  induction drafts generalizing cache evicted with
  | nil => exact rfl
  | cons draft drafts inductionHypothesis =>
      have written : Ends (writeDraft settings draft) cache
          (fun _ next => next = after settings cache (.write draft))
          (fun _ next => next = after settings cache (.write draft)) :=
        ends_iff_final.mpr (final_discard _ _).symm
      rw [List.foldlM_cons, ends_bind, ends_bind]
      apply written.weaken
      · intro here next left
        have rest := inductionHypothesis next (here || evicted)
        rw [left] at rest ⊢
        refine rest.weaken (fun _ _ => id) ?_
        intro fault last broken
        obtain ⟨early, isPrefix, same⟩ := broken
        exact ⟨draft :: early, List.cons_prefix_cons.mpr ⟨rfl, isPrefix⟩,
          same⟩
      · intro fault next left
        exact ⟨[draft], by simp, left⟩

theorem respects_writeAll_runs (drafts : List (Draft Value)) :
    Respects (Runs settings)
      (writeAll (drafts.map (writeDraft settings))) := by
  intro cache
  apply (ends_writeAll settings cache drafts).weaken
  · intro _ next same
    exact ⟨drafts.map .write, same.symm⟩
  · intro fault next broken
    obtain ⟨early, _, same⟩ := broken
    exact ⟨early.map .write, same.symm⟩

theorem respects_getManyBy_runs (requests : List Request) :
    Respects (@Runs Value settings) (getManyBy settings requests) := by
  refine respects_foldlM (fun values request => ?_) requests ∅
  refine Respects.bind ?_ fun value => ?_
  · exact (respects_lookup_runs settings request.name).bind fun _ =>
      respects_pure _
  · cases value with
    | none => exact respects_pure _
    | some value => exact respects_pure _

theorem respects_keys_runs :
    Respects (@Runs Value settings) keys :=
  respects_get.bind fun _ =>
    respects_foldlM
      (fun _ index => (respects_keysOf_runs settings index).bind fun _ =>
        respects_pure _) _ _

/-- To gather is to look names up. -/
theorem respects_gather
    {relation : Cache Value → Cache Value → Prop}
    [IsPreorder (Cache Value) relation]
    (looks : ∀ name, Respects relation (lookup settings name))
    (requests : List Request) (gathered : Gathered Value) :
    Respects relation (gather settings requests gathered) := by
  induction requests generalizing gathered with
  | nil => exact respects_pure gathered
  | cons request requests inductionHypothesis =>
      exact (looks request.name).bind fun _ => inductionHypothesis _

end Batches

/-! ## The end of a fetch -/

section Fetches

variable (settings)

theorem respects_play_runs {Response : Type} (plan : Plan Response) :
    Respects (@Runs Value settings) plan.play := by
  refine (respects_advanceClock_runs settings plan.advance).bind fun _ => ?_
  cases plan.ending with
  | returns result => exact respects_pure _
  | fails failure => exact respects_pure _
  | breaks text => exact respects_throw _

theorem respects_insertMissing_runs (name : String) :
    Respects (@Runs Value settings) (insertMissing settings name) :=
  respects_write_runs settings name none []

theorem respects_storeAbsence_runs (name : String) :
    Respects (@Runs Value settings) (storeAbsence settings name) :=
  (respects_insertMissing_runs settings name).discard.ite
    (respects_delete_runs settings name).discard

variable [Keyed Value]

theorem respects_storeFetched_runs
    (storing : Storing) (name : String) (value : Value) :
    Respects (Runs settings) (storeFetched settings storing name value) := by
  cases storing with
  | byName =>
      apply Respects.discard
      refine (respects_shardIndex_runs settings name).bind fun index => ?_
      refine (respects_shardAt index).bind fun shard => ?_
      exact respects_write_runs settings _ _ _
  | byOwnKey => exact (respects_write_runs settings _ _ _).discard

theorem respects_storeOutcome_runs
    (storing : Storing) (name : String) (outcome : Except Failure Value) :
    Respects (Runs settings)
      (storeOutcome settings storing name outcome) := by
  unfold storeOutcome
  split
  · exact (respects_storeFetched_runs settings storing name _).bind
      fun _ => respects_pure _
  · exact ((respects_insertMissing_runs settings name).discard.bind
      fun _ => respects_pure _).ite (respects_pure _)
  · exact respects_pure _

theorem respects_storeRefreshed_runs
    (storing : Storing) (name : String) (outcome : Except Failure Value) :
    Respects (Runs settings)
      (storeRefreshed settings storing name outcome) := by
  unfold storeRefreshed
  split
  · exact respects_storeFetched_runs settings storing name _
  · exact respects_storeAbsence_runs settings name
  · exact respects_pure _

theorem respects_storeResponse_runs
    (storing : Storing) (refreshing : Bool) (requests : List Request)
    (response used : ExtTreeMap String Value) :
    Respects (Runs settings)
      (storeResponse settings storing refreshing requests response
        used) := by
  induction requests generalizing response used with
  | nil => exact respects_pure used
  | cons request requests inductionHypothesis =>
      rw [storeResponse]
      split
      · exact (respects_storeFetched_runs settings storing request.name
          _).bind fun _ => inductionHypothesis _ _
      · have goOn : ∀ _ : PUnit, Respects (Runs settings)
            (storeResponse settings storing refreshing requests response
              used) := fun _ => inductionHypothesis _ _
        refine Respects.ite ?_ (Respects.ite ?_ (goOn ⟨⟩))
        · exact (respects_storeAbsence_runs settings request.name).bind goOn
        · exact (respects_insertMissing_runs settings
            request.name).discard.bind goOn

theorem respects_concludeFlight_runs
    (storing : Storing) (name : String) (plan : Plan Value) :
    Respects (Runs settings)
      (concludeFlight settings storing name plan) :=
  (respects_play_runs settings plan).bind fun outcome =>
    respects_storeOutcome_runs settings storing name outcome

theorem respects_concludeRefresh_runs
    (storing : Storing) (name : String) (plan : Plan Value) :
    Respects (Runs settings)
      (concludeRefresh settings storing name plan) :=
  (respects_play_runs settings plan).bind fun outcome =>
    respects_storeRefreshed_runs settings storing name outcome

theorem respects_concludeMisses_runs
    (storing : Storing) (found : ExtTreeMap String Value)
    (misses : List Request) (plan : Plan (ExtTreeMap String Value)) :
    Respects (Runs settings)
      (concludeMisses settings storing found misses plan) := by
  refine (respects_play_runs settings plan).bind fun outcome => ?_
  cases outcome with
  | error failure => exact respects_pure _
  | ok response =>
      exact (respects_storeResponse_runs settings storing false misses
        response ∅).bind fun _ => respects_pure _

theorem respects_concludeRefreshes_runs
    (storing : Storing) (requests : List Request)
    (plan : Plan (ExtTreeMap String Value)) :
    Respects (Runs settings)
      (concludeRefreshes settings storing requests plan) := by
  refine (respects_play_runs settings plan).bind fun outcome => ?_
  cases outcome with
  | error failure => exact respects_pure _
  | ok response =>
      exact (respects_storeResponse_runs settings storing true requests
        response ∅).discard

end Fetches

end Cache

/-! ## Operations -/

/-- What a client can ask of a cache, and what the end of a fetch does to
it. -/
inductive Operation (Value : Type) where
  | act (single : Act Value)
  | writeAll (drafts : List (Draft Value))
  | getManyBy (requests : List Request)
  | keys
  | gather (requests : List Request)
  | concludeFlight (storing : Storing) (name : String) (plan : Plan Value)
  | concludeRefresh (storing : Storing) (name : String) (plan : Plan Value)
  | concludeMisses
      (storing : Storing) (found : ExtTreeMap String Value)
      (misses : List Request) (plan : Plan (ExtTreeMap String Value))
  | concludeRefreshes
      (storing : Storing) (requests : List Request)
      (plan : Plan (ExtTreeMap String Value))

/-- What an operation does to a cache. -/
def Operation.action {Value : Type} [Keyed Value] (settings : Settings) :
    Operation Value → Cache.Action Value Unit
  | .act single => single.action settings
  | .writeAll drafts =>
      discard (Cache.writeAll (drafts.map (Cache.writeDraft settings)))
  | .getManyBy requests => discard (Cache.getManyBy settings requests)
  | .keys => discard Cache.keys
  | .gather requests =>
      discard (Cache.gather settings requests
        { found := ∅, refreshes := [], misses := [] })
  | .concludeFlight storing name plan =>
      discard (Cache.concludeFlight settings storing name plan)
  | .concludeRefresh storing name plan =>
      Cache.concludeRefresh settings storing name plan
  | .concludeMisses storing found misses plan =>
      discard (Cache.concludeMisses settings storing found misses plan)
  | .concludeRefreshes storing requests plan =>
      Cache.concludeRefreshes settings storing requests plan

namespace Cache

variable {Value : Type} [Keyed Value]

/-- An operation leaves behind what a run of acts leaves behind. -/
theorem respects_operation_runs
    (settings : Settings) (operation : Operation Value) :
    Respects (Runs settings) (operation.action settings) := by
  cases operation with
  | act single => exact respects_act_runs single
  | writeAll drafts => exact (respects_writeAll_runs settings drafts).discard
  | getManyBy requests =>
      exact (respects_getManyBy_runs settings requests).discard
  | keys => exact (respects_keys_runs settings).discard
  | gather requests =>
      exact (respects_gather settings (respects_lookup_runs settings)
        requests _).discard
  | concludeFlight storing name plan =>
      exact (respects_concludeFlight_runs settings storing name plan).discard
  | concludeRefresh storing name plan =>
      exact respects_concludeRefresh_runs settings storing name plan
  | concludeMisses storing found misses plan =>
      exact (respects_concludeMisses_runs settings storing found misses
        plan).discard
  | concludeRefreshes storing requests plan =>
      exact respects_concludeRefreshes_runs settings storing requests plan

/-- The cache after operations that are carried out one after the other. -/
def operate
    (settings : Settings) (cache : Cache Value)
    (operations : List (Operation Value)) : Cache Value :=
  operations.foldl
    (fun cache operation => final (operation.action settings) cache) cache

theorem operate_append
    (settings : Settings) (cache : Cache Value)
    (early late : List (Operation Value)) :
    operate settings cache (early ++ late) =
      operate settings (operate settings cache early) late :=
  List.foldl_append

theorem runs_operate
    (settings : Settings) (cache : Cache Value)
    (operations : List (Operation Value)) :
    Runs settings cache (operate settings cache operations) := by
  induction operations generalizing cache with
  | nil => exact refl_of (Runs settings) cache
  | cons operation operations inductionHypothesis =>
      exact trans_of (Runs settings)
        (respects_final (respects_operation_runs settings operation) cache)
        (inductionHypothesis _)

end Cache

end ReadThrough
