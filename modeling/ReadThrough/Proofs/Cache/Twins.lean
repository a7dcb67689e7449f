import ReadThrough.Proofs.Cache.Acts
import ReadThrough.Proofs.Cache.Writing

/-!
# Caches that answer alike

No answer depends on the journal, and where there is only one shard none depends
on what has been registered there.  Caches that differ in nothing else are
`Twins`.

An action `Agrees` on twins when it ends the same way from both and leaves twins
behind.  Every act does, so twins answer alike whatever has been done to them.
-/

namespace ReadThrough.Cache

open Std (ExtTreeMap)

variable {Value Result Other : Type}

/-- Caches with a number of shards that agree on everything except the journal,
and on the routes unless all of these lead to an only shard. -/
structure Twins (count : Nat) (left right : Cache Value) : Prop where
  size : left.shards.size = count
  shards : right.shards = left.shards
  counters : right.counters = left.counters
  clock : right.clock = left.clock
  routes : count ≠ 1 → right.routes = left.routes
  home : count = 1 → ∀ (name : String) (index : Nat),
    left.routes[name]? = some index ∨ right.routes[name]? = some index →
      index = 0

/-- Two ends of an action are the same, and the caches left behind are twins. -/
inductive TwinEnds (count : Nat) :
    EStateM.Result Fault (Cache Value) Result →
      EStateM.Result Fault (Cache Value) Result → Prop
  | returned {result : Result} {left right : Cache Value}
      (twins : Twins count left right) :
      TwinEnds count (.ok result left) (.ok result right)
  | broke {fault : Fault} {left right : Cache Value}
      (twins : Twins count left right) :
      TwinEnds count (.error fault left) (.error fault right)

/-- An action ends the same way from twins. -/
def Agrees (count : Nat) (action : Action Value Result) : Prop :=
  ∀ left right, Twins count left right →
    TwinEnds count (action.run left) (action.run right)

/-- What an action answers: its result, or the fault that it ended in. -/
def answer (action : Action Value Result) (cache : Cache Value) :
    Except Fault Result :=
  match action.run cache with
  | .ok result _ => .ok result
  | .error fault _ => .error fault

theorem run_of_answer
    {action : Action Value Result} {cache : Cache Value} {fault : Fault}
    (answered : answer action cache = .error fault) :
    action.run cache = .error fault (final action cache) := by
  rw [answer] at answered
  rw [final]
  cases run : action.run cache with
  | ok result next =>
      rw [run] at answered
      cases answered
  | error found next =>
      rw [run] at answered
      cases answered
      rfl

variable {count : Nat}

theorem Agrees.answer_eq
    {action : Action Value Result} (agrees : Agrees count action)
    {left right : Cache Value} (twins : Twins count left right) :
    answer action right = answer action left := by
  have ends := agrees left right twins
  unfold answer
  generalize action.run left = leftEnd at ends ⊢
  generalize action.run right = rightEnd at ends ⊢
  cases ends with
  | returned twins => rfl
  | broke twins => rfl

theorem Agrees.twins_final
    {action : Action Value Result} (agrees : Agrees count action)
    {left right : Cache Value} (twins : Twins count left right) :
    Twins count (final action left) (final action right) := by
  have ends := agrees left right twins
  unfold final
  generalize action.run left = leftEnd at ends ⊢
  generalize action.run right = rightEnd at ends ⊢
  cases ends with
  | returned twins => exact twins
  | broke twins => exact twins

theorem twinEnds_of_ends
    {action : Action Value Result} {left right : Cache Value}
    (ends : Ends action left
      (fun result next => Ends action right
        (fun other after => other = result ∧ Twins count next after)
        (fun _ _ => False))
      (fun fault next => Ends action right (fun _ _ => False)
        (fun other after => other = fault ∧ Twins count next after))) :
    TwinEnds count (action.run left) (action.run right) := by
  unfold Ends at ends
  generalize action.run left = leftEnd at ends ⊢
  generalize action.run right = rightEnd at ends ⊢
  cases leftEnd with
  | ok result next =>
      cases rightEnd with
      | ok other after =>
          obtain ⟨rfl, twins⟩ := ends
          exact .returned twins
      | error fault after => exact ends.elim
  | error fault next =>
      cases rightEnd with
      | ok other after => exact ends.elim
      | error other after =>
          obtain ⟨rfl, twins⟩ := ends
          exact .broke twins

/-! ## Combining actions -/

theorem agrees_pure (result : Result) :
    Agrees count (pure result : Action Value Result) := fun _ _ twins =>
  .returned twins

theorem agrees_throw (fault : Fault) :
    Agrees count (throw fault : Action Value Result) := fun _ _ twins =>
  .broke twins

theorem TwinEnds.bind
    {first : Action Value Other} {second : Other → Action Value Result}
    {left right : Cache Value}
    (head : TwinEnds count (first.run left) (first.run right))
    (tail : ∀ result next after, first.run left = .ok result next →
      Twins count next after →
        TwinEnds count ((second result).run next)
          ((second result).run after)) :
    TwinEnds count ((first >>= second).run left)
      ((first >>= second).run right) := by
  simp only [EStateM.run, Bind.bind, EStateM.bind] at head tail ⊢
  generalize first left = leftEnd at head tail ⊢
  generalize first right = rightEnd at head ⊢
  cases head with
  | returned twins => exact tail _ _ _ rfl twins
  | broke twins => exact .broke twins

theorem Agrees.bind
    {first : Action Value Other} {second : Other → Action Value Result}
    (head : Agrees count first) (tail : ∀ result, Agrees count (second result)) :
    Agrees count (first >>= second) := fun left right twins =>
  (head left right twins).bind fun result next after _ still =>
    tail result next after still

/-- What an action does after looking at the whole cache. -/
theorem agrees_get_bind
    {rest : Cache Value → Action Value Result}
    (same : ∀ left right, Twins count left right →
      TwinEnds count ((rest left).run left) ((rest right).run right)) :
    Agrees count (get >>= rest) :=
  same

theorem Agrees.discard
    {action : Action Value Result} (agrees : Agrees count action) :
    Agrees count (discard action) :=
  agrees.bind fun _ => agrees_pure PUnit.unit

theorem Agrees.ite
    {condition : Prop} [Decidable condition]
    {accepted refused : Action Value Result}
    (onAccepted : Agrees count accepted) (onRefused : Agrees count refused) :
    Agrees count (if condition then accepted else refused) := by
  split
  · exact onAccepted
  · exact onRefused

theorem agrees_foldlM
    {Item : Type} {round : Result → Item → Action Value Result}
    (agrees : ∀ result item, Agrees count (round result item))
    (items : List Item) (result : Result) :
    Agrees count (items.foldlM round result) := by
  induction items generalizing result with
  | nil => exact agrees_pure result
  | cons item rest inductionHypothesis =>
      rw [List.foldlM_cons]
      exact (agrees result item).bind inductionHypothesis

theorem agrees_forM
    {Item : Type} {round : Item → Action Value PUnit}
    (agrees : ∀ item, Agrees count (round item)) (items : List Item) :
    Agrees count (items.forM round) := by
  induction items with
  | nil => exact agrees_pure PUnit.unit
  | cons item rest inductionHypothesis =>
      exact (agrees item).bind fun _ => inductionHypothesis

/-! ## Elementary actions -/

/-- A change that leaves the shards and the routes alone keeps twins. -/
theorem Twins.of_eq
    {left right leftNext rightNext : Cache Value}
    (twins : Twins count left right)
    (leftShards : leftNext.shards = left.shards)
    (rightShards : rightNext.shards = right.shards)
    (leftRoutes : leftNext.routes = left.routes)
    (rightRoutes : rightNext.routes = right.routes)
    (counters : rightNext.counters = leftNext.counters)
    (clock : rightNext.clock = leftNext.clock) :
    Twins count leftNext rightNext where
  size := by rw [leftShards, twins.size]
  shards := by rw [leftShards, rightShards, twins.shards]
  counters := counters
  clock := clock
  routes := by
    rw [leftRoutes, rightRoutes]
    exact twins.routes
  home := by
    rw [leftRoutes, rightRoutes]
    exact twins.home

theorem Twins.noted
    {left right : Cache Value} (twins : Twins count left right)
    (event : Event) :
    Twins count (left.noted event) (right.noted event) :=
  twins.of_eq rfl rfl rfl rfl
    (congrArg (·.count event) twins.counters) twins.clock

theorem Twins.withClock
    {left right : Cache Value} (twins : Twins count left right)
    (clock : Clock) :
    Twins count (left.withClock clock) (right.withClock clock) :=
  twins.of_eq rfl rfl rfl rfl twins.counters rfl

theorem agrees_record (event : Event) :
    Agrees count (record event : Action Value Unit) := fun _ _ twins =>
  .returned (twins.noted event)

theorem agrees_emptyJournal :
    Agrees count (modify fun cache => { cache with journal := #[] } :
      Action Value Unit) := fun _ _ twins =>
  .returned (twins.of_eq rfl rfl rfl rfl twins.counters twins.clock)

theorem agrees_layDown (readings : List Instant) :
    Agrees count (modify fun cache =>
      { cache with clock := cache.clock.layDown readings } :
        Action Value Unit) := fun _ _ twins =>
  .returned (twins.of_eq rfl rfl rfl rfl twins.counters
    (congrArg (·.layDown readings) twins.clock))

theorem agrees_readClock :
    Agrees count (readClock : Action Value Instant) := by
  intro left right twins
  apply twinEnds_of_ends
  simp only [ends_readClock, twins.clock]
  obtain ⟨fault | now, clock⟩ := left.clock.read
  · exact ⟨rfl, twins.withClock clock⟩
  · exact ⟨rfl, twins.withClock clock⟩

theorem agrees_advanceClock (duration : Duration) :
    Agrees count (advanceClock duration : Action Value Unit) := by
  intro left right twins
  apply twinEnds_of_ends
  simp only [ends_advanceClock, twins.clock]
  cases left.clock.advance duration with
  | error fault => exact ⟨rfl, twins⟩
  | ok clock => exact ⟨trivial, twins.withClock clock⟩

theorem agrees_shardAt (index : Nat) :
    Agrees count (shardAt index : Action Value (Shard Value)) := by
  intro left right twins
  apply twinEnds_of_ends
  simp only [ends_shardAt, twins.shards]
  cases left.shards[index]? with
  | none => exact ⟨trivial, twins⟩
  | some shard => exact ⟨rfl, twins⟩

theorem agrees_putShard (index : Nat) (shard : Shard Value) :
    Agrees count (putShard index shard) := by
  intro left right twins
  refine .returned ⟨?_, ?_, twins.counters, twins.clock, twins.routes,
    twins.home⟩
  · exact Array.size_setIfInBounds.trans twins.size
  · exact congrArg (·.setIfInBounds index shard) twins.shards

/-! ## Routing -/

theorem Twins.symm
    {left right : Cache Value} (twins : Twins count left right) :
    Twins count right left where
  size := by rw [twins.shards, twins.size]
  shards := twins.shards.symm
  counters := twins.counters.symm
  clock := twins.clock.symm
  routes several := (twins.routes several).symm
  home lone name index found := twins.home lone name index found.symm

/-- An only shard is what every name is routed to. -/
theorem Twins.route_eq_zero
    {left right : Cache Value} (twins : Twins count left right)
    (lone : count = 1) (name : String) : left.route name = 0 := by
  rw [Cache.route, twins.size, lone, Nat.mod_one]
  cases found : left.routes[name]? with
  | none => rfl
  | some index => exact twins.home lone name index (.inl found)

theorem Twins.route
    {left right : Cache Value} (twins : Twins count left right)
    (name : String) : right.route name = left.route name := by
  by_cases lone : count = 1
  · rw [twins.route_eq_zero lone, twins.symm.route_eq_zero lone]
  · unfold Cache.route
    rw [twins.routes lone, twins.shards]

theorem agrees_shardIndex (name : String) :
    Agrees count (shardIndex name : Action Value Nat) := by
  intro left right twins
  have sameEmpty : (right.shards.isEmpty ∧ name ∉ right.routes) ↔
      (left.shards.isEmpty ∧ name ∉ left.routes) := by
    rw [twins.shards]
    apply and_congr_right
    intro nothing
    have several : count ≠ 1 := by
      rw [← twins.size, Array.isEmpty_iff.mp nothing]
      exact Nat.zero_ne_one
    rw [twins.routes several]
  apply twinEnds_of_ends
  simp only [shardIndex, ends_bind, ends_get, ends_ite, ends_throw,
    ends_record, ends_pure, sameEmpty, twins.route]
  split
  · exact ⟨trivial, twins⟩
  · exact ⟨trivial, twins.noted _⟩

/-- What follows routing a name agrees if it does so for all shards that a name
can be routed to. -/
theorem agrees_routed
    {name : String} {rest : Nat → Action Value Result}
    (tail : ∀ index, (count = 1 → index = 0) → Agrees count (rest index)) :
    Agrees count (shardIndex name >>= rest) := by
  intro left right twins
  refine (agrees_shardIndex name left right twins).bind ?_
  intro index next after run still
  have routed : Ends (shardIndex name) left
      (fun index _ => index = left.route name) (fun _ _ => True) :=
    ends_shardIndex (fun _ => rfl) trivial
  have home := ends_of_run_ok routed run
  apply tail index
  · intro lone
    rw [home, twins.route_eq_zero lone]
  · exact still

/-! ## Reading -/

section Reading

variable (settings : Settings) (name : String)

theorem agrees_getFrom (index : Nat) :
    Agrees count (getFrom settings index name :
      Action Value (Lookup Value)) := by
  refine (agrees_shardAt index).bind fun shard => ?_
  refine agrees_readClock.bind fun first => ?_
  split
  · exact agrees_pure _
  · refine agrees_readClock.bind fun second => ?_
    exact (agrees_putShard index _).bind fun _ => agrees_pure _

theorem agrees_recordLookup (lookup : Lookup Value) :
    Agrees count (recordLookup lookup) := by
  have refreshing : Agrees count
      (do if lookup.refreshes then record .refresh : Action Value PUnit) :=
    (agrees_record .refresh).ite (agrees_pure _)
  cases lookup with
  | absent => exact (agrees_record .miss).bind fun _ => refreshing
  | found value refresh =>
      exact (agrees_record .hit).bind fun _ => refreshing
  | missing refresh =>
      exact (agrees_record .missingHit).bind fun _ => refreshing

theorem agrees_lookup :
    Agrees count (lookup settings name : Action Value (Lookup Value)) :=
  agrees_routed fun index _ =>
    (agrees_getFrom settings name index).bind fun found =>
      (agrees_recordLookup found).bind fun _ => agrees_pure found

theorem agrees_peek :
    Agrees count (peek name : Action Value (Lookup Value)) := by
  refine agrees_routed fun index _ => ?_
  refine (agrees_shardAt index).bind fun shard => ?_
  exact (agrees_readClock.bind fun _ => agrees_pure _).ite (agrees_pure _)

theorem agrees_keysOf (index : Nat) :
    Agrees count (keysOf index : Action Value (List String)) :=
  (agrees_shardAt index).bind fun _ =>
    agrees_readClock.bind fun _ => agrees_pure _

theorem agrees_keys : Agrees count (keys : Action Value (List String)) := by
  refine agrees_get_bind fun left right twins => ?_
  rw [twins.shards]
  exact agrees_foldlM
    (fun found index => (agrees_keysOf index).bind fun _ => agrees_pure _)
    _ _ left right twins

end Reading

/-! ## Writing and removing -/

section Writing

variable (settings : Settings)

/-- What is left of registering an alias once it leads to the shard. -/
def bindAlias (key : String) (index : Nat) (name : String) :
    Action Value Unit := do
  let shard ← shardAt index
  if (shard.keyOfAlias[name]?).any (· ≠ key) then
    throw (.aliasOfOtherKey name)

/-- Where there is only one shard, an alias goes on to be bound there whether it
has been registered before or not. -/
theorem run_registerAlias_alone
    {cache : Cache Value} (key name : String)
    (home : ∀ (other : String) (place : Nat),
      cache.routes[other]? = some place → place = 0) :
    ∃ routes : ExtTreeMap String Nat,
      (∀ (other : String) (place : Nat),
        routes[other]? = some place → place = 0) ∧
        (registerAlias key 0 name).run cache =
          (bindAlias key 0 name).run { cache with routes } := by
  cases found : cache.routes[name]? with
  | some owner =>
      obtain rfl := home name owner found
      refine ⟨cache.routes, home, ?_⟩
      rw [registerAlias, run_get_bind]
      simp only [found, ne_eq, not_true_eq_false, if_false]
      rfl
  | none =>
      refine ⟨cache.routes.insert name 0, ?_, ?_⟩
      · intro other place inserted
        rw [ExtTreeMap.getElem?_insert] at inserted
        split at inserted
        · exact (Option.some.inj inserted).symm
        · exact home other place inserted
      · rw [registerAlias, run_get_bind]
        simp only [found]
        rfl

theorem agrees_registerAlias
    (key : String) {index : Nat} (home : count = 1 → index = 0)
    (name : String) :
    Agrees count (registerAlias key index name : Action Value Unit) := by
  have binds : Agrees count (bindAlias key index name : Action Value Unit) :=
    (agrees_shardAt index).bind fun _ =>
      (agrees_throw _).ite (agrees_pure _)
  by_cases lone : count = 1
  · -- The twins may differ in whether the alias is registered.
    intro left right twins
    obtain rfl := home lone
    obtain ⟨leftRoutes, leftHome, leftRun⟩ :=
      run_registerAlias_alone key name fun other place found =>
        twins.home lone other place (.inl found)
    obtain ⟨rightRoutes, rightHome, rightRun⟩ :=
      run_registerAlias_alone key name fun other place found =>
        twins.home lone other place (.inr found)
    rw [leftRun, rightRun]
    refine binds _ _ ⟨twins.size, twins.shards, twins.counters, twins.clock,
      fun several => absurd lone several, ?_⟩
    intro _ other place found
    exact found.elim (leftHome other place) (rightHome other place)
  · refine agrees_get_bind fun left right twins => ?_
    rw [twins.routes lone]
    dsimp only
    split
    next owner found =>
      split
      · exact .broke twins
      · exact binds left right twins
    next unknown =>
      exact binds _ _ ⟨twins.size, twins.shards, twins.counters, twins.clock,
        fun _ => rfl, fun alone => absurd alone lone⟩

theorem agrees_drawRefreshTime
    (refresh : Option RefreshWindow) (index : Nat) (now : Instant) :
    Agrees count (drawRefreshTime refresh index now :
      Action Value (Option Instant)) := by
  unfold drawRefreshTime
  cases refresh with
  | none => exact agrees_pure _
  | some window =>
      refine (agrees_shardAt index).bind fun shard => ?_
      refine (agrees_putShard index _).bind fun _ => ?_
      refine Agrees.ite ?_ (agrees_pure _)
      exact (agrees_throw _).bind fun _ => agrees_pure _

theorem agrees_writeTo
    (index : Nat) (key : String) (value : Option Value)
    (aliases : List String) :
    Agrees count (writeTo settings index key value aliases) := by
  refine (agrees_shardAt index).bind fun shard => ?_
  refine (agrees_pure _).ite ?_
  refine (agrees_putShard index _).bind fun _ => ?_
  refine agrees_readClock.bind fun now => ?_
  refine (agrees_drawRefreshTime settings.refresh index now).bind
    fun refreshAt => ?_
  refine (agrees_shardAt index).bind fun roomy => ?_
  refine (agrees_putShard index _).bind fun _ => Agrees.ite ?_ ?_
  · refine (agrees_record _).bind fun _ => Agrees.ite ?_ ?_
    · exact (agrees_record _).bind fun _ => agrees_pure _
    · exact agrees_pure _
  · exact agrees_pure _

theorem agrees_writeDraft (draft : Draft Value) :
    Agrees count (writeDraft settings draft) := by
  rw [writeDraft, write_eq]
  exact agrees_routed fun index home =>
    (agrees_forM (agrees_registerAlias draft.key home) _).bind fun _ =>
      agrees_writeTo settings index draft.key draft.value draft.aliases

theorem agrees_delete (name : String) :
    Agrees count (delete name : Action Value Bool) :=
  agrees_routed fun index _ =>
    (agrees_shardAt index).bind fun _ =>
      (agrees_putShard index _).bind fun _ => agrees_pure _

theorem agrees_sweep (index : Nat) :
    Agrees count (sweep index : Action Value Nat) := by
  refine (agrees_shardAt index).bind fun shard => ?_
  refine agrees_readClock.bind fun now => ?_
  refine (agrees_putShard index _).bind fun _ => ?_
  refine Agrees.ite ?_ (agrees_pure _)
  exact (agrees_record _).bind fun _ => agrees_pure _

end Writing

/-! ## Whatever happens to twins -/

section Follow

variable (settings : Settings)

theorem agrees_act (act : Act Value) :
    Agrees count (act.action settings) := by
  cases act with
  | quiet silent =>
      cases silent with
      | advance duration => exact agrees_advanceClock duration
      | layDown readings => exact agrees_layDown readings
      | emptyJournal => exact agrees_emptyJournal
      | route name => exact (agrees_shardIndex name).discard
      | lookup name => exact (agrees_lookup settings name).discard
      | peek name => exact (agrees_peek name).discard
      | readShard index name =>
          exact (agrees_getFrom settings name index).discard
      | listShard index => exact (agrees_keysOf index).discard
  | write draft => exact (agrees_writeDraft settings draft).discard
  | delete name => exact (agrees_delete name).discard
  | sweep index => exact (agrees_sweep index).discard

/-- Twins stay twins, whatever is done to them. -/
theorem Twins.follow
    {left right : Cache Value} (twins : Twins count left right)
    (acts : List (Act Value)) :
    Twins count (follow settings left acts) (follow settings right acts) := by
  induction acts generalizing left right with
  | nil => exact twins
  | cons act acts inductionHypothesis =>
      exact inductionHypothesis
        ((agrees_act settings act).twins_final twins)

/-- Whatever acts are carried out on two caches, they answer the same
afterwards. -/
structure AnswersAlike (settings : Settings) (left right : Cache Value) :
    Prop where
  lookup : ∀ (acts : List (Act Value)) (name : String),
    answer (lookup settings name) (Cache.follow settings right acts) =
      answer (lookup settings name) (Cache.follow settings left acts)
  write : ∀ (acts : List (Act Value)) (draft : Draft Value),
    answer (writeDraft settings draft) (Cache.follow settings right acts) =
      answer (writeDraft settings draft) (Cache.follow settings left acts)
  delete : ∀ (acts : List (Act Value)) (name : String),
    answer (delete name) (Cache.follow settings right acts) =
      answer (delete name) (Cache.follow settings left acts)
  keys : ∀ acts : List (Act Value),
    answer keys (Cache.follow settings right acts) =
      answer keys (Cache.follow settings left acts)
  statistics : ∀ acts : List (Act Value),
    (Cache.follow settings right acts).statistics =
      (Cache.follow settings left acts).statistics

theorem Twins.answersAlike
    {left right : Cache Value} (twins : Twins count left right) :
    AnswersAlike settings left right where
  lookup acts name :=
    (agrees_lookup settings name).answer_eq (twins.follow settings acts)
  write acts draft :=
    (agrees_writeDraft settings draft).answer_eq
      (twins.follow settings acts)
  delete acts name :=
    (agrees_delete name).answer_eq (twins.follow settings acts)
  keys acts := agrees_keys.answer_eq (twins.follow settings acts)
  statistics acts := by
    have still := twins.follow settings acts
    unfold Cache.statistics Cache.size
    rw [still.counters, still.shards]

end Follow

end ReadThrough.Cache
