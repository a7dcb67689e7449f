import Mathlib.Logic.Relation
import ReadThrough.Cache

/-!
# How actions end

An action on a cache ends with a result or in a fault, and leaves a cache
behind either way.  `Ends` says what is to hold then, for both ends at once.
The lemmas of this module take actions apart into their parts; whatever is
stated of an operation of the cache is derived from them.

`final` is the cache that an action leaves behind, whichever way it ends.  An
action `Respects` a relation that holds between every cache and the one that the
action leaves behind; what is made of such actions respects a preorder again.
-/

namespace ReadThrough.Cache

-- Answers of actions are compared on concrete caches.
deriving instance DecidableEq for Except

variable {Value Result Other : Type}

/-- An action ends with a result and a cache that `returns` accepts, or in a
fault and with a cache that `breaks` accepts. -/
def Ends
    (action : Action Value Result) (cache : Cache Value)
    (returns : Result → Cache Value → Prop)
    (breaks : Fault → Cache Value → Prop) : Prop :=
  match action.run cache with
  | .ok result next => returns result next
  | .error fault next => breaks fault next

/-- The cache that an action leaves behind. -/
def final (action : Action Value Result) (cache : Cache Value) :
    Cache Value :=
  match action.run cache with
  | .ok _ next => next
  | .error _ next => next

/-- The result of an action, unless it ends in a fault. -/
def result? (action : Action Value Result) (cache : Cache Value) :
    Option Result :=
  match action.run cache with
  | .ok result _ => some result
  | .error _ _ => none

variable {returns : Result → Cache Value → Prop}
  {breaks : Fault → Cache Value → Prop}

theorem ends_of_run_ok
    {action : Action Value Result} {cache next : Cache Value}
    {result : Result}
    (ends : Ends action cache returns breaks)
    (run : action.run cache = .ok result next) : returns result next := by
  simpa only [Ends, run] using ends

/-- What is accepted however the action ends is accepted of `final`. -/
theorem ends_iff_final
    {action : Action Value Result} {cache : Cache Value}
    {accepts : Cache Value → Prop} :
    Ends action cache (fun _ => accepts) (fun _ => accepts) ↔
      accepts (final action cache) := by
  rw [Ends, final]
  cases action.run cache with
  | ok result next => exact Iff.rfl
  | error fault next => exact Iff.rfl

theorem run_of_result?
    {action : Action Value Result} {cache : Cache Value} {result : Result}
    (answered : result? action cache = some result) :
    action.run cache = .ok result (final action cache) := by
  rw [result?] at answered
  rw [final]
  cases run : action.run cache with
  | ok found next =>
      rw [run] at answered
      cases answered
      rfl
  | error fault next =>
      rw [run] at answered
      cases answered

theorem Ends.weaken
    {action : Action Value Result} {cache : Cache Value}
    {widely : Result → Cache Value → Prop}
    {broadly : Fault → Cache Value → Prop}
    (ends : Ends action cache returns breaks)
    (onReturn : ∀ result next, returns result next → widely result next)
    (onBreak : ∀ fault next, breaks fault next → broadly fault next) :
    Ends action cache widely broadly := by
  rw [Ends] at ends ⊢
  cases run : action.run cache with
  | ok result next =>
      rw [run] at ends
      exact onReturn result next ends
  | error fault next =>
      rw [run] at ends
      exact onBreak fault next ends

/-! ## Combining actions -/

theorem run_get_bind
    (rest : Cache Value → Action Value Result) (cache : Cache Value) :
    (get >>= rest).run cache = (rest cache).run cache :=
  rfl

@[simp]
theorem ends_pure {cache : Cache Value} {result : Result} :
    Ends (pure result) cache returns breaks ↔ returns result cache :=
  Iff.rfl

@[simp]
theorem ends_throw {cache : Cache Value} {fault : Fault} :
    Ends (throw fault : Action Value Result) cache returns breaks ↔
      breaks fault cache :=
  Iff.rfl

@[simp]
theorem ends_bind
    {first : Action Value Other} {second : Other → Action Value Result}
    {cache : Cache Value} :
    Ends (first >>= second) cache returns breaks ↔
      Ends first cache
        (fun result next => Ends (second result) next returns breaks)
        breaks := by
  unfold Ends
  simp only [bind, EStateM.bind, EStateM.run]
  cases first cache with
  | ok result next => exact Iff.rfl
  | error fault next => exact Iff.rfl

@[simp]
theorem ends_map
    {action : Action Value Other} {change : Other → Result}
    {cache : Cache Value} :
    Ends (change <$> action) cache returns breaks ↔
      Ends action cache (fun result next => returns (change result) next)
        breaks := by
  unfold Ends
  simp only [Functor.map, EStateM.map, EStateM.run]
  cases action cache with
  | ok result next => exact Iff.rfl
  | error fault next => exact Iff.rfl

@[simp]
theorem ends_discard
    {action : Action Value Result} {cache : Cache Value}
    {accepts : PUnit → Cache Value → Prop} :
    Ends (discard action) cache accepts breaks ↔
      Ends action cache (fun _ next => accepts ⟨⟩ next) breaks := by
  exact ends_map

@[simp]
theorem final_discard (action : Action Value Result) (cache : Cache Value) :
    final (discard action) cache = final action cache := by
  have same : ∀ accepts : Cache Value → Prop,
      accepts (final (discard action) cache) ↔
        accepts (final action cache) := fun _ =>
    ends_iff_final.symm.trans (ends_discard.trans ends_iff_final)
  exact (same (· = final action cache)).mpr rfl

/-! ## Elementary actions -/

@[simp]
theorem ends_get
    {cache : Cache Value}
    {accepts : Cache Value → Cache Value → Prop} :
    Ends (get : Action Value (Cache Value)) cache accepts breaks ↔
      accepts cache cache :=
  Iff.rfl

@[simp]
theorem ends_set
    {cache next : Cache Value} {accepts : PUnit → Cache Value → Prop} :
    Ends (set next : Action Value PUnit) cache accepts breaks ↔
      accepts ⟨⟩ next :=
  Iff.rfl

@[simp]
theorem ends_demand {cache : Cache Value} {outcome : Except Fault Result} :
    Ends (demand outcome) cache returns breaks ↔
      match outcome with
      | .ok result => returns result cache
      | .error fault => breaks fault cache := by
  cases outcome with
  | ok result => exact Iff.rfl
  | error fault => exact Iff.rfl

theorem ends_ite
    {condition : Prop} [Decidable condition]
    {accepted refused : Action Value Result} {cache : Cache Value} :
    Ends (if condition then accepted else refused) cache returns breaks ↔
      if condition then Ends accepted cache returns breaks
      else Ends refused cache returns breaks := by
  split
  · exact Iff.rfl
  · exact Iff.rfl

/-! ## What elementary actions change -/

/-- The cache after an event has been noted. -/
def noted (cache : Cache Value) (event : Event) : Cache Value :=
  { cache with
    counters := cache.counters.count event
    journal := cache.journal.push event }

/-- The cache with another clock. -/
def withClock (cache : Cache Value) (clock : Clock) : Cache Value :=
  { cache with clock }

/-- The cache with another shard at an index. -/
def withShard (cache : Cache Value) (index : Nat) (shard : Shard Value) :
    Cache Value :=
  { cache with shards := cache.shards.setIfInBounds index shard }

section Projections

variable (cache : Cache Value) (event : Event) (clock : Clock)
  (index : Nat) (shard : Shard Value)

@[simp]
theorem shards_noted : (cache.noted event).shards = cache.shards := rfl

@[simp]
theorem clock_withClock : (cache.withClock clock).clock = clock := rfl

@[simp]
theorem routes_withShard :
    (cache.withShard index shard).routes = cache.routes := rfl

@[simp]
theorem clock_withShard :
    (cache.withShard index shard).clock = cache.clock := rfl

@[simp]
theorem size_shards_withShard :
    (cache.withShard index shard).shards.size = cache.shards.size :=
  Array.size_setIfInBounds

end Projections

theorem getElem?_shards_withShard
    {cache : Cache Value} {index : Nat} {old : Shard Value}
    (seat : cache.shards[index]? = some old)
    (shard : Shard Value) (other : Nat) :
    (cache.withShard index shard).shards[other]? =
      if other = index then some shard else cache.shards[other]? := by
  have inside : index < cache.shards.size :=
    (Array.getElem?_eq_some_iff.mp seat).1
  rw [withShard, Array.getElem?_setIfInBounds]
  by_cases same : other = index
  · simp [same, inside]
  · simp [same, Ne.symm same]

@[simp]
theorem ends_record
    {cache : Cache Value} {event : Event}
    {accepts : PUnit → Cache Value → Prop} :
    Ends (record event) cache accepts breaks ↔
      accepts ⟨⟩ (cache.noted event) :=
  Iff.rfl

theorem ends_readClock
    {cache : Cache Value} {accepts : Instant → Cache Value → Prop} :
    Ends readClock cache accepts breaks ↔
      match cache.clock.read with
      | (.ok now, clock) => accepts now (cache.withClock clock)
      | (.error fault, clock) => breaks fault (cache.withClock clock) := by
  simp only [readClock, ends_bind, ends_get, ends_set, ends_demand]
  generalize cache.clock.read = reading
  obtain ⟨outcome, clock⟩ := reading
  cases outcome with
  | ok now => exact Iff.rfl
  | error fault => exact Iff.rfl

theorem ends_advanceClock
    {cache : Cache Value} {duration : Duration}
    {accepts : PUnit → Cache Value → Prop} :
    Ends (advanceClock duration) cache accepts breaks ↔
      match cache.clock.advance duration with
      | .ok clock => accepts ⟨⟩ (cache.withClock clock)
      | .error fault => breaks fault cache := by
  simp only [advanceClock, ends_bind, ends_get, ends_demand, ends_set]
  cases cache.clock.advance duration with
  | ok clock => exact Iff.rfl
  | error fault => exact Iff.rfl

theorem ends_shardAt
    {cache : Cache Value} {index : Nat}
    {accepts : Shard Value → Cache Value → Prop} :
    Ends (shardAt index) cache accepts breaks ↔
      match cache.shards[index]? with
      | some shard => accepts shard cache
      | none => breaks (.shardOutOfRange cache.shards.size index) cache := by
  simp only [shardAt, ends_bind, ends_get]
  cases cache.shards[index]? with
  | none => exact Iff.rfl
  | some shard => exact Iff.rfl

theorem run_shardAt (cache : Cache Value) (index : Nat) :
    (shardAt index).run cache =
      match cache.shards[index]? with
      | some shard => .ok shard cache
      | none =>
          .error (.shardOutOfRange cache.shards.size index) cache := by
  rw [shardAt, run_get_bind]
  cases cache.shards[index]? with
  | some shard => rfl
  | none => rfl

theorem run_shardAt_bind_of_seat
    {cache : Cache Value} {index : Nat} {shard : Shard Value}
    (seat : cache.shards[index]? = some shard)
    (rest : Shard Value → Action Value Result) :
    (shardAt index >>= rest).run cache = (rest shard).run cache := by
  change EStateM.bind (shardAt index) rest cache = _
  have read := run_shardAt cache index
  rw [seat, EStateM.run] at read
  rw [EStateM.bind, read]
  rfl

/-- Nothing comes after a look at a shard that is not there. -/
theorem run_shardAt_bind_of_unseated
    {cache : Cache Value} {index : Nat}
    (unseated : cache.shards[index]? = none)
    (rest : Shard Value → Action Value Result) :
    (shardAt index >>= rest).run cache =
      .error (.shardOutOfRange cache.shards.size index) cache := by
  change EStateM.bind (shardAt index) rest cache = _
  have read := run_shardAt cache index
  rw [unseated, EStateM.run] at read
  rw [EStateM.bind, read]

@[simp]
theorem ends_putShard
    {cache : Cache Value} {index : Nat} {shard : Shard Value}
    {accepts : PUnit → Cache Value → Prop} :
    Ends (putShard index shard) cache accepts breaks ↔
      accepts ⟨⟩ (cache.withShard index shard) :=
  Iff.rfl

/-! ## Routing -/

/-- A name can be routed: there is a shard, or the name is registered. -/
def Routable (cache : Cache Value) (name : String) : Prop :=
  cache.shards ≠ #[] ∨ name ∈ cache.routes

theorem ends_shardIndex
    {cache : Cache Value} {name : String}
    {accepts : Nat → Cache Value → Prop}
    (routed : cache.Routable name →
      accepts (cache.route name)
        (cache.noted (.routed (cache.route name))))
    (unroutable : breaks .noShards cache) :
    Ends (shardIndex name) cache accepts breaks := by
  simp only [shardIndex, ends_bind, ends_get]
  split
  next => simpa using unroutable
  next routable =>
    have names : cache.Routable name := by
      rw [Decidable.not_and_iff_not_or_not, Decidable.not_not,
        Array.isEmpty_iff] at routable
      exact routable
    simpa using routed names

/-- Where there is a shard, every name is routed. -/
theorem ends_shardIndex_of_seat
    {cache : Cache Value} {name : String} {index : Nat}
    {shard : Shard Value} {accepts : Nat → Cache Value → Prop}
    (seat : cache.shards[index]? = some shard) :
    Ends (shardIndex name) cache accepts breaks ↔
      accepts (cache.route name)
        (cache.noted (.routed (cache.route name))) := by
  have inhabited : ¬ (cache.shards.isEmpty ∧ name ∉ cache.routes) := by
    intro nothing
    obtain ⟨empty, _⟩ := nothing
    rw [Array.isEmpty_iff.mp empty] at seat
    simp at seat
  simp only [shardIndex, ends_bind, ends_get, ends_ite, ends_throw,
    ends_pure, ends_record, if_neg inhabited]

/-! ## Relations between the caches before and after -/

/-- A relation holds between every cache and the one an action leaves
behind. -/
def Respects
    (relation : Cache Value → Cache Value → Prop)
    (action : Action Value Result) : Prop :=
  ∀ cache, Ends action cache
    (fun _ next => relation cache next) (fun _ next => relation cache next)

theorem respects_final
    {relation : Cache Value → Cache Value → Prop}
    {action : Action Value Result} (respects : Respects relation action)
    (cache : Cache Value) : relation cache (final action cache) :=
  ends_iff_final.mp (respects cache)

theorem Respects.map
    {relation : Cache Value → Cache Value → Prop}
    {action : Action Value Other} (respects : Respects relation action)
    (change : Other → Result) : Respects relation (change <$> action) :=
  fun cache => ends_map.mpr (respects cache)

theorem Respects.discard
    {relation : Cache Value → Cache Value → Prop}
    {action : Action Value Result} (respects : Respects relation action) :
    Respects relation (discard action) :=
  fun cache => ends_discard.mpr (respects cache)

theorem Respects.ite
    {relation : Cache Value → Cache Value → Prop}
    {condition : Prop} [Decidable condition]
    {accepted refused : Action Value Result}
    (onAccepted : Respects relation accepted)
    (onRefused : Respects relation refused) :
    Respects relation (if condition then accepted else refused) := by
  split
  · exact onAccepted
  · exact onRefused

section Preorder

variable {relation : Cache Value → Cache Value → Prop}
  [IsPreorder (Cache Value) relation]

theorem respects_pure (result : Result) :
    Respects relation (pure result : Action Value Result) := fun cache =>
  refl_of relation cache

theorem respects_throw (fault : Fault) :
    Respects relation (throw fault : Action Value Result) := fun cache =>
  refl_of relation cache

theorem respects_get :
    Respects relation (get : Action Value (Cache Value)) := fun cache =>
  refl_of relation cache

theorem respects_demand (outcome : Except Fault Result) :
    Respects relation (demand outcome : Action Value Result) := by
  cases outcome with
  | ok result => exact respects_pure result
  | error fault => exact respects_throw fault

theorem respects_shardAt (index : Nat) :
    Respects relation (shardAt index) := by
  intro cache
  rw [ends_shardAt]
  split
  · exact refl_of relation cache
  · exact refl_of relation cache

theorem Respects.bind
    {first : Action Value Other} {second : Other → Action Value Result}
    (head : Respects relation first)
    (tail : ∀ result, Respects relation (second result)) :
    Respects relation (first >>= second) := by
  intro cache
  rw [ends_bind]
  refine (head cache).weaken ?_ fun _ _ => id
  intro result middle step
  exact (tail result middle).weaken
    (fun _ _ => trans_of relation step) (fun _ _ => trans_of relation step)

theorem respects_foldlM
    {Item : Type} {round : Result → Item → Action Value Result}
    (respects : ∀ result item, Respects relation (round result item))
    (items : List Item) (result : Result) :
    Respects relation (items.foldlM round result) := by
  induction items generalizing result with
  | nil => exact respects_pure result
  | cons item rest inductionHypothesis =>
      rw [List.foldlM_cons]
      exact (respects result item).bind inductionHypothesis

theorem respects_mapM
    {Item : Type} {round : Item → Action Value Result}
    (respects : ∀ item, Respects relation (round item))
    (items : List Item) : Respects relation (items.mapM round) := by
  induction items with
  | nil =>
      rw [List.mapM_nil]
      exact respects_pure []
  | cons item rest inductionHypothesis =>
      rw [List.mapM_cons]
      exact (respects item).bind fun result =>
        inductionHypothesis.bind fun results =>
          respects_pure (result :: results)

end Preorder

end ReadThrough.Cache
