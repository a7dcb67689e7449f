import ReadThrough.Proofs.Cache.Blame
import ReadThrough.Proofs.Cache.Capacity
import ReadThrough.Proofs.Shard.Eviction

/-!
# What valid settings rule out

A cache is `Governed` by valid settings when it has been run with them.  An act
on such a cache ends in a fault only if it is a write whose aliases conflict,
provided that the readings of the clock that the act takes succeed, that the
clock can be moved if the act does so and that an act which names a shard by its
index names one that there is.

What an act calculates is `Defined`: hashes are divided by a number of shards
that is not zero, sums of durations are durations, an eviction takes entries
from a shard that has as many.
-/

namespace ReadThrough

open Std (ExtTreeMap)

/-! ## Clocks and pauses -/

/-- What a clock shows can be represented. -/
theorem Clock.representable_of_read
    {clock : Clock} {now : Instant} (shown : clock.read.1 = .ok now) :
    Instant.Representable now := by
  have representable : ∀ instant : Instant, reading instant = .ok now →
      Instant.Representable now := by
    intro instant accepted
    rw [reading] at accepted
    split at accepted
    next fits =>
      cases accepted
      exact fits
    next => cases accepted
  rw [read] at shown
  split at shown
  · exact representable _ shown
  · exact representable _ shown
  · exact representable _ shown
  · exact representable _ shown

/-- One of the next two readings of the clock ends in the fault.  No act takes
more than two. -/
def Clock.Fails (clock : Clock) (fault : Fault) : Prop :=
  clock.read.1 = .error fault ∨ clock.read.2.read.1 = .error fault

instance (clock : Clock) (fault : Fault) : Decidable (clock.Fails fault) :=
  inferInstanceAs (Decidable (_ ∨ _))

theorem Clock.Fails.eq
    {clock : Clock} {fault : Fault} (fails : clock.Fails fault) :
    fault = .instantOverflow :=
  fails.elim read_fault read_fault

/-- The factor of a pause fits in 32 bits. -/
theorem Entry.backoffFactor_lt (retries : Nat) :
    Nat.pow 2 (min retries maxBackoffExponent) < 4294967296 := by
  have most : Nat.pow 2 (min retries maxBackoffExponent) ≤
      Nat.pow 2 maxBackoffExponent :=
    Nat.pow_le_pow_right Nat.two_pos (Nat.min_le_right _ _)
  exact Nat.lt_of_le_of_lt most (by decide)

theorem Entry.backoff_le_longest (base : Duration) (retries : Nat) :
    backoff base retries ≤ Duration.longest :=
  Nat.min_le_right _ _

namespace Shard

variable {Value : Type} {shard : Shard Value}

/-- A padding is drawn from a range that is not empty. -/
theorem takePadding_lt {spread : Duration} (wide : spread ≠ 0) :
    (shard.takePadding spread).1 < spread := by
  rw [takePadding, if_neg wide]
  split
  · exact Nat.pos_of_ne_zero wide
  · exact Nat.mod_lt _ (Nat.pos_of_ne_zero wide)

end Shard

variable {Value Result : Type}

/-! ## Acts at their time and place -/

/-- Whether an act moves the clock. -/
def Act.advances : Act Value → Bool
  | .quiet (.advance _) => true
  | _ => false

/-- If an act names a shard by its index, there is one. -/
def Act.Seated (count : Nat) : Act Value → Prop
  | .quiet (.readShard index _) => index < count
  | .quiet (.listShard index) => index < count
  | .sweep index => index < count
  | _ => True

/-- If an operation names a shard by its index, there is one. -/
def Operation.Seated (count : Nat) : Operation Value → Prop
  | .act single => single.Seated count
  | _ => True

theorem Act.Plain.seated {act : Act Value} (plain : act.Plain) (count : Nat) :
    act.Seated count := by
  cases plain with
  | _ => trivial

namespace Cache

/-- The clock can be read and moved if an act does so.  An act that ends in an
overflow all the same has not met it in a reading. -/
def InTime (settings : Settings) (cache : Cache Value) (act : Act Value) :
    Prop :=
  (answer (act.action settings) cache = .error .instantOverflow →
      ¬ cache.clock.Fails .instantOverflow) ∧
    (act.advances = true → returns (act.action settings) cache = true)

instance (settings : Settings) (cache : Cache Value) (act : Act Value) :
    Decidable (cache.InTime settings act) :=
  inferInstanceAs (Decidable (_ ∧ _))

/-- A cache that has been run with valid settings. -/
structure Governed (settings : Settings) (cache : Cache Value) : Prop where
  valid : settings.Valid
  expressible : settings.timeToLive ≤ Duration.longest
  coherent : cache.Coherent
  bounded : Bounded settings cache

theorem governed_empty
    {settings : Settings} (valid : settings.Valid)
    (expressible : settings.timeToLive ≤ Duration.longest)
    (paddings : Nat → List Nat) :
    Governed settings (empty settings paddings : Cache Value) :=
  ⟨valid, expressible, coherent_empty valid paddings,
    bounded_empty settings paddings⟩

/-- A fault is one of those that the action can end in. -/
theorem breaks_of_answer
    {action : Action Value Result} {cache : Cache Value} {fault : Fault}
    {accepts : Result → Cache Value → Prop} {breaks : Fault → Prop}
    (ends : Ends action cache accepts (fun fault _ => breaks fault))
    (broken : answer (discard action) cache = .error fault) :
    breaks fault := by
  have discarded : answer (discard action) cache =
      (answer action cache).map fun _ => () := answer_map _ action cache
  rw [ends_iff_answer] at ends
  rw [discarded] at broken
  cases answered : answer action cache with
  | ok result =>
      rw [answered] at broken
      cases broken
  | error found =>
      rw [answered] at broken ends
      cases broken
      exact ends

/-! ## Readings that fail -/

section Unread

variable {settings : Settings} {cache : Cache Value} {shard : Shard Value}

theorem ends_getFrom_unread
    {index : Nat} (seat : cache.shards[index]? = some shard)
    (name : String) :
    Ends (getFrom settings index name) cache (fun _ _ => True)
      (fun fault _ => cache.clock.Fails fault) := by
  rw [getFrom, ends_bind, ends_shardAt, seat]
  dsimp only
  rw [ends_bind, ends_readClock]
  split
  next first clock shown =>
    split
    · trivial
    · have left : cache.clock.read.2 = clock := congrArg Prod.snd shown
      rw [ends_bind, ends_readClock]
      split
      · simp only [ends_bind, ends_putShard, ends_pure]
      next fault later unread =>
        rw [Clock.Fails, left]
        exact Or.inr (congrArg Prod.fst unread)
  next fault clock unread => exact Or.inl (congrArg Prod.fst unread)

theorem ends_lookup_unread
    {name : String} (seat : cache.shards[cache.route name]? = some shard) :
    Ends (lookup settings name) cache (fun _ _ => True)
      (fun fault _ => cache.clock.Fails fault) := by
  have routedSeat :
      (cache.noted (.routed (cache.route name))).shards[cache.route name]? =
        some shard := seat
  rw [lookup, ends_bind, ends_shardIndex_of_seat seat, ends_bind]
  refine (ends_getFrom_unread routedSeat name).weaken ?_ fun _ _ => id
  intro found next _
  rw [ends_bind]
  exact (ends_recordLookup_counters found).weaken (fun _ _ _ => trivial)
    fun _ _ impossible => impossible.elim

theorem ends_peek_unread
    {name : String} (seat : cache.shards[cache.route name]? = some shard) :
    Ends (peek name) cache (fun _ _ => True)
      (fun fault _ => cache.clock.Fails fault) := by
  have routedSeat : (cache.noted (.routed (cache.route name))).shards[
      cache.route name]? = some shard := seat
  rw [peek, ends_bind, ends_shardIndex_of_seat seat, ends_bind,
    ends_shardAt, routedSeat]
  dsimp only
  rw [ends_ite]
  split
  · rw [ends_bind, ends_readClock]
    split
    · trivial
    next unread => exact Or.inl (congrArg Prod.fst unread)
  · trivial

theorem ends_keysOf_unread
    {index : Nat} (seat : cache.shards[index]? = some shard) :
    Ends (keysOf index) cache (fun _ _ => True)
      (fun fault _ => cache.clock.Fails fault) := by
  rw [keysOf, ends_bind, ends_shardAt, seat]
  dsimp only
  rw [ends_bind, ends_readClock]
  split
  · trivial
  next unread => exact Or.inl (congrArg Prod.fst unread)

end Unread

namespace Governed

variable {settings : Settings} {cache : Cache Value}
  (governed : Governed settings cache)

include governed

theorem follow (acts : List (Act Value)) :
    Governed settings (Cache.follow settings cache acts) :=
  ⟨governed.valid, governed.expressible, governed.coherent.follow settings acts,
    governed.bounded.follow governed.coherent
      (shardCapacity_pos governed.valid) acts⟩

/-! ## Faults of acts -/

theorem seat_of_lt {index : Nat} (there : index < settings.shardCount) :
    ∃ shard, cache.shards[index]? = some shard := by
  rw [← governed.bounded.count] at there
  exact ⟨_, Array.getElem?_eq_getElem there⟩

/-- A quiet act is broken off only by a reading of the clock. -/
theorem fault_of_quiet
    {silent : Quiet} {fault : Fault}
    (seated : (Act.quiet silent : Act Value).Seated settings.shardCount)
    (moves : (Act.quiet silent : Act Value).advances = true →
      returns (silent.action settings) cache = true)
    (broken : answer (silent.action settings) cache = .error fault) :
    cache.clock.Fails fault := by
  have returning : returns (silent.action settings) cache ≠ true := by
    rw [returns, broken]
    exact Bool.false_ne_true
  cases silent with
  | advance duration => exact absurd (moves rfl) returning
  | layDown readings => cases broken
  | emptyJournal => cases broken
  | route name =>
      exact absurd (route_act settings governed.coherent name).1 returning
  | lookup name =>
      obtain ⟨shard, seat⟩ := governed.coherent.seat name
      exact breaks_of_answer (ends_lookup_unread seat) broken
  | peek name =>
      obtain ⟨shard, seat⟩ := governed.coherent.seat name
      exact breaks_of_answer (ends_peek_unread seat) broken
  | readShard index name =>
      obtain ⟨shard, seat⟩ := governed.seat_of_lt seated
      exact breaks_of_answer (ends_getFrom_unread seat name) broken
  | listShard index =>
      obtain ⟨shard, seat⟩ := governed.seat_of_lt seated
      exact breaks_of_answer (ends_keysOf_unread seat) broken

/-- Where the clock can be read and moved, only a write whose aliases conflict
ends in a fault. -/
theorem fault_of_act
    {act : Act Value} {fault : Fault}
    (seated : act.Seated settings.shardCount)
    (inTime : cache.InTime settings act)
    (broken : answer (act.action settings) cache = .error fault) :
    ∃ draft, act = .write draft ∧ fault.IsAliasConflict ∧
      cache.Conflicts draft := by
  have read : ¬ cache.clock.Fails fault := by
    intro fails
    have overflow := fails.eq
    subst overflow
    exact inTime.1 broken fails
  cases act with
  | quiet silent =>
      exact absurd (governed.fault_of_quiet seated inTime.2 broken) read
  | write draft =>
      refine ⟨draft, rfl, ?_⟩
      have ends := (ends_writeDraft_unstored governed.coherent
        (governed.valid.window_le governed.expressible) draft).weaken
        (fun _ _ _ => trivial) (fun found _ ended => show
          (found.IsAliasConflict ∧ cache.Conflicts draft) ∨
            cache.clock.Fails found from
          ended.imp (fun refused => ⟨refused.1, refused.2.1⟩)
            fun ⟨overflow, _, _, stopped⟩ =>
              overflow ▸ Or.inl (congrArg Prod.fst stopped.clock))
      exact (breaks_of_answer ends broken).resolve_right read
  | delete name =>
      obtain ⟨shard, seat⟩ := governed.coherent.seat name
      exact (breaks_of_answer (ends_delete seat) broken).elim
  | sweep index =>
      obtain ⟨shard, seat⟩ := governed.seat_of_lt seated
      have ends := (ends_sweep seat).weaken (fun _ _ _ => trivial)
        fun found _ ended => show cache.clock.Fails found from
          Or.inl (congrArg Prod.fst ended.1)
      exact absurd (breaks_of_answer ends broken) read

/-- A quiet act that comes first ends in no fault. -/
theorem answer_ne_error
    {silent : Quiet} {rest : List (Act Value)} {action : Action Value Result}
    (timed : Each settings InTime cache (.quiet silent :: rest))
    (seated : (Act.quiet silent : Act Value).Seated settings.shardCount)
    (same : silent.action settings = discard action) (fault : Fault) :
    answer action cache ≠ .error fault := by
  intro broken
  have discarded : answer ((Act.quiet silent).action settings) cache =
      .error fault := by
    rw [Act.action, same, ← fault?_eq_some_iff, fault?_discard]
    exact fault?_eq_some_iff.mpr broken
  obtain ⟨draft, written, _⟩ :=
    governed.fault_of_act seated timed.1 discarded
  cases written

/-- Whichever of many acts ends in a fault, it is a write whose aliases
conflict. -/
theorem fault_of_acts
    {early late : List (Act Value)} {act : Act Value} {fault : Fault}
    (seated : act.Seated settings.shardCount)
    (timed : Each settings InTime cache (early ++ act :: late))
    (broken : answer (act.action settings)
      (Cache.follow settings cache early) = .error fault) :
    ∃ draft, act = .write draft ∧ fault.IsAliasConflict ∧
      (Cache.follow settings cache early).Conflicts draft := by
  obtain ⟨inTime, _⟩ := (each_append.mp timed).2
  exact (governed.follow early).fault_of_act seated inTime broken

/-! ## Faults of operations -/

theorem seated_chores
    [Keyed Value] {operation : Operation Value}
    (seated : operation.Seated settings.shardCount) :
    Throughout (Act.Seated settings.shardCount)
      (operation.chores settings cache) := by
  have plain : operation.concludes = true →
      Throughout (Act.Seated settings.shardCount)
        (operation.chores settings cache) := fun concludes chore member given =>
    (plain_chores cache concludes chore member given).seated _
  cases operation with
  | act single => exact throughout_singleton seated
  | writeAll drafts => exact Throughout.map (fun _ _ => trivial) drafts
  | getManyBy requests => exact Throughout.map (fun _ _ => trivial) requests
  | keys =>
      intro chore member given
      obtain ⟨index, among, rfl⟩ := List.mem_map.mp member
      rw [List.mem_range, governed.bounded.count] at among
      exact among
  | gather requests => exact Throughout.map (fun _ _ => trivial) requests
  | _ => exact plain rfl

/-- An operation ends in a fault only if the last of its acts is a write whose
aliases conflict. -/
theorem fault_of_operation
    [Keyed Value] {operation : Operation Value} {fault : Fault}
    (unbroken : operation.Unbroken)
    (seated : operation.Seated settings.shardCount)
    (timed : Each settings InTime cache (operation.acts settings cache))
    (broken : answer (operation.action settings) cache = .error fault) :
    ∃ early draft, operation.acts settings cache = early ++ [.write draft] ∧
      fault.IsAliasConflict ∧
        (Cache.follow settings cache early).Conflicts draft := by
  have blamed : faultOf settings (operation.chores settings cache) cache =
      some fault :=
    (fault?_operation governed.coherent unbroken).symm.trans
      (fault?_eq_some_iff.mpr broken)
  obtain ⟨early, act, carried, guilty⟩ := exists_act_of_faultOf blamed
  have there : act.Seated settings.shardCount := by
    apply (governed.seated_chores seated).carryOut cache
    rw [carried]
    exact List.mem_append_right _ List.mem_cons_self
  have short : Each settings InTime cache (early ++ [act]) :=
    carried ▸ timed
  obtain ⟨draft, rfl, conflict, conflicts⟩ :=
    governed.fault_of_acts there short guilty
  exact ⟨early, draft, carried, conflict, conflicts⟩

end Governed

/-! ## What is calculated -/

/-- What is calculated to carry out an act on a cache is defined. -/
structure Defined (settings : Settings) (cache : Cache Value) : Prop where
  /-- Hashes are divided by the number of shards, and ticks of the sweeper
  too. -/
  inhabited : 0 < cache.shards.size
  routed : ∀ name, cache.route name < cache.shards.size
  /-- A padding is drawn only from a range that is not empty. -/
  drawn : ∀ window ∈ settings.refresh, ∀ shard ∈ cache.shards,
    window.latest - window.earliest ≠ 0 →
      (shard.takePadding (window.latest - window.earliest)).1 <
        window.latest - window.earliest
  /-- The time after which an entry is due is a duration. -/
  padded : ∀ window ∈ settings.refresh, ∀ shard ∈ cache.shards,
    window.earliest +
        (shard.takePadding (window.latest - window.earliest)).1 ≤
      Duration.longest
  /-- A shard from which entries have to be evicted has some. -/
  inhabitedShard : ∀ shard ∈ cache.shards, ∀ key, shard.isFullFor key →
    0 < shard.size
  /-- The last entry to be evicted is one of the candidates. -/
  selected : ∀ shard ∈ cache.shards, ∀ key, shard.isFullFor key →
    0 < Shard.evictionCount shard.size settings.evictionPercentage ∧
      Shard.evictionCount shard.size settings.evictionPercentage - 1 <
        shard.byExpiry.length
  /-- A share of a shard can be calculated with 64 bits, if the shard has less
  than a hundredth of the entries that these can count. -/
  scaled : ∀ shard ∈ cache.shards, shard.size * 100 < 18446744073709551616 →
    shard.size * settings.evictionPercentage < 18446744073709551616

/-- With valid settings everything is defined. -/
theorem Governed.defined
    {settings : Settings} {cache : Cache Value}
    (governed : Governed settings cache) : Defined settings cache := by
  have seats : ∀ shard ∈ cache.shards,
      ∃ index, cache.shards[index]? = some shard := fun shard member =>
    Array.mem_iff_getElem?.mp member
  have inhabited : ∀ shard ∈ cache.shards, ∀ key, shard.isFullFor key →
      0 < shard.size := by
    intro shard member key full
    obtain ⟨index, seat⟩ := seats shard member
    have share := governed.bounded.share seat
    have positive := shardCapacity_pos governed.valid
    have filled := (Shard.isFullFor_iff.mp full).2
    omega
  refine ⟨governed.coherent.inhabited, governed.coherent.route_lt, ?_, ?_,
    inhabited, ?_, ?_⟩
  · exact fun window _ shard _ => Shard.takePadding_lt
  · intro window set shard _
    obtain ⟨ordered, most⟩ :=
      governed.valid.window_le governed.expressible window set
    calc window.earliest +
          (shard.takePadding (window.latest - window.earliest)).1
        ≤ window.earliest + (window.latest - window.earliest) :=
          Nat.add_le_add_left (shard.takePadding_le _) _
      _ = window.latest := Nat.add_sub_of_le ordered
      _ ≤ Duration.longest := most
  · intro shard member key full
    obtain ⟨index, seat⟩ := seats shard member
    have some := inhabited shard member key full
    have count := Shard.evictionCount_pos settings.evictionPercentage some
    have most :=
      Shard.evictionCount_le shard.size settings.evictionPercentage
    rw [Shard.length_byExpiry (governed.coherent.shards seat)]
    exact ⟨count, by omega⟩
  · intro shard _ small
    exact Nat.lt_of_le_of_lt
      (Nat.mul_le_mul_left _ governed.valid.operable.percentage) small

end Cache

end ReadThrough
