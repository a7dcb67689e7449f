import Mathlib.Algebra.GroupWithZero.Nat
import ReadThrough.Proofs.Cache.Attempts
import ReadThrough.Proofs.Cache.Capacity
import ReadThrough.Proofs.Cache.Local
import ReadThrough.Proofs.Shard.Removing

/-!
# The books of a cache

The `Ledger` of a run counts what its acts did: how many names were looked up
and how many of these lookups were elected to refresh, how many writes of a new
key squeezed others out of a full shard, how many stored a key that was not
stored before, and how many deletions removed an entry.

The counters of the cache agree with the ledger, and its stock follows from it:
whatever arrived is still there, was evicted, or was removed (`posted_follow`).
The one thing that upsets the books is a clock that cannot be read, for a write
that has made room does not count what it evicted if it cannot go on.
-/

namespace ReadThrough

open Std (ExtTreeMap)

namespace Shard

variable {Value : Type} {shard : Shard Value}

theorem size_cleared
    (coherent : shard.Coherent) (percentage : Nat) (key : String) :
    (shard.cleared percentage key).size +
        (shard.evictees percentage key).length = shard.size := by
  refine size_eraseAll_of_nodup ?_ fun other member =>
    mem_entries_of_mem_evictees coherent member
  rw [evictees]
  split
  · exact nodup_victims coherent percentage
  · exact List.nodup_nil

end Shard

namespace Cache

variable {Value Result : Type}

/-! ## The size of a cache -/

theorem size_eq_sum (cache : Cache Value) :
    cache.size = (cache.shards.toList.map Shard.size).sum := by
  rw [size, List.sum, List.foldr_map]

theorem size_empty (settings : Settings) (paddings : Nat → List Nat) :
    (empty settings paddings : Cache Value).size = 0 := by
  have each : ∀ shard ∈ (empty settings paddings :
      Cache Value).shards.toList, shard.size ≤ 0 := by
    intro shard member
    obtain ⟨index, rfl⟩ :=
      Array.mem_ofFn.mp (Array.mem_toList_iff.mp member)
    exact Nat.le_refl 0
  exact Nat.le_zero.mp (size_le_of_each _ each)

theorem sum_set {items : List Nat} {index old : Nat}
    (seat : items[index]? = some old) (new : Nat) :
    (items.set index new).sum + old = items.sum + new := by
  induction items generalizing index with
  | nil => cases seat
  | cons head tail inductionHypothesis =>
      cases index with
      | zero =>
          cases seat
          simp only [List.set_cons_zero, List.sum_cons]
          omega
      | succ index =>
          have rest := inductionHypothesis seat
          simp only [List.set_cons_succ, List.sum_cons]
          omega

/-- What a changed shard adds to the cache it adds to the shard. -/
theorem Reseats.size_eq
    {index : Nat} {old new : Shard Value} {before after : Cache Value}
    (reseats : Reseats index new before after)
    (seat : before.shards[index]? = some old) :
    after.size + old.size = before.size + new.size := by
  have shards : after.shards = before.shards.setIfInBounds index new := by
    apply Array.ext_getElem?
    intro place
    rw [reseats.shards_eq]
    exact (getElem?_shards_withShard seat new place).symm
  rw [size_eq_sum, size_eq_sum, shards, Array.toList_setIfInBounds,
    List.map_set]
  refine sum_set ?_ new.size
  rw [List.getElem?_map, Array.getElem?_toList, seat]
  rfl

theorem Alike.size_cache
    {before after : Cache Value} (alike : Alike before after) :
    after.size = before.size := by
  have same : after.shards.toList.map Shard.size =
      before.shards.toList.map Shard.size := by
    apply List.ext_getElem?
    intro index
    rw [List.getElem?_map, List.getElem?_map, Array.getElem?_toList,
      Array.getElem?_toList]
    cases seat : before.shards[index]? with
    | none =>
        have outside := Array.getElem?_eq_none_iff.mp seat
        rw [← alike.size] at outside
        rw [Array.getElem?_eq_none_iff.mpr outside]
    | some shard =>
        obtain ⟨other, otherSeat, similar⟩ := alike.shards seat
        rw [otherSeat, Option.map_some, Option.map_some, similar.size_eq]
  rw [size_eq_sum, size_eq_sum, same]

end Cache

/-! ## Ledgers -/

/-- How often acts did what the books of a cache are about. -/
structure Ledger where
  /-- Lookups. -/
  lookups : Nat
  /-- Lookups that were elected to refresh. -/
  elections : Nat
  /-- Writes of a key not stored that found their shard full and went
  through. -/
  squeezes : Nat
  /-- Writes that stored a key not stored before. -/
  arrivals : Nat
  /-- Deletions that removed an entry. -/
  removals : Nat
  deriving DecidableEq, Repr

namespace Ledger

/-- Nothing was done. -/
def blank : Ledger :=
  { lookups := 0, elections := 0, squeezes := 0, arrivals := 0,
    removals := 0 }

/-- What one ledger says and another says as well. -/
def add (first second : Ledger) : Ledger :=
  { lookups := first.lookups + second.lookups
    elections := first.elections + second.elections
    squeezes := first.squeezes + second.squeezes
    arrivals := first.arrivals + second.arrivals
    removals := first.removals + second.removals }

end Ledger

namespace Cache

variable {Value Result : Type}

/-- Whether an action comes to its end. -/
def returns (action : Action Value Result) (cache : Cache Value) : Bool :=
  (answer action cache).toBool

/-- A write of a key that is not stored finds its shard full; it is not dropped,
and no fault breaks it off. -/
def Squeezes
    (settings : Settings) (cache : Cache Value) (draft : Draft Value) :
    Prop :=
  (∃ shard ∈ cache.shards[cache.route draft.key]?,
      shard.isFullFor draft.key) ∧
    ¬ cache.Drops settings draft.key ∧
      returns (writeDraft settings draft) cache

/-- A write stores a key that was not stored before in its shard. -/
def Arrives
    (settings : Settings) (cache : Cache Value) (draft : Draft Value) :
    Prop :=
  ¬ cache.Stores (cache.route draft.key) draft.key ∧
    (after settings cache (.write draft)).Stores (cache.route draft.key)
      draft.key

instance (settings : Settings) (cache : Cache Value) (draft : Draft Value) :
    Decidable (cache.Squeezes settings draft) :=
  inferInstanceAs (Decidable ((∃ shard ∈ cache.shards[cache.route
    draft.key]?, shard.isFullFor draft.key) ∧ _ ∧ _))

instance (settings : Settings) (cache : Cache Value) (draft : Draft Value) :
    Decidable (cache.Arrives settings draft) :=
  inferInstanceAs (Decidable (¬ _ ∧ _))

/-- What an act adds to the ledger. -/
def entered (settings : Settings) (cache : Cache Value) :
    Act Value → Ledger
  | .quiet (.lookup name) =>
      { Ledger.blank with
        lookups := 1
        elections :=
          match answer (lookup settings name) cache with
          | .ok found => if found.refreshes then 1 else 0
          | .error _ => 0 }
  | .write draft =>
      { Ledger.blank with
        squeezes := if cache.Squeezes settings draft then 1 else 0
        arrivals := if cache.Arrives settings draft then 1 else 0 }
  | .delete name =>
      { Ledger.blank with
        removals :=
          match answer (delete name) cache with
          | .ok true => 1
          | _ => 0 }
  | _ => .blank

/-- What acts add to the ledger, one after the other. -/
def ledger (settings : Settings) :
    Cache Value → List (Act Value) → Ledger
  | _, [] => .blank
  | cache, act :: acts =>
      (entered settings cache act).add
        (ledger settings (after settings cache act) acts)

/-- No act meets a clock that cannot be read. -/
def Legible (settings : Settings) : Cache Value → List (Act Value) → Prop
  | _, [] => True
  | cache, act :: acts =>
      answer (act.action settings) cache ≠ .error .instantOverflow ∧
        Legible settings (after settings cache act) acts

instance decidableLegible (settings : Settings) :
    (cache : Cache Value) → (acts : List (Act Value)) →
      Decidable (Legible settings cache acts)
  | _, [] => isTrue trivial
  | cache, act :: acts =>
      have := decidableLegible settings (after settings cache act) acts
      inferInstanceAs (Decidable (_ ∧ _))

theorem legible_append
    {settings : Settings} {cache : Cache Value}
    {early late : List (Act Value)} :
    Legible settings cache (early ++ late) ↔
      Legible settings cache early ∧
        Legible settings (follow settings cache early) late := by
  induction early generalizing cache with
  | nil => simp [Legible]
  | cons act early inductionHypothesis =>
      rw [List.cons_append, Legible, inductionHypothesis, Legible,
        follow_cons, and_assoc]

/-- The books of a cache have moved by what a ledger says. -/
structure Posted (ledger : Ledger) (before after : Cache Value) : Prop where
  lookups :
    after.counters.hits + after.counters.misses +
        after.counters.missingHits =
      before.counters.hits + before.counters.misses +
        before.counters.missingHits + ledger.lookups.toUInt64
  elections : after.counters.refreshes =
    before.counters.refreshes + ledger.elections.toUInt64
  squeezes : after.counters.forcedEvictions =
    before.counters.forcedEvictions + ledger.squeezes.toUInt64
  stock :
    after.size.toUInt64 + after.counters.evictions +
        ledger.removals.toUInt64 =
      before.size.toUInt64 + before.counters.evictions +
        ledger.arrivals.toUInt64

theorem toUInt64_add (left right : Nat) :
    (left + right).toUInt64 = left.toUInt64 + right.toUInt64 :=
  UInt64.ofNat_add left right

/-- The stock balances where the sizes do, if what was evicted is counted. -/
theorem stock_of_sizes
    {before after : Cache Value} {evicted removals arrivals : Nat}
    (counted : after.counters.evictions =
      before.counters.evictions + evicted.toUInt64)
    (sizes : after.size + evicted + removals = before.size + arrivals) :
    after.size.toUInt64 + after.counters.evictions + removals.toUInt64 =
      before.size.toUInt64 + before.counters.evictions +
        arrivals.toUInt64 := by
  calc
    _ = before.counters.evictions +
          (after.size + evicted + removals).toUInt64 := by
      rw [counted, toUInt64_add, toUInt64_add]
      ac_rfl
    _ = _ := by
      rw [sizes, toUInt64_add]
      ac_rfl

namespace Posted

variable {before middle after : Cache Value} {early late : Ledger}

/-- Where nothing is entered, the books stand still. -/
theorem of_still
    (counters : after.counters = before.counters)
    (size : after.size = before.size) : Posted .blank before after := by
  refine ⟨?_, ?_, ?_, ?_⟩
  · simp [counters, Ledger.blank]
  · simp [counters, Ledger.blank]
  · simp [counters, Ledger.blank]
  · simp [counters, size, Ledger.blank]

theorem add
    (first : Posted early before middle)
    (second : Posted late middle after) :
    Posted (early.add late) before after := by
  refine ⟨?_, ?_, ?_, ?_⟩
  · rw [second.lookups, first.lookups, Ledger.add, toUInt64_add,
      UInt64.add_assoc]
  · rw [second.elections, first.elections, Ledger.add, toUInt64_add,
      UInt64.add_assoc]
  · rw [second.squeezes, first.squeezes, Ledger.add, toUInt64_add,
      UInt64.add_assoc]
  · have earlier := first.stock
    have later := second.stock
    simp only [Ledger.add, toUInt64_add]
    calc
      after.size.toUInt64 + after.counters.evictions +
            (early.removals.toUInt64 + late.removals.toUInt64) =
          after.size.toUInt64 + after.counters.evictions +
            late.removals.toUInt64 + early.removals.toUInt64 := by
        rw [UInt64.add_comm early.removals.toUInt64, UInt64.add_assoc,
          UInt64.add_assoc, UInt64.add_assoc]
      _ = middle.size.toUInt64 + middle.counters.evictions +
            early.removals.toUInt64 + late.arrivals.toUInt64 := by
        rw [later, UInt64.add_assoc, UInt64.add_comm late.arrivals.toUInt64,
          ← UInt64.add_assoc]
      _ = _ := by rw [earlier, UInt64.add_assoc]

end Posted

theorem answer_discard_ne
    {action : Action Value Result} {cache : Cache Value} {fault : Fault} :
    answer (discard action) cache ≠ .error fault ↔
      answer action cache ≠ .error fault := by
  rw [show discard action = (fun _ => ()) <$> action from rfl, answer_map]
  cases answer action cache with
  | ok result => simp [Except.map]
  | error other => simp [Except.map]

/-! ## What acts count -/

theorem Ends.and
    {action : Action Value Result} {cache : Cache Value}
    {returns returnsToo : Result → Cache Value → Prop}
    {breaks breaksToo : Fault → Cache Value → Prop}
    (ends : Ends action cache returns breaks)
    (endsToo : Ends action cache returnsToo breaksToo) :
    Ends action cache
      (fun result next => returns result next ∧ returnsToo result next)
      (fun fault next => breaks fault next ∧ breaksToo fault next) := by
  rw [Ends] at ends endsToo ⊢
  cases run : action.run cache with
  | ok result next =>
      rw [run] at ends endsToo
      exact ⟨ends, endsToo⟩
  | error fault next =>
      rw [run] at ends endsToo
      exact ⟨ends, endsToo⟩

/-- An action counts nothing. -/
def Uncounted (before after : Cache Value) : Prop :=
  after.counters = before.counters

instance : IsPreorder (Cache Value) Uncounted where
  refl _ := rfl
  trans _ _ _ := by
    intro first second
    exact Eq.trans second first

section Uncounted

theorem uncounted_readClock :
    Respects Uncounted (readClock : Action Value Instant) := by
  intro cache
  rw [ends_readClock]
  split
  · exact rfl
  · exact rfl

theorem uncounted_shardIndex (name : String) :
    Respects (@Uncounted Value) (shardIndex name) := fun _ =>
  ends_shardIndex (fun _ => rfl) rfl

theorem uncounted_putShard (index : Nat) (shard : Shard Value) :
    Respects Uncounted (putShard index shard) := fun _ => rfl

theorem uncounted_getFrom
    (settings : Settings) (index : Nat) (name : String) :
    Respects (@Uncounted Value) (getFrom settings index name) := by
  refine (respects_shardAt index).bind fun shard => ?_
  refine uncounted_readClock.bind fun first => ?_
  split
  · exact respects_pure _
  · refine uncounted_readClock.bind fun second => ?_
    exact (uncounted_putShard index _).bind fun _ => respects_pure _

theorem uncounted_delete (name : String) :
    Respects (@Uncounted Value) (delete name) :=
  (uncounted_shardIndex name).bind fun index =>
    (respects_shardAt index).bind fun _ =>
      (uncounted_putShard index _).bind fun _ => respects_pure _

/-- Of the quiet acts only lookups are counted. -/
theorem uncounted_quiet
    (settings : Settings) (silent : Quiet)
    (otherwise : ∀ name, silent ≠ .lookup name) :
    Respects (@Uncounted Value) (silent.action settings) := by
  cases silent with
  | advance duration =>
      intro cache
      rw [Quiet.action, ends_advanceClock]
      split
      · exact rfl
      · exact rfl
  | layDown readings => exact fun _ => rfl
  | emptyJournal => exact fun _ => rfl
  | route name => exact (uncounted_shardIndex name).discard
  | lookup name => exact absurd rfl (otherwise name)
  | peek name =>
      refine Respects.discard ?_
      refine (uncounted_shardIndex name).bind fun index => ?_
      refine (respects_shardAt index).bind fun shard => ?_
      exact (uncounted_readClock.bind fun _ => respects_pure _).ite
        (respects_pure _)
  | readShard index name =>
      exact (uncounted_getFrom settings index name).discard
  | listShard index =>
      exact ((respects_shardAt index).bind fun _ =>
        uncounted_readClock.bind fun _ => respects_pure _).discard

end Uncounted

theorem counters_withShard
    (cache : Cache Value) (index : Nat) (shard : Shard Value) :
    (cache.withShard index shard).counters = cache.counters := rfl

end Cache

/-- What a lookup is counted as. -/
def Lookup.event {Value : Type} : Lookup Value → Event
  | .absent => .miss
  | .found _ _ => .hit
  | .missing _ => .missingHit

/-- The counters after a lookup. -/
def Counters.countLookup {Value : Type}
    (counters : Counters) (found : Lookup Value) : Counters :=
  if found.refreshes then (counters.count found.event).count .refresh
  else counters.count found.event

namespace Counters

variable {Value : Type} (counters : Counters) (found : Lookup Value)

theorem countLookup_reads :
    (counters.countLookup found).hits +
        (counters.countLookup found).misses +
          (counters.countLookup found).missingHits =
      counters.hits + counters.misses + counters.missingHits + 1 := by
  have reads : (counters.count found.event).hits +
      (counters.count found.event).misses +
        (counters.count found.event).missingHits =
          counters.hits + counters.misses + counters.missingHits + 1 := by
    cases found with
    | absent =>
        change _ + (_ + 1) + _ = _ + _ + _ + (1 : UInt64)
        ac_rfl
    | found value refresh =>
        change (_ + 1) + _ + _ = _ + _ + _ + (1 : UInt64)
        ac_rfl
    | missing refresh =>
        change _ + _ + (_ + 1) = _ + _ + _ + (1 : UInt64)
        ac_rfl
  rw [countLookup]
  split
  · exact reads
  · exact reads

theorem countLookup_refreshes :
    (counters.countLookup found).refreshes =
      counters.refreshes + (if found.refreshes then 1 else 0) := by
  have before :
      (counters.count found.event).refreshes = counters.refreshes := by
    cases found with
    | _ => rfl
  rw [countLookup]
  split
  · exact congrArg (· + 1) before
  · rw [before]
    exact (UInt64.add_zero _).symm

/-- A lookup counts no evictions of either kind. -/
theorem countLookup_evictions :
    (counters.countLookup found).forcedEvictions =
        counters.forcedEvictions ∧
      (counters.countLookup found).evictions = counters.evictions := by
  have before :
      (counters.count found.event).forcedEvictions =
          counters.forcedEvictions ∧
        (counters.count found.event).evictions = counters.evictions := by
    cases found with
    | _ => exact ⟨rfl, rfl⟩
  rw [countLookup]
  split
  · exact before
  · exact before

end Counters

namespace Cache

variable {Value Result : Type}

section Counting

variable {settings : Settings} {cache : Cache Value}

theorem ends_recordLookup_counters (found : Lookup Value) :
    Ends (recordLookup found) cache
      (fun _ next => next.counters = cache.counters.countLookup found)
      (fun _ _ => False) := by
  cases found with
  | absent => exact rfl
  | found value refresh =>
      cases refresh with
      | false => exact rfl
      | true => exact rfl
  | missing refresh =>
      cases refresh with
      | false => exact rfl
      | true => exact rfl

theorem ends_getFrom_counters
    {index : Nat} {shard : Shard Value}
    (seat : cache.shards[index]? = some shard) (name : String) :
    Ends (getFrom settings index name) cache
      (fun _ next => next.counters = cache.counters)
      (fun fault _ => fault = .instantOverflow) := by
  rw [getFrom, ends_bind, ends_shardAt, seat]
  dsimp only
  rw [ends_bind, ends_readClock]
  split
  next first clock reading =>
    split
    · exact rfl
    · rw [ends_bind, ends_readClock]
      split
      · simp only [ends_bind, ends_putShard, ends_pure]
        exact rfl
      next fault later unread =>
        exact Clock.read_fault (congrArg Prod.fst unread)
  next fault clock unread =>
    exact Clock.read_fault (congrArg Prod.fst unread)

variable (settings) in
theorem ends_lookup_counters
    {name : String} {shard : Shard Value}
    (seat : cache.shards[cache.route name]? = some shard) :
    Ends (lookup settings name) cache
      (fun found next => next.counters = cache.counters.countLookup found)
      (fun fault _ => fault = .instantOverflow) := by
  have routedSeat :
      (cache.noted (.routed (cache.route name))).shards[cache.route name]? =
        some shard := seat
  rw [lookup, ends_bind, ends_shardIndex_of_seat seat, ends_bind]
  refine (ends_getFrom_counters routedSeat name).weaken ?_ fun _ _ => id
  intro found next read
  rw [ends_bind]
  refine (ends_recordLookup_counters found).weaken ?_
    fun _ _ impossible => impossible.elim
  intro _ last counted
  rw [ends_pure, counted, read]
  rfl

theorem ends_sweep_counters
    {index : Nat} {shard : Shard Value}
    (seat : cache.shards[index]? = some shard) :
    Ends (sweep index) cache
      (fun number next =>
        next.counters = cache.counters.count (.evicted number))
      (fun _ next => next.counters = cache.counters) := by
  have nothing : ∀ counters : Counters,
      counters = counters.count (.evicted 0) := by
    intro counters
    simp [Counters.count]
  rw [sweep, ends_bind, ends_shardAt, seat]
  dsimp only
  rw [ends_bind, ends_readClock]
  split
  next now clock _ =>
    simp only [ends_bind, ends_putShard, ends_ite, ends_record, ends_pure]
    split
    · exact rfl
    next none =>
      rw [ne_eq, not_not] at none
      rw [none]
      exact nothing cache.counters
  next => exact rfl

theorem ends_drawRefreshTime_counters
    (refresh : Option RefreshWindow) (index : Nat) (now : Instant) :
    Ends (drawRefreshTime refresh index now) cache
      (fun _ next => next.counters = cache.counters)
      (fun _ _ => True) := by
  unfold drawRefreshTime
  cases refresh with
  | none => exact rfl
  | some window =>
      rw [ends_bind, ends_shardAt]
      split
      · simp only [ends_bind, ends_putShard, ends_ite, ends_throw,
          ends_pure]
        split
        · trivial
        · exact rfl
      · trivial

/-- A write that had to evict entries counts itself and what it evicted. -/
theorem ends_write_counters
    {key : String} {value : Option Value} {aliases : List String}
    {shard : Shard Value}
    (seat : cache.shards[cache.route key]? = some shard) :
    Ends (write settings key value aliases) cache
      (fun evicted next => next.counters =
        if evicted then
          (cache.counters.count .forcedEviction).count
            (.evicted (shard.victims settings.evictionPercentage).length)
        else cache.counters)
      (fun _ _ => True) := by
  have routedSeat :
      (cache.noted (.routed (cache.route key))).shards[cache.route key]? =
        some shard := seat
  rw [write_eq, ends_bind, ends_shardIndex_of_seat seat, ends_bind]
  refine (ends_registerAliases routedSeat aliases).weaken ?_
    fun _ _ _ => trivial
  intro _ claimed claims
  have claimedSeat : claimed.shards[cache.route key]? = some shard := by
    rw [claims.shards, routedSeat]
  have counted : claimed.counters = cache.counters := by
    rw [claims.rest]
    rfl
  rw [writeTo, ends_bind, ends_shardAt, claimedSeat]
  dsimp only
  rw [ends_ite]
  split
  · exact counted
  next room =>
    simp only [ends_bind, ends_putShard, ends_readClock]
    split
    next now clock _ =>
      refine (ends_drawRefreshTime_counters settings.refresh _ now).weaken
        ?_ fun _ _ _ => trivial
      intro refreshAt drawn same
      rw [ends_shardAt]
      split
      next roomy _ =>
        have noted : drawn.counters = cache.counters := by
          rw [same, ← counted]
          rfl
        simp only [ends_ite, ends_record, ends_bind, ends_pure]
        by_cases full : shard.isFullFor key = true
        · simp only [full, if_true]
          split
          · simp only [Cache.noted, counters_withShard, noted]
          next nobody =>
            rw [ne_eq, not_not] at nobody
            simp only [Cache.noted, counters_withShard, noted, nobody,
              List.length_nil, Counters.count]
            simp
        · simp only [full, Bool.false_eq_true, if_false]
          exact noted
      next => trivial
    next => trivial

end Counting

/-! ## The books balance -/

section Balance

variable {settings : Settings} {cache : Cache Value}

/-- A quiet act that is no lookup leaves the books alone. -/
theorem posted_quiet
    {silent : Quiet} (otherwise : ∀ name, silent ≠ .lookup name) :
    Posted (entered settings cache (.quiet silent)) cache
      (after settings cache (.quiet silent)) := by
  have nothing : entered settings cache (.quiet silent) = .blank := by
    cases silent with
    | lookup name => exact absurd rfl (otherwise name)
    | _ => rfl
  rw [nothing]
  have alike := respects_final (respects_quiet_alike settings silent) cache
  exact .of_still
    (respects_final (uncounted_quiet settings silent otherwise) cache)
    alike.size_cache

theorem posted_lookup
    (coherent : cache.Coherent) {name : String}
    (legible : answer (lookup settings name) cache ≠
      .error .instantOverflow) :
    Posted (entered settings cache (.quiet (.lookup name))) cache
      (after settings cache (.quiet (.lookup name))) := by
  obtain ⟨shard, seat⟩ := coherent.seat name
  have counted := ends_lookup_counters settings seat
  have size := (respects_final (respects_lookup_alike settings name)
    cache).size_cache
  have left : after settings cache (.quiet (.lookup name)) =
      final (lookup settings name) cache := final_discard _ _
  rw [left]
  rw [ends_iff_answer] at counted
  rw [entered]
  cases answered : answer (lookup settings name) cache with
  | error fault =>
      rw [answered] at counted legible
      exact absurd (congrArg Except.error counted) legible
  | ok found =>
      rw [answered] at counted
      dsimp only at counted ⊢
      obtain ⟨squeezes, evictions⟩ :=
        cache.counters.countLookup_evictions found
      rw [← counted] at squeezes evictions
      refine ⟨?_, ?_, ?_, ?_⟩
      · rw [counted]
        exact cache.counters.countLookup_reads found
      · rw [counted, cache.counters.countLookup_refreshes found]
        split
        · rfl
        · rfl
      · rw [squeezes]
        exact (UInt64.add_zero _).symm
      · rw [evictions, size]
        rfl

theorem posted_delete (coherent : cache.Coherent) (name : String) :
    Posted (entered settings cache (.delete name)) cache
      (after settings cache (.delete name)) := by
  obtain ⟨shard, seat⟩ := coherent.seat name
  have left : after settings cache (.delete name) =
      final (delete name) cache := final_discard _ _
  have counters : (final (delete name) cache).counters = cache.counters :=
    respects_final (uncounted_delete name) cache
  have deleted := ends_iff_answer.mp (ends_delete seat)
  rw [left, entered]
  cases answered : answer (delete name) cache with
  | error fault =>
      rw [answered] at deleted
      exact deleted.elim
  | ok existed =>
      rw [answered] at deleted
      obtain ⟨same, _, reseats⟩ := deleted
      have sizes := reseats.size_eq seat
      by_cases stored : shard.primary name ∈ shard.entries
      · have isTrue : existed = true := same.trans (decide_eq_true stored)
        have fewer : (shard.delete name).2.size + 1 = shard.size :=
          Shard.size_erase_of_stored stored
        have total : (final (delete name) cache).size + 0 + 1 =
            cache.size + 0 := by
          omega
        have none : (final (delete name) cache).counters.evictions =
            cache.counters.evictions + (0 : Nat).toUInt64 := by
          rw [counters]
          exact (UInt64.add_zero _).symm
        subst isTrue
        refine ⟨?_, ?_, ?_, ?_⟩
        · simp [counters, Ledger.blank]
        · simp [counters, Ledger.blank]
        · simp [counters, Ledger.blank]
        · exact stock_of_sizes none total
      · have isFalse : existed = false :=
          same.trans (decide_eq_false stored)
        have sameShard : (shard.delete name).2 = shard := by
          rw [Shard.delete, Shard.erase, if_neg stored]
        have total : (final (delete name) cache).size = cache.size := by
          rw [sameShard] at sizes
          omega
        subst isFalse
        exact .of_still counters total

theorem posted_sweep (coherent : cache.Coherent) (index : Nat) :
    Posted (entered settings cache (.sweep index)) cache
      (after settings cache (.sweep index)) := by
  have left : after settings cache (.sweep index) =
      final (sweep index) cache := final_discard _ _
  rw [left]
  cases seat : cache.shards[index]? with
  | none =>
      have same : final (sweep index) cache = cache :=
        ends_iff_final.mp ((ends_sweep_of_no_seat seat).weaken
          (fun _ _ impossible => impossible.elim) fun _ _ broken => broken.2)
      rw [same]
      exact .of_still rfl rfl
  | some shard =>
      have swept :=
        ends_iff_answer.mp ((ends_sweep seat).and (ends_sweep_counters seat))
      cases answered : answer (sweep index) cache with
      | error fault =>
          rw [answered] at swept
          exact .of_still swept.2 swept.1.2.size_cache
      | ok number =>
          rw [answered] at swept
          obtain ⟨⟨now, _, rfl, reseats⟩, counted⟩ := swept
          have old := coherent.shards seat
          have sizes := reseats.size_eq seat
          have fewer := Shard.size_eraseAll_of_nodup
            (Shard.nodup_expiredKeys old now)
            fun _ => Shard.mem_entries_of_mem_expiredKeys old
          refine ⟨?_, ?_, ?_, stock_of_sizes (congrArg _ counted) ?_⟩
          · simp [counted, entered, Ledger.blank, Counters.count]
          · simp [counted, entered, Ledger.blank, Counters.count]
          · simp [counted, entered, Ledger.blank, Counters.count]
          · change _ + _ + 0 = _ + 0
            omega

/-- What a stored write makes of the size of a cache. -/
theorem size_of_stored
    {key : String} {shard roomy : Shard Value} {entry : Entry Value}
    {claimed next : Cache Value} {aliases : List String} {percentage : Nat}
    (coherent : cache.Coherent)
    (seat : cache.shards[cache.route key]? = some shard)
    (shards : claimed.shards = cache.shards)
    (alike : (shard.cleared percentage key).Alike roomy)
    (reseats : Reseats (cache.route key)
      (roomy.upsert entry aliases) claimed next)
    (keyed : entry.key = key) :
    next.size + (shard.evictees percentage key).length =
      cache.size + if key ∈ shard.entries then 0 else 1 := by
  have claimedSeat : claimed.shards[cache.route key]? = some shard := by
    rw [shards, seat]
  have claimedSize : claimed.size = cache.size := by
    rw [size, size, shards]
  have sizes := reseats.size_eq claimedSeat
  have cleared := Shard.size_cleared (coherent.shards seat) percentage key
  simp only [Shard.size_upsert, keyed, alike.size_eq, alike.mem_entries]
    at sizes
  by_cases stored : key ∈ shard.entries
  · have room : ¬ shard.isFullFor key := fun full =>
      (Shard.isFullFor_iff.mp full).1 stored
    rw [Shard.cleared_of_room room, if_pos stored] at sizes
    rw [Shard.cleared_of_room room] at cleared
    rw [if_pos stored]
    omega
  · have absent : key ∉ (shard.cleared percentage key).entries :=
      fun still => stored (Shard.mem_entries_eraseAll.mp still).1
    rw [if_neg absent] at sizes
    rw [if_neg stored]
    omega

/-- A write that changes no shard and squeezes nothing out leaves the books
alone. -/
theorem posted_write_of_unchanged
    {draft : Draft Value} {next : Cache Value}
    (left : after settings cache (.write draft) = next)
    (shards : next.shards = cache.shards)
    (counters : next.counters = cache.counters)
    (gentle : ¬ cache.Squeezes settings draft) :
    Posted (entered settings cache (.write draft)) cache next := by
  have nothingNew : ¬ cache.Arrives settings draft := by
    rintro ⟨absent, present⟩
    rw [left, Stores, shards] at present
    exact absent present
  have nothing : entered settings cache (.write draft) = .blank := by
    rw [entered, if_neg gentle, if_neg nothingNew]
    rfl
  rw [nothing]
  refine .of_still counters ?_
  rw [size, size, shards]

/-- A write that stores its entry, and what it squeezes out for it. -/
theorem posted_write_of_stored
    {draft : Draft Value} {shard : Shard Value} {next : Cache Value}
    (squeezes : cache.Squeezes settings draft ↔
      shard.isFullFor draft.key = true)
    (arrives : cache.Arrives settings draft ↔ draft.key ∉ shard.entries)
    (sizes : next.size +
        (shard.evictees settings.evictionPercentage draft.key).length =
      cache.size + if draft.key ∈ shard.entries then 0 else 1)
    (counted : next.counters =
      if shard.isFullFor draft.key = true then
        (cache.counters.count .forcedEviction).count
          (.evicted (shard.victims settings.evictionPercentage).length)
      else cache.counters) :
    Posted (entered settings cache (.write draft)) cache next := by
  rw [entered]
  by_cases full : shard.isFullFor draft.key = true
  · have absent := (Shard.isFullFor_iff.mp full).1
    rw [if_pos (squeezes.mpr full), if_pos (arrives.mpr absent)]
    rw [if_pos full] at counted
    rw [Shard.evictees, if_pos full, if_neg absent] at sizes
    refine ⟨?_, ?_, ?_, stock_of_sizes (congrArg _ counted) ?_⟩
    · simp [counted, Ledger.blank, Counters.count]
    · simp [counted, Ledger.blank, Counters.count]
    · rw [counted]
      rfl
    · change _ + _ + 0 = _
      omega
  · rw [if_neg (mt squeezes.mp full)]
    rw [if_neg full] at counted
    rw [Shard.evictees, if_neg full] at sizes
    have none : next.counters.evictions =
        cache.counters.evictions + (0 : Nat).toUInt64 := by
      rw [counted]
      exact (UInt64.add_zero _).symm
    refine ⟨?_, ?_, ?_, stock_of_sizes none ?_⟩
    · simp [counted, Ledger.blank]
    · simp [counted, Ledger.blank]
    · simp [counted]
    · by_cases known : draft.key ∈ shard.entries
      · rw [if_neg fun new => arrives.mp new known]
        rw [if_pos known] at sizes
        exact sizes
      · rw [if_pos (arrives.mpr known)]
        rw [if_neg known] at sizes
        exact sizes

theorem posted_write
    (coherent : cache.Coherent)
    (expressible : ∀ window ∈ settings.refresh,
      window.earliest ≤ window.latest ∧ window.latest ≤ Duration.longest)
    {draft : Draft Value}
    (legible : answer (writeDraft settings draft) cache ≠
      .error .instantOverflow) :
    Posted (entered settings cache (.write draft)) cache
      (after settings cache (.write draft)) := by
  obtain ⟨shard, seat⟩ := coherent.seat draft.key
  have left : after settings cache (.write draft) =
      final (writeDraft settings draft) cache := final_discard _ _
  have unstored := ends_iff_answer.mp
    (ends_writeDraft_unstored coherent expressible draft)
  have written : Ends (writeDraft settings draft) cache _ _ :=
    (ends_write seat).and (ends_write_counters seat)
  have written := ends_iff_answer.mp written
  cases answered : answer (writeDraft settings draft) cache with
  | error fault =>
      rw [answered] at unstored legible
      -- Unless it cannot read the clock, a write breaks off before it evicts.
      rcases unstored with ⟨_, _, refused⟩ | ⟨rfl, _⟩
      · refine left ▸ posted_write_of_unchanged left refused.shards
          refused.counters fun squeezes => ?_
        have returned := squeezes.2.2
        rw [returns, answered] at returned
        cases returned
      · exact absurd rfl legible
  | ok evicted =>
      rw [answered] at unstored written
      obtain ⟨outcome, counted⟩ := written
      cases outcome with
      | dropped refuses claims =>
          have drops := (drops_iff_of_seat seat).mpr refuses
          have refused := (unstored.2 drops).2
          exact left ▸ posted_write_of_unchanged left refused.shards
            refused.counters fun squeezes => squeezes.2.1 drops
      | @stored claimed _ now refreshAt padding roomy room claims reading
          refreshTime alike reseats =>
          have sizes := size_of_stored coherent seat claims.shards alike
            reseats rfl
          have kept : ¬ cache.Drops settings draft.key := fun drops =>
            room ((drops_iff_of_seat seat).mp drops)
          have returned : returns (writeDraft settings draft) cache := by
            rw [returns, answered]
            rfl
          have present : (after settings cache (.write draft)).Stores
              (cache.route draft.key) draft.key := by
            rw [left, stores_iff_of_seat reseats.seat, Shard.entries_upsert]
            exact ExtTreeMap.mem_insert_self
          have squeezes : cache.Squeezes settings draft ↔
              shard.isFullFor draft.key := by
            simp [Squeezes, seat, kept, returned]
          have arrives : cache.Arrives settings draft ↔
              draft.key ∉ shard.entries := by
            rw [Arrives, stores_iff_of_seat seat]
            exact and_iff_left present
          rw [left]
          exact posted_write_of_stored squeezes arrives sizes counted

/-- Whatever an act does, the books move by what it enters. -/
theorem posted_after
    (coherent : cache.Coherent)
    (expressible : ∀ window ∈ settings.refresh,
      window.earliest ≤ window.latest ∧ window.latest ≤ Duration.longest)
    {act : Act Value}
    (legible : answer (act.action settings) cache ≠
      .error .instantOverflow) :
    Posted (entered settings cache act) cache (after settings cache act) := by
  cases act with
  | quiet silent =>
      cases silent with
      | lookup name =>
          exact posted_lookup coherent (answer_discard_ne.mp legible)
      | _ => exact posted_quiet fun _ same => by cases same
  | write draft =>
      exact posted_write coherent expressible (answer_discard_ne.mp legible)
  | delete name => exact posted_delete coherent name
  | sweep index => exact posted_sweep coherent index

/-- The books balance after any acts that met no clock that cannot be read. -/
theorem posted_follow
    (coherent : cache.Coherent)
    (expressible : ∀ window ∈ settings.refresh,
      window.earliest ≤ window.latest ∧ window.latest ≤ Duration.longest)
    {acts : List (Act Value)} (legible : Legible settings cache acts) :
    Posted (ledger settings cache acts) cache
      (follow settings cache acts) := by
  induction acts generalizing cache with
  | nil => exact .of_still rfl rfl
  | cons act acts inductionHypothesis =>
      obtain ⟨first, rest⟩ := legible
      exact (posted_after coherent expressible first).add
        (inductionHypothesis (coherent.after settings act) rest)

end Balance

end Cache

end ReadThrough
