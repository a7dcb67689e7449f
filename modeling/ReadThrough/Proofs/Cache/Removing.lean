import ReadThrough.Cache.Write
import ReadThrough.Proofs.Cache.Reading

/-!
# Removing entries from a cache

A deletion and a sweep change one shard and put it back in its place: the cache
that they leave behind `Reseats` that shard.  A deletion never ends in a fault;
a sweep does when its shard does not exist or the clock cannot be read, and then
leaves the cache `Alike`.
-/

namespace ReadThrough.Cache

variable {Value : Type}

/-! ## A shard in its place -/

/-- A cache has a shard at an index, and otherwise the shards and the routes of
another cache. -/
structure Reseats
    (index : Nat) (shard : Shard Value) (before after : Cache Value) :
    Prop where
  routes : after.routes = before.routes
  size : after.shards.size = before.shards.size
  seat : after.shards[index]? = some shard
  others : ∀ {other : Nat}, other ≠ index →
    after.shards[other]? = before.shards[other]?

namespace Reseats

variable {index : Nat} {shard other : Shard Value}
  {before middle after : Cache Value}

theorem of_eq
    (seat : before.shards[index]? = some shard)
    (shards : after.shards = before.shards)
    (routes : after.routes = before.routes) :
    Reseats index shard before after where
  routes := routes
  size := by rw [shards]
  seat := by rw [shards, seat]
  others _ := by rw [shards]

theorem of_withShard (seat : before.shards[index]? = some shard) :
    Reseats index other before (before.withShard index other) where
  routes := rfl
  size := size_shards_withShard before index other
  seat := by rw [getElem?_shards_withShard seat, if_pos rfl]
  others apart := by rw [getElem?_shards_withShard seat, if_neg apart]

theorem trans
    (first : Reseats index shard before middle)
    (second : Reseats index other middle after) :
    Reseats index other before after where
  routes := second.routes.trans first.routes
  size := second.size.trans first.size
  seat := second.seat
  others apart := (second.others apart).trans (first.others apart)

theorem from_withShard
    (reseats : Reseats index shard before after) (passing : Shard Value) :
    Reseats index shard (before.withShard index passing) after where
  routes := reseats.routes
  size := by rw [reseats.size, size_shards_withShard]
  seat := reseats.seat
  others {place} apart := by
    rw [reseats.others apart, withShard, Array.getElem?_setIfInBounds_ne]
    exact Ne.symm apart

theorem shards_eq
    (reseats : Reseats index shard before after) (place : Nat) :
    after.shards[place]? =
      if place = index then some shard else before.shards[place]? := by
  split
  next same => rw [same, reseats.seat]
  next apart => exact reseats.others apart

end Reseats

section Removing

variable {cache : Cache Value} {shard : Shard Value}

/-- A deletion removes what the name leads to in the shard that it is routed
to. -/
theorem ends_delete
    {name : String} (seat : cache.shards[cache.route name]? = some shard) :
    Ends (delete name) cache
      (fun existed next =>
        existed = (shard.delete name).1 ∧ next.clock = cache.clock ∧
          Reseats (cache.route name) (shard.delete name).2 cache next)
      (fun _ _ => False) := by
  have routedSeat :
      (cache.noted (.routed (cache.route name))).shards[cache.route name]? =
        some shard := seat
  rw [delete, ends_bind, ends_shardIndex_of_seat seat, ends_bind,
    ends_shardAt, routedSeat]
  simp only [ends_bind, ends_putShard, ends_pure]
  have routed : Reseats (cache.route name) shard cache
      (cache.noted (.routed (cache.route name))) := .of_eq seat rfl rfl
  exact ⟨trivial, rfl, routed.trans (.of_withShard routedSeat)⟩

theorem ends_sweep
    {index : Nat} (seat : cache.shards[index]? = some shard) :
    Ends (sweep index) cache
      (fun count next => ∃ now, cache.clock.read = (.ok now, next.clock) ∧
        count = (shard.expiredKeys now).length ∧
          Reseats index (shard.eraseAll (shard.expiredKeys now)) cache next)
      (fun fault next => cache.clock.read = (.error fault, next.clock) ∧
        Alike cache next) := by
  rw [sweep, ends_bind, ends_shardAt, seat]
  simp only [ends_bind, ends_readClock]
  generalize cache.clock.read = outcome
  obtain ⟨fault | now, clock⟩ := outcome
  · exact ⟨rfl, alike_withClock cache clock⟩
  · have readSeat : (cache.withClock clock).shards[index]? = some shard :=
      seat
    have read : Reseats index shard cache (cache.withClock clock) :=
      .of_eq seat rfl rfl
    have swept : Reseats index (shard.eraseAll (shard.expiredKeys now))
        cache ((cache.withClock clock).withShard index
          (shard.eraseAll (shard.expiredKeys now))) :=
      read.trans (.of_withShard readSeat)
    simp only [ends_putShard, ends_ite, ends_bind, ends_record, ends_pure]
    split
    · exact ⟨now, rfl, rfl, swept.trans (.of_eq swept.seat rfl rfl)⟩
    · exact ⟨now, rfl, rfl, swept⟩

theorem ends_sweep_of_no_seat
    {index : Nat} (vacant : cache.shards[index]? = none) :
    Ends (sweep index) cache (fun _ _ => False)
      (fun fault next =>
        fault = .shardOutOfRange cache.shards.size index ∧ next = cache) := by
  rw [sweep, ends_bind, ends_shardAt, vacant]
  exact ⟨rfl, rfl⟩

end Removing

end ReadThrough.Cache
